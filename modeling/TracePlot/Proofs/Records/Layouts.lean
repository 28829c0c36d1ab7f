import TracePlot.Proofs.Table.Columns
import TracePlot.Records.Energy
import TracePlot.Records.Job
import TracePlot.Records.PowerState
import TracePlot.Records.Queue

/-! Jobs, changes of power states, energy readings and samples of the queue are read by the names
of the columns. Each column sets a part of the row that no other sets, and reads a text in the same
way wherever it stands. -/

namespace TracePlot

open Table

theorem Job.movable_columns : Movable Job.columns where
  unplaced := by simp [Job.columns]
  commute := by
    simp only [Job.columns, Column.text_eq_map, List.pairwise_cons, List.forall_mem_cons,
      List.not_mem_nil, false_imp_iff, implies_true, List.Pairwise.nil, and_true]
    and_intros <;> exact Column.commute_of_set fun _ _ _ => rfl

theorem PowerState.Change.movable_columns : Movable PowerState.Change.columns where
  unplaced := by simp [PowerState.Change.columns]
  commute := by
    simp only [PowerState.Change.columns, List.pairwise_cons, List.forall_mem_cons,
      List.not_mem_nil, false_imp_iff, implies_true, List.Pairwise.nil, and_true]
    and_intros <;> exact Column.commute_of_set fun _ _ _ => rfl

theorem Energy.movable_columns : Movable Energy.columns where
  unplaced := by simp [Energy.columns]
  commute := by
    simp only [Energy.columns, List.pairwise_cons, List.forall_mem_cons,
      List.not_mem_nil, false_imp_iff, implies_true, List.Pairwise.nil, and_true]
    exact Column.commute_of_set fun _ _ _ => rfl

theorem Queue.movable_columns : Movable Queue.columns where
  unplaced := by simp [Queue.columns]
  commute := by
    simp only [Queue.columns, List.pairwise_cons, List.forall_mem_cons,
      List.not_mem_nil, false_imp_iff, implies_true, List.Pairwise.nil, and_true]
    and_intros <;> exact Column.commute_of_set fun _ _ _ => rfl

theorem Queue.column_mem (m : Queue.Measure) : m.column ∈ Queue.columns.map (·.name) := by
  cases m <;> simp [Queue.columns, Column.number, Column.optional, Column.flag]

/-- Tables of all kinds are read by the names of their columns. -/
theorem tables_read_by_name (window : Window) (wanted : List Queue.Measure) :
    Readable Job.columns {} (fun _ => true) Job.readAll ∧
    Readable PowerState.Change.columns {} (fun _ => true) PowerState.Change.readAll ∧
    Readable Energy.columns {} (fun r => window.contains r.time) (Energy.readAll window) ∧
    Readable Queue.columns {} (fun s => window.contains s.date)
      (Queue.readAll window wanted) := by
  refine ⟨readable_readTable Job.movable_columns ?_ {},
    readable_readTable PowerState.Change.movable_columns ?_ {},
    (readable_readTable Energy.movable_columns ?_ {}).filter _,
    (readable_readTable Queue.movable_columns ?_ {}).filter _⟩
  · decide
  · decide
  · decide
  · rw [List.forall_mem_cons, List.forall_mem_map]
    exact ⟨by decide, fun m _ => Queue.column_mem m⟩

def utf8 (text : String) : List UInt8 :=
  text.toUTF8.data.toList

def readings : List UInt8 :=
  utf8 "time,energy\n0,1\n5,7\n"

/-- The readings with the columns in another order and with one more, in which a comma is quoted. -/
def readingsOfHosts : List UInt8 :=
  utf8 "host,energy,time\nx,1,0\n\"y,z\",7,5\n"

theorem readingsOfHosts_read_as_readings :
    Relaid (Energy.columns.map (·.name)) (records readings) (records readingsOfHosts) ∧
    ((Energy.readAll ⟨some 1.0, none⟩ readingsOfHosts).toOption.map
      fun rs => rs.map fun r => (r.time, r.energy)) = some [(5.0, 7.0)] := by
  have hrelaid : Relaid (Energy.columns.map (·.name)) (records readings)
      (records readingsOfHosts) := by
    have hbefore : records readings =
        [⟨{}, ["time", "energy"].map utf8⟩, ⟨⟨1, 2, 12⟩, ["0", "1"].map utf8⟩,
          ⟨⟨2, 3, 16⟩, ["5", "7"].map utf8⟩] := by
      decide +kernel
    have hafter : records readingsOfHosts =
        [⟨{}, ["host", "energy", "time"].map utf8⟩, ⟨⟨1, 2, 17⟩, ["x", "1", "0"].map utf8⟩,
          ⟨⟨2, 3, 23⟩, ["y,z", "7", "5"].map utf8⟩] := by
      decide +kernel
    rw [hbefore, hafter]
    refine @Relaid.mk _ _ _ _ _ [2, 1, 0] [utf8 "host"] (by decide) (by decide +kernel) ?_ ?_
    · simp only [List.forall_mem_singleton]
      exact ⟨"host", by decide +kernel, by decide⟩
    · exact .cons ⟨rfl, [utf8 "x"], rfl, by decide +kernel, by decide +kernel⟩
        (.cons ⟨rfl, [utf8 "y,z"], rfl, by decide +kernel, by decide +kernel⟩ .nil)
  refine ⟨hrelaid, ?_⟩
  obtain ⟨-, -, henergy, -⟩ := tables_read_by_name ⟨some 1.0, none⟩ []
  have hread : ((Energy.readAll ⟨some 1.0, none⟩ readings).toOption.map
      fun rs => rs.map fun r => (r.time, r.energy)) = some [(5.0, 7.0)] := by
    decide +kernel
  rw [toOption_map_eq_some_iff] at hread ⊢
  obtain ⟨rs, hrs, hpairs⟩ := hread
  exact ⟨rs, (henergy.relaid hrelaid rs).mp hrs, hpairs⟩

end TracePlot
