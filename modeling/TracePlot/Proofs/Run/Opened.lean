import TracePlot.Proofs.Run.Access

/-! The files that are opened for a plot, in their order. Loading the instances comes down to
checking these files one after the other. -/

namespace TracePlot

inductive FileKind where
  | jobs
  | changes
  | energy
  | queue
  deriving Repr, DecidableEq

namespace FileKind

/-- The order in which the files of an instance are opened. -/
def all : List FileKind :=
  [.jobs, .changes, .energy, .queue]

def Row : FileKind → Type
  | .jobs => Job
  | .changes => PowerState.Change
  | .energy => Energy.Reading
  | .queue => Queue.Sample

def columns : (k : FileKind) → List (Table.Column k.Row)
  | .jobs => Job.columns
  | .changes => PowerState.Change.columns
  | .energy => Energy.columns
  | .queue => Queue.columns

def blank : (k : FileKind) → k.Row
  | .jobs => ({} : Job)
  | .changes => ({} : PowerState.Change)
  | .energy => ({} : Energy.Reading)
  | .queue => ({} : Queue.Sample)

end FileKind

def Instance.path? (i : Instance) : FileKind → Option String
  | .jobs => i.jobs
  | .changes => i.changes
  | .energy => i.energy
  | .queue => i.queue

structure InputFile where
  kind : FileKind
  path : String

namespace Config

/-- Files of this kind are looked at for a requested panel or the summary; those of energy always
are. -/
def Opens (c : Config) : FileKind → Prop
  | .jobs => .gantt ∈ c.features ∨ .unresponsiveness ∈ c.features ∨ c.summary = true
  | .changes => .gantt ∈ c.features
  | .energy => True
  | .queue => (∃ f ∈ c.features, f.source = .queue) ∨ c.summary = true

instance (c : Config) : DecidablePred c.Opens
  | .jobs => inferInstanceAs (Decidable (_ ∨ _ ∨ _))
  | .changes => inferInstanceAs (Decidable (_ ∈ _))
  | .energy => inferInstanceAs (Decidable True)
  | .queue => inferInstanceAs (Decidable ((∃ f ∈ c.features, f.source = .queue) ∨ _))

/-- The columns of the queue that have to be there, in the order in which they are looked for. -/
def queueColumns (c : Config) : List String :=
  "date" :: (Feature.all.filter (· ∈ c.features)).filterMap fun f => f.measure?.map (·.column)

def required (c : Config) : FileKind → List String
  | .jobs => Job.required
  | .changes => PowerState.Change.required
  | .energy => Energy.required
  | .queue => c.queueColumns

def openedOf (c : Config) (i : Instance) (k : FileKind) : List InputFile :=
  if c.Opens k then (i.path? k).toList.map (InputFile.mk k) else []

/-- The files that are opened for the instances, in this order. -/
def opened (c : Config) (is : List Instance) : List InputFile :=
  is.flatMap fun i => FileKind.all.flatMap (c.openedOf i)

end Config

namespace Files

def Sound (files : Files) (c : Config) (f : InputFile) : Prop :=
  ∃ bytes, files.read f.path = .ok bytes ∧
    Table.Sound f.kind.columns f.kind.blank (c.required f.kind) bytes

inductive Refused (files : Files) (c : Config) (f : InputFile) : FileReason → Prop
  | unreadable {fault : FileFault} (h : files.read f.path = .error fault) :
      Refused files c f (.unreadable fault)
  | table {bytes : List UInt8} {fault : Table.Fault} (h : files.read f.path = .ok bytes)
      (hrefused : Table.Refusal f.kind.columns f.kind.blank (c.required f.kind) bytes fault) :
      Refused files c f (.table fault)

/-- Reads a file to see whether it is sound. -/
def check (files : Files) (c : Config) (f : InputFile) : Except Failure Unit :=
  (files.load (Table.readTable f.kind.columns f.kind.blank (c.required f.kind)) f.path).map
    fun _ => ()

variable {α : Type} {files : Files} {c : Config} {f : InputFile} {e : Failure} {path : String}

theorem load_eq_error_iff {read : List UInt8 → Except Table.Fault α} :
    files.load read path = .error e ↔
      (∃ fault, files.read path = .error fault ∧ e = .fileFormat path (.unreadable fault)) ∨
      ∃ bytes fault, files.read path = .ok bytes ∧ read bytes = .error fault ∧
        e = .fileFormat path (.table fault) := by
  unfold load
  cases files.read path with
  | error fault => simp [eq_comm]
  | ok bytes => cases hread : read bytes <;> simp [hread, eq_comm]

theorem check_eq_ok_iff : files.check c f = .ok () ↔ files.Sound c f := by
  simp only [check, map_eq_ok_iff, and_true, load_eq_ok_iff, Sound, ← Table.exists_readTable_iff]
  constructor
  · rintro ⟨rows, bytes, hbytes, hrows⟩
    exact ⟨bytes, hbytes, rows, hrows⟩
  · rintro ⟨bytes, hbytes, rows, hrows⟩
    exact ⟨rows, bytes, hbytes, hrows⟩

theorem check_eq_error_iff :
    files.check c f = .error e ↔
      ∃ reason, files.Refused c f reason ∧ e = .fileFormat f.path reason := by
  rw [check, map_eq_error_iff, load_eq_error_iff]
  simp only [Table.readTable_eq_error_iff]
  constructor
  · rintro (⟨fault, hfault, rfl⟩ | ⟨bytes, fault, hbytes, hrefused, rfl⟩)
    · exact ⟨_, .unreadable hfault, rfl⟩
    · exact ⟨_, .table hbytes hrefused, rfl⟩
  · rintro ⟨reason, hreason, rfl⟩
    cases hreason with
    | unreadable hfault => exact .inl ⟨_, hfault, rfl⟩
    | table hbytes hrefused => exact .inr ⟨_, _, hbytes, hrefused, rfl⟩

theorem Refused.not_sound {reason : FileReason} (h : files.Refused c f reason) :
    ¬ files.Sound c f := by
  rw [← check_eq_ok_iff, check_eq_error_iff.mpr ⟨reason, h, rfl⟩]
  simp

end Files

theorem Config.queueColumns_eq (c : Config) :
    c.queueColumns = "date" :: c.measures.map (·.column) := by
  have hrequested : Feature.all.filter (· ∈ c.features) = c.requested :=
    List.filter_congr fun f _ => by simp
  rw [queueColumns, hrequested, measures, List.map_filterMap]

namespace Files

variable {α β : Type} {files : Files} {c : Config} {l : Layout} {i : Instance} {k : FileKind}

theorem map_load_congr {γ : Type} {read : List UInt8 → Except Table.Fault α}
    {read' : List UInt8 → Except Table.Fault β} {u : α → γ} {u' : β → γ} {path : String}
    (hread : ∀ bytes, (read bytes).map u = (read' bytes).map u') :
    (files.load read path).map u = (files.load read' path).map u' := by
  unfold load
  cases files.read path with
  | error fault => rfl
  | ok bytes =>
    have hbytes := hread bytes
    cases hr : read bytes <;> cases hr' : read' bytes <;> simp_all [Except.map]

theorem map_loadOptional {wanted : Bool} {read : List UInt8 → Except Table.Fault α}
    (hwanted : wanted = true ↔ c.Opens k)
    (hread : ∀ bytes, (read bytes).map (fun _ => ()) =
      (Table.readTable k.columns k.blank (c.required k) bytes).map fun _ => ()) :
    (files.loadOptional wanted read (i.path? k)).map (fun _ => ()) =
      forM (c.openedOf i k) (files.check c) := by
  -- What is read may be filtered afterwards, which cannot fail.
  have hchecked (path : String) : ((files.load read path).map some).map (fun _ => ()) =
      files.check c ⟨k, path⟩ := by
    rw [map_map, check]
    exact map_load_congr hread
  unfold loadOptional Config.openedOf
  cases i.path? k with
  | none =>
    rw [Option.toList_none, List.map_nil, ite_self]
    rfl
  | some path =>
    by_cases hopens : c.Opens k
    · simp only [hwanted.mpr hopens, if_true, if_pos hopens, hchecked]
      rw [Option.toList_some, List.map_singleton, List.forM_cons, List.forM_nil]
      exact bind_pure_unit.symm
    · simp only [mt hwanted.mp hopens, if_neg hopens]
      rfl

theorem map_loadInstance :
    (files.loadInstance c i).map (fun _ => ()) =
      forM (FileKind.all.flatMap (c.openedOf i)) (files.check c) := by
  have hjobs : (files.loadOptional c.wantsJobs Job.readAll i.jobs).map (fun _ => ()) =
      forM (c.openedOf i .jobs) (files.check c) :=
    map_loadOptional (k := .jobs) Config.wantsJobs_iff fun _ => rfl
  have hchanges : (files.loadOptional c.wantsChanges PowerState.Change.readAll i.changes).map
      (fun _ => ()) = forM (c.openedOf i .changes) (files.check c) :=
    map_loadOptional (k := .changes) List.contains_iff_mem fun _ => rfl
  have henergy : (files.loadOptional true (Energy.readAll c.window) i.energy).map (fun _ => ()) =
      forM (c.openedOf i .energy) (files.check c) :=
    map_loadOptional (k := .energy) (by simp [Config.Opens]) fun _ => map_map
  have hqueue : (files.loadOptional c.wantsQueue (Queue.readAll c.window c.measures) i.queue).map
      (fun _ => ()) = forM (c.openedOf i .queue) (files.check c) :=
    map_loadOptional (k := .queue) Config.wantsQueue_iff fun _ => by
      rw [Queue.readAll, map_map, Config.required, Config.queueColumns_eq]
      rfl
  have hall : forM (FileKind.all.flatMap (c.openedOf i)) (files.check c) = (do
      forM (c.openedOf i .jobs) (files.check c)
      forM (c.openedOf i .changes) (files.check c)
      forM (c.openedOf i .energy) (files.check c)
      forM (c.openedOf i .queue) (files.check c)) := by
    simp only [FileKind.all, List.flatMap_cons, List.flatMap_nil, List.append_nil,
      List.forM_append]
  rw [hall, ← hjobs, ← hchanges, ← henergy, ← hqueue]
  refine map_bind_eq_bind fun jobs => map_bind_eq_bind fun changes => ?_
  refine map_bind_eq_bind fun energy => ?_
  cases files.loadOptional c.wantsQueue (Queue.readAll c.window c.measures) i.queue <;> rfl

/-- Loading succeeds and fails as checking all opened files one after the other does. -/
theorem map_loadAll :
    (files.loadAll c l).map (fun _ => ()) = forM (c.opened l.instances) (files.check c) := by
  unfold loadAll Config.opened
  induction l.instances with
  | nil => rfl
  | cons i is ih =>
    rw [List.mapM_cons, List.flatMap_cons, List.forM_append, ← map_loadInstance, ← ih]
    refine map_bind_eq_bind fun d => ?_
    cases is.mapM (files.loadInstance c) <;> rfl

end Files

end TracePlot
