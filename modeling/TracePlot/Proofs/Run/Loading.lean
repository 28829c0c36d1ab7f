import TracePlot.Proofs.Table.Reading
import TracePlot.Run.Data

/-! Reading the files of the instances. The records of an instance are those of its files that are
wanted. -/

namespace TracePlot

theorem Energy.contains_of_readAll {window : Window} {bytes : List UInt8} {rs : List Reading}
    (h : readAll window bytes = .ok rs) : ∀ r ∈ rs, window.contains r.time = true := by
  obtain ⟨all, -, rfl⟩ := map_eq_ok_iff.mp h
  exact fun r hr => (List.mem_filter.mp hr).2

namespace Queue

variable {window : Window} {wanted wanted' : List Measure} {bytes : List UInt8}
  {samples samples' : List Sample}

theorem contains_of_readAll (h : readAll window wanted bytes = .ok samples) :
    ∀ s ∈ samples, window.contains s.date = true := by
  obtain ⟨all, -, rfl⟩ := map_eq_ok_iff.mp h
  exact fun s hs => (List.mem_filter.mp hs).2

theorem readAll_of_subset (hsub : wanted' ⊆ wanted)
    (h : readAll window wanted bytes = .ok samples) :
    readAll window wanted' bytes = .ok samples := by
  obtain ⟨all, hall, hfilter⟩ := map_eq_ok_iff.mp h
  have hcolumns : ("date" :: wanted'.map (·.column)) ⊆ "date" :: wanted.map (·.column) :=
    List.cons_subset_cons _ (List.map_subset _ hsub)
  exact map_eq_ok_iff.mpr ⟨all, Table.readTable_of_subset hcolumns hall, hfilter⟩

theorem readAll_unique (h : readAll window wanted bytes = .ok samples)
    (h' : readAll window wanted' bytes = .ok samples') : samples = samples' := by
  obtain ⟨all, hall, rfl⟩ := map_eq_ok_iff.mp h
  obtain ⟨all', hall', rfl⟩ := map_eq_ok_iff.mp h'
  rw [Table.readTable_unique hall hall']

end Queue

namespace Files

variable {α : Type} {files files' : Files} {read read' : List UInt8 → Except Table.Fault α}
  {path : String} {paths : Option String} {wanted : Bool} {rows rows' : α} {loaded : Option α}

theorem load_eq_ok_iff :
    files.load read path = .ok rows ↔
      ∃ bytes, files.read path = .ok bytes ∧ read bytes = .ok rows := by
  unfold load
  cases files.read path with
  | error fault => simp
  | ok bytes => cases hread : read bytes <;> simp [hread]

theorem loadOptional_none : files.loadOptional wanted read none = .ok none :=
  rfl

theorem loadOptional_some_eq_ok_iff :
    files.loadOptional true read (some path) = .ok loaded ↔
      ∃ rows, files.load read path = .ok rows ∧ loaded = some rows := by
  simp only [loadOptional, if_true, map_eq_ok_iff, eq_comm (a := loaded)]

/-- Readers that agree where both succeed get the same from files that agree. -/
theorem loadOptional_unique {loaded' : Option α}
    (hread : ∀ bytes rows rows', read bytes = .ok rows → read' bytes = .ok rows' → rows = rows')
    (hpaths : ∀ path ∈ paths, files.read path = files'.read path)
    (h : files.loadOptional true read paths = .ok loaded)
    (h' : files'.loadOptional true read' paths = .ok loaded') : loaded = loaded' := by
  cases paths with
  | none =>
    rw [loadOptional_none] at h h'
    cases h
    cases h'
    rfl
  | some path =>
    obtain ⟨rows, hrows, rfl⟩ := loadOptional_some_eq_ok_iff.mp h
    obtain ⟨rows', hrows', rfl⟩ := loadOptional_some_eq_ok_iff.mp h'
    obtain ⟨bytes, hbytes, hrows⟩ := load_eq_ok_iff.mp hrows
    obtain ⟨bytes', hbytes', hrows'⟩ := load_eq_ok_iff.mp hrows'
    rw [← hpaths path rfl, hbytes] at hbytes'
    cases hbytes'
    rw [hread bytes rows rows' hrows hrows']

theorem loadOptional_congr
    (h : ∀ path ∈ paths, wanted = true → files.read path = files'.read path) :
    files.loadOptional wanted read paths = files'.loadOptional wanted read paths := by
  cases paths with
  | none => rfl
  | some path =>
    cases wanted with
    | false => rfl
    | true => simp only [loadOptional, load, h path rfl rfl]

end Files

/-- The records of an instance are what its files hold, as far as they are wanted. -/
structure Files.Loaded (files : Files) (c : Config) (i : Instance) (d : RunData) : Prop where
  name : d.name = i.name
  jobs : files.loadOptional c.wantsJobs Job.readAll i.jobs = .ok d.jobs
  changes : files.loadOptional c.wantsChanges PowerState.Change.readAll i.changes = .ok d.changes
  energy : files.loadOptional true (Energy.readAll c.window) i.energy = .ok d.energy
  power : d.power = d.energy.map Energy.power
  queue : files.loadOptional c.wantsQueue (Queue.readAll c.window c.measures) i.queue = .ok d.queue

namespace Files

variable {files : Files} {c : Config} {l : Layout} {i : Instance} {d : RunData}
  {data : List RunData}

theorem loadInstance_eq_ok_iff : files.loadInstance c i = .ok d ↔ files.Loaded c i d := by
  simp only [loadInstance, bind_eq_ok_iff, pure_eq_ok_iff]
  constructor
  · rintro ⟨jobs, hjobs, changes, hchanges, energy, henergy, queue, hqueue, rfl⟩
    exact ⟨rfl, hjobs, hchanges, henergy, rfl, hqueue⟩
  · rintro ⟨hname, hjobs, hchanges, henergy, hpower, hqueue⟩
    exact ⟨_, hjobs, _, hchanges, _, henergy, _, hqueue, by rw [← hname, ← hpower]⟩

theorem loadAll_eq_ok_iff :
    files.loadAll c l = .ok data ↔ List.Forall₂ (files.Loaded c) l.instances data := by
  rw [loadAll, mapM_eq_ok_iff]
  simp only [loadInstance_eq_ok_iff]

theorem length_of_loadAll (h : files.loadAll c l = .ok data) : data.length = l.instances.length :=
  (loadAll_eq_ok_iff.mp h).length_eq.symm

theorem loaded_of_getElem? (h : files.loadAll c l = .ok data) {k : Nat}
    (hi : l.instances[k]? = some i) : ∃ d, data[k]? = some d ∧ files.Loaded c i d := by
  obtain ⟨hlength, hloaded⟩ := List.forall₂_iff_get.mp (loadAll_eq_ok_iff.mp h)
  obtain ⟨hk, rfl⟩ := List.getElem?_eq_some_iff.mp hi
  have hk' : k < data.length := by omega
  exact ⟨data[k], List.getElem?_eq_getElem hk', hloaded k hk hk'⟩

end Files

/-- The tables of two runs. In the second a job is never started, and in none are states known. -/
def sampleFiles : Files where
  read path :=
    let header := "job_id,submission_time,waiting_time,starting_time,finish_time," ++
      "allocated_resources\n"
    let table := match path with
      | "jobs.csv" => header ++ "1,0,1,1,3,0-1\n2,1,2,3,4,0\n"
      | "late-jobs.csv" => header ++ "1,2,,,,\n2,3,1,4,6,1\n"
      | "energy.csv" => "time,energy\n0,0\n2,10\n4,40\n"
      | "late-energy.csv" => "time,energy\n1,0\n3,8\n"
      | "queue.csv" => "date,liquid_load_horizon\n1,2\n"
      | _ => "date,liquid_load_horizon\n2,3\n4,1\n"
    .ok table.toUTF8.data.toList

end TracePlot
