import TracePlot.Proofs.Plan.Counts

/-! How a plan arranges files and panels. Every list that is not empty is dealt out to the
instances by position, and the panels stand in the order of the features. -/

namespace TracePlot

def Instance.file? (i : Instance) : Source → Option String
  | .jobs => i.jobs
  | .energy => i.energy
  | .queue => i.queue

namespace Config

/-- The layout deals out the files of the configuration and shows what it asks for. -/
structure Arranged (c : Config) (l : Layout) : Prop where
  names : c.names.length = l.instances.length
  lists : ∀ s, c.sources.of s ≠ [] → (c.sources.of s).length = l.instances.length
  /-- An instance has the entries of its position, and lacks a file only if the list is empty. -/
  dealt : ∀ (k : Nat) (i : Instance), l.instances[k]? = some i →
    c.names[k]? = some i.name ∧
      ∀ s, i.file? s = (c.sources.of s)[k]? ∧ (i.file? s = none ↔ c.sources.of s = [])
  dealtChanges : c.sources.jobs ≠ [] → ∀ (k : Nat) (i : Instance), l.instances[k]? = some i →
    i.changes = c.sources.changes[k]? ∧ (i.changes = none ↔ c.sources.changes = [])
  /-- A file belongs to as many instances as it has entries. -/
  once : ∀ s path,
    (l.instances.countP fun i => i.file? s = some path) = (c.sources.of s).count path
  onceChanges : c.sources.jobs ≠ [] → ∀ path,
    (l.instances.countP fun i => i.changes = some path) = c.sources.changes.count path
  sourced : ∀ f ∈ c.features, ∀ i ∈ l.instances, ∃ path, i.file? f.source = some path
  panels : l.panels =
    (if .gantt ∈ c.features then
      (List.range l.instances.length).map fun k => ⟨.gantt, some k⟩ else []) ++
      (Feature.all.filter fun f => f ≠ .gantt ∧ f ∈ c.features).map fun f => ⟨f, none⟩
  shown : ∀ spec ∈ l.panels, ∀ k ∈ spec.shown, k < l.instances.length

variable {c : Config} {l : Layout} {k n : Nat} {i : Instance} {f : Feature}

theorem length_instances (c : Config) : c.instances.length = c.names.length := by
  simp [instances]

theorem of_getElem?_instances (h : c.instances[k]? = some i) :
    c.names[k]? = some i.name ∧ (∀ s, i.file? s = (c.sources.of s)[k]?) ∧
      i.changes = c.sources.changes[k]? := by
  rw [getElem?_instances] at h
  obtain ⟨name, hname, rfl⟩ := Option.map_eq_some_iff.mp h
  exact ⟨hname, fun s => by cases s <;> rfl, rfl⟩

section Dealt

variable {paths : List String} {file : Instance → Option String}
  (hfile : ∀ (k : Nat) (i : Instance), c.instances[k]? = some i → file i = paths[k]?)
  (hlength : paths ≠ [] → paths.length = c.names.length)

include hfile hlength

theorem file_eq_none_iff (h : c.instances[k]? = some i) : file i = none ↔ paths = [] := by
  obtain ⟨hk, -⟩ := List.getElem?_eq_some_iff.mp h
  rw [length_instances] at hk
  rw [hfile k i h, List.getElem?_eq_none_iff]
  constructor
  · intro hle
    by_contra hne
    have heq := hlength hne
    omega
  · rintro rfl
    simp

theorem map_file (hne : paths ≠ []) : c.instances.map file = paths.map some := by
  refine List.ext_getElem? fun k => ?_
  rw [List.getElem?_map, List.getElem?_map]
  cases hk : c.instances[k]? with
  | none =>
    rw [List.getElem?_eq_none_iff, length_instances, ← hlength hne] at hk
    rw [List.getElem?_eq_none_iff.mpr hk]
    rfl
  | some i =>
    have hsome : file i ≠ none := fun h => hne ((file_eq_none_iff hfile hlength hk).mp h)
    obtain ⟨path, hpath⟩ := Option.ne_none_iff_exists'.mp hsome
    rw [← hfile k i hk, Option.map_some, hpath, Option.map_some]

theorem countP_file (path : String) :
    (c.instances.countP fun i => file i = some path) = paths.count path := by
  by_cases hne : paths = []
  · have hnone : ∀ i ∈ c.instances, ¬ file i = some path := by
      intro i hi hpath
      obtain ⟨k, hk⟩ := List.mem_iff_getElem?.mp hi
      simp [(file_eq_none_iff hfile hlength hk).mpr hne] at hpath
    rw [hne, List.count_nil, List.countP_eq_zero]
    simpa using hnone
  · have hcount : (c.instances.countP fun i => file i = some path) =
        (c.instances.map file).countP fun found => found = some path := by
      rw [List.countP_map]
      rfl
    rw [hcount, map_file hfile hlength hne, List.countP_map, List.count_eq_countP]
    exact List.countP_congr fun found _ => by simp

end Dealt

theorem requested_eq (c : Config) :
    c.requested = (if .gantt ∈ c.features then [.gantt] else []) ++
      Feature.all.filter fun f => f ≠ .gantt ∧ f ∈ c.features := by
  have hall : Feature.all = .gantt :: Feature.all.filter (· ≠ .gantt) := rfl
  have hrest : (Feature.all.filter fun f => f ≠ .gantt ∧ f ∈ c.features) =
      (Feature.all.filter (· ≠ .gantt)).filter c.features.contains := by
    rw [List.filter_filter]
    congr 1
    funext f
    rw [Bool.eq_iff_iff]
    simp [and_comm]
  rw [hrest]
  conv_lhs => rw [requested, hall]
  by_cases hgantt : .gantt ∈ c.features
  · rw [List.filter_cons_of_pos (by simpa using hgantt), if_pos hgantt]
    rfl
  · rw [List.filter_cons_of_neg (by simpa using hgantt), if_neg hgantt]
    rfl

theorem panelsOf_of_ne_gantt (h : f ≠ .gantt) : panelsOf n f = [⟨f, none⟩] := by
  cases f with
  | gantt => exact absurd rfl h
  | _ => rfl

theorem panels_eq (c : Config) (n : Nat) :
    c.requested.flatMap (panelsOf n) =
      (if .gantt ∈ c.features then (List.range n).map fun k => ⟨.gantt, some k⟩ else []) ++
        (Feature.all.filter fun f => f ≠ .gantt ∧ f ∈ c.features).map fun f => ⟨f, none⟩ := by
  have hrest : ∀ f ∈ Feature.all.filter fun f => f ≠ .gantt ∧ f ∈ c.features,
      panelsOf n f = [⟨f, none⟩] := fun f hf =>
    panelsOf_of_ne_gantt (of_decide_eq_true (List.mem_filter.mp hf).2).1
  rw [requested_eq, List.flatMap_append, List.flatMap_congr hrest, ← List.map_eq_flatMap]
  split
  · rw [List.flatMap_singleton]
    rfl
  · rfl

theorem arranged_of_planned (h : c.Planned l) : c.Arranged l := by
  have hlength : l.instances.length = c.names.length := by
    rw [h.layout]
    exact c.length_instances
  have hinstances : l.instances = c.instances := by rw [h.layout]
  have hof {k : Nat} {i : Instance} (hk : l.instances[k]? = some i) :
      c.names[k]? = some i.name ∧ (∀ s, i.file? s = (c.sources.of s)[k]?) ∧
        i.changes = c.sources.changes[k]? :=
    of_getElem?_instances (hinstances ▸ hk)
  have hfile (s : Source) (k : Nat) (i : Instance) (hk : c.instances[k]? = some i) :
      i.file? s = (c.sources.of s)[k]? := (of_getElem?_instances hk).2.1 s
  have hchange (k : Nat) (i : Instance) (hk : c.instances[k]? = some i) :
      i.changes = c.sources.changes[k]? := (of_getElem?_instances hk).2.2
  have hchanges (hjobs : c.sources.jobs ≠ []) (hne : c.sources.changes ≠ []) :
      c.sources.changes.length = c.names.length :=
    (h.changes hjobs hne).trans (h.counts .jobs hjobs)
  have hpanels : l.panels = c.requested.flatMap (panelsOf c.names.length) := by rw [h.layout]
  constructor
  case names => exact hlength.symm
  case lists => exact fun s hs => (h.counts s hs).trans hlength.symm
  case dealt =>
    intro k i hk
    exact ⟨(hof hk).1, fun s => ⟨(hof hk).2.1 s,
      file_eq_none_iff (hfile s) (h.counts s) (hinstances ▸ hk)⟩⟩
  case dealtChanges =>
    intro hjobs k i hk
    exact ⟨(hof hk).2.2, file_eq_none_iff hchange (hchanges hjobs) (hinstances ▸ hk)⟩
  case once =>
    intro s path
    rw [hinstances]
    exact countP_file (hfile s) (h.counts s) path
  case onceChanges =>
    intro hjobs path
    rw [hinstances]
    exact countP_file hchange (hchanges hjobs) path
  case sourced =>
    intro f hf i hi
    obtain ⟨k, hk⟩ := List.mem_iff_getElem?.mp hi
    have hne := h.sources f (mem_requested.mpr hf)
    have hsome : i.file? f.source ≠ none := fun hnone =>
      hne ((file_eq_none_iff (hfile _) (h.counts _) (hinstances ▸ hk)).mp hnone)
    exact Option.ne_none_iff_exists'.mp hsome
  case panels => rw [hpanels, hlength, panels_eq]
  case shown =>
    intro spec hspec k hk
    rw [hlength]
    rcases (h.of_mem_panels hspec).2 with ⟨j, hj, rfl⟩ | ⟨-, hspec⟩
    · cases hk
      exact hj
    · rw [hspec] at hk
      cases hk

/-- A plan deals out all files by position, so that each belongs to one instance, and stacks one
Gantt chart for each instance above one panel for each other feature. -/
theorem plan_deals_out_files (h : c.plan = .ok (.draw l)) : c.Arranged l :=
  arranged_of_planned (planned_of_plan h)

end Config

def pairConfig : Config where
  features := [.jobsInQueue, .gantt, .power]
  sources :=
    { jobs := ["easy/jobs.csv", "fcfs/jobs.csv"]
      changes := ["easy/changes.csv", "fcfs/changes.csv"]
      energy := ["easy/energy.csv", "fcfs/energy.csv"]
      queue := ["queue.csv", "queue.csv"] }
  names := ["easy", "fcfs"]

theorem pairConfig_dealt_out :
    ∃ l, pairConfig.plan = .ok (.draw l) ∧ pairConfig.Arranged l ∧
      l.panels = [⟨.gantt, some 0⟩, ⟨.gantt, some 1⟩, ⟨.power, none⟩, ⟨.jobsInQueue, none⟩] ∧
      (l.instances.countP fun i => i.file? .energy = some "fcfs/energy.csv") = 1 ∧
      (l.instances.countP fun i => i.file? .queue = some "queue.csv") = 2 := by
  have hplan : pairConfig.plan = .ok (.draw
      ⟨[⟨.gantt, some 0⟩, ⟨.gantt, some 1⟩, ⟨.power, none⟩, ⟨.jobsInQueue, none⟩],
        pairConfig.instances, {}, pairConfig.margins⟩) := rfl
  have harranged := Config.plan_deals_out_files hplan
  exact ⟨_, hplan, harranged, harranged.panels, harranged.once .energy "fcfs/energy.csv",
    harranged.once .queue "queue.csv"⟩

end TracePlot
