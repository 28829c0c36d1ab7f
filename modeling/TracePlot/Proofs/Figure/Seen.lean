import TracePlot.Figure.Draw
import TracePlot.Proofs.Plan.Counts
import TracePlot.Proofs.Run.Loading

/-! What each kind of panel is drawn from. Records that differ elsewhere give the same panel, and
two loadings give a panel the same records as soon as they read the same files for it. -/

namespace TracePlot

/-- The records that a panel is drawn from; the others are left out. -/
def RunData.seenBy (d : RunData) : Feature → RunData
  | .gantt => { name := d.name, jobs := d.jobs, changes := d.changes }
  | .power => { name := d.name, power := d.power }
  | .energy => { name := d.name, energy := d.energy }
  | .unresponsiveness => { name := d.name, jobs := d.jobs, queue := d.queue }
  | _ => { name := d.name, queue := d.queue }

/-- The files of an instance that a panel shows. -/
def Instance.shownBy (i : Instance) : Feature → List String
  | .gantt => i.jobs.toList ++ i.changes.toList
  | .power => i.energy.toList
  | .energy => i.energy.toList
  | .unresponsiveness => i.jobs.toList ++ i.queue.toList
  | _ => i.queue.toList

namespace Curves

variable (data : List RunData) (see : RunData → RunData)

theorem perRun_map (series : Nat → RunData → List Series) :
    perRun (data.map see) series = perRun data fun i d => series i (see d) := by
  simp [perRun, List.zipIdx_map, List.flatMap_map]

theorem boundSeries_map (hsee : ∀ d, (see d).queue = d.queue) (label : String)
    (bound : Option Float) :
    boundSeries (data.map see) label bound = boundSeries data label bound := by
  unfold boundSeries
  rw [List.filterMap_map]
  simp only [Function.comp_def, hsee]

theorem queuePanel_map (hsee : ∀ d, see d = { name := d.name, queue := d.queue }) (title : String)
    (m : Queue.Measure) (bound : Option Float) :
    queuePanel title m bound (data.map see) = queuePanel title m bound data := by
  have hqueue (d : RunData) : (see d).queue = d.queue := by rw [hsee]
  have hseries : (fun i d => queueSeries m i (see d)) = queueSeries m := by
    funext i d
    rw [hsee]
    rfl
  rw [queuePanel, queuePanel, perRun_map, hseries, boundSeries_map data see hqueue]

end Curves

theorem PanelSpec.draw_seenBy (c : Config) (roles : PowerState.Roles) (data : List RunData)
    (spec : PanelSpec) :
    spec.draw c roles (data.map (·.seenBy spec.feature)) = spec.draw c roles data := by
  obtain ⟨feature, shown⟩ := spec
  cases feature with
  | gantt =>
    cases shown with
    | none => rfl
    | some i =>
      simp only [draw, Option.bind_some, List.getElem?_map]
      cases data[i]? <;> rfl
  | power =>
    simp only [draw, Curves.powerPanel, Curves.perRun_map]
    rfl
  | energy =>
    simp only [draw, Curves.energyPanel, Curves.perRun_map]
    rfl
  | unresponsiveness =>
    have hbound := Curves.boundSeries_map data (·.seenBy .unresponsiveness) (fun _ => rfl)
    simp only [draw, Curves.horizonPanel, Curves.perRun_map, hbound]
    rfl
  | _ => exact Curves.queuePanel_map data _ (fun _ => rfl) _ _ _

namespace Config

variable {c : Config} {f : Feature}

theorem wantsJobs_of_requested (hf : f ∈ c.requested) (h : f = .gantt ∨ f = .unresponsiveness) :
    c.wantsJobs = true := by
  have hf := mem_requested.mp hf
  rcases h with rfl | rfl <;> simp [wantsJobs, hf]

theorem wantsChanges_of_requested (hf : .gantt ∈ c.requested) : c.wantsChanges = true := by
  simpa [wantsChanges] using mem_requested.mp hf

theorem mem_measures_of_requested {m : Queue.Measure} (hf : f ∈ c.requested)
    (hm : f.measure? = some m) : m ∈ c.measures :=
  List.mem_filterMap.mpr ⟨f, hf, hm⟩

theorem wantsQueue_of_requested {m : Queue.Measure} (hf : f ∈ c.requested)
    (hm : f.measure? = some m) : c.wantsQueue = true := by
  have hne : c.measures ≠ [] := List.ne_nil_of_mem (mem_measures_of_requested hf hm)
  simp [wantsQueue, hne]

end Config

namespace Files.Loaded

variable {files files' : Files} {c c' : Config} {i : Instance} {d d' : RunData} {f : Feature}
  (h : files.Loaded c i d) (h' : files'.Loaded c' i d')

include h h'

theorem jobs_eq (hwant : c.wantsJobs = true) (hwant' : c'.wantsJobs = true)
    (hpaths : ∀ path ∈ i.jobs, files.read path = files'.read path) : d.jobs = d'.jobs := by
  have hjobs := h.jobs
  have hjobs' := h'.jobs
  rw [hwant] at hjobs
  rw [hwant'] at hjobs'
  exact loadOptional_unique (by grind) hpaths hjobs hjobs'

theorem changes_eq (hwant : c.wantsChanges = true) (hwant' : c'.wantsChanges = true)
    (hpaths : ∀ path ∈ i.changes, files.read path = files'.read path) :
    d.changes = d'.changes := by
  have hchanges := h.changes
  have hchanges' := h'.changes
  rw [hwant] at hchanges
  rw [hwant'] at hchanges'
  exact loadOptional_unique (by grind) hpaths hchanges hchanges'

theorem energy_eq (hwindow : c.window = c'.window)
    (hpaths : ∀ path ∈ i.energy, files.read path = files'.read path) : d.energy = d'.energy := by
  have henergy := h.energy
  rw [hwindow] at henergy
  exact loadOptional_unique (by grind) hpaths henergy h'.energy

theorem queue_eq (hwindow : c.window = c'.window) (hwant : c.wantsQueue = true)
    (hwant' : c'.wantsQueue = true)
    (hpaths : ∀ path ∈ i.queue, files.read path = files'.read path) :
    d.queue = d'.queue := by
  have hqueue := h.queue
  have hqueue' := h'.queue
  rw [hwant, hwindow] at hqueue
  rw [hwant'] at hqueue'
  exact loadOptional_unique (fun _ _ _ => Queue.readAll_unique) hpaths hqueue hqueue'

theorem seenBy_eq (hwindow : c.window = c'.window) (hf : f ∈ c.requested) (hf' : f ∈ c'.requested)
    (hpaths : ∀ path ∈ i.shownBy f, files.read path = files'.read path) :
    d.seenBy f = d'.seenBy f := by
  have hname : d.name = d'.name := h.name.trans h'.name.symm
  have hjobs (hfeature : f = .gantt ∨ f = .unresponsiveness)
      (hpaths : ∀ path ∈ i.jobs, files.read path = files'.read path) : d.jobs = d'.jobs :=
    h.jobs_eq h' (Config.wantsJobs_of_requested hf hfeature)
      (Config.wantsJobs_of_requested hf' hfeature) hpaths
  have hqueue {m : Queue.Measure} (hm : f.measure? = some m)
      (hpaths : ∀ path ∈ i.queue, files.read path = files'.read path) : d.queue = d'.queue :=
    h.queue_eq h' hwindow (Config.wantsQueue_of_requested hf hm)
      (Config.wantsQueue_of_requested hf' hm) hpaths
  cases f with
  | gantt =>
    simp only [Instance.shownBy, List.mem_append, Option.mem_toList] at hpaths
    have hjobs := hjobs (.inl rfl) fun path hp => hpaths path (.inl hp)
    have hchanges := h.changes_eq h' (Config.wantsChanges_of_requested hf)
      (Config.wantsChanges_of_requested hf') fun path hp => hpaths path (.inr hp)
    simp only [RunData.seenBy, hname, hjobs, hchanges]
  | power =>
    simp only [Instance.shownBy, Option.mem_toList] at hpaths
    simp only [RunData.seenBy, hname, h.power, h'.power, h.energy_eq h' hwindow hpaths]
  | energy =>
    simp only [Instance.shownBy, Option.mem_toList] at hpaths
    simp only [RunData.seenBy, hname, h.energy_eq h' hwindow hpaths]
  | unresponsiveness =>
    simp only [Instance.shownBy, List.mem_append, Option.mem_toList] at hpaths
    have hjobs := hjobs (.inr rfl) fun path hp => hpaths path (.inl hp)
    have hqueue := hqueue rfl fun path hp => hpaths path (.inr hp)
    simp only [RunData.seenBy, hname, hjobs, hqueue]
  | _ =>
    simp only [Instance.shownBy, Option.mem_toList] at hpaths
    simp only [RunData.seenBy, hname, hqueue rfl hpaths]

end Files.Loaded

section Runs

variable {files files' : Files} {c c' : Config} {is : List Instance} {data data' : List RunData}

/-- Two loadings of the same instances agree on whatever each instance agrees on. -/
theorem map_eq_of_loaded {β : Type} {view : RunData → β}
    (h : List.Forall₂ (files.Loaded c) is data) (h' : List.Forall₂ (files'.Loaded c') is data')
    (hview : ∀ i ∈ is, ∀ d d', files.Loaded c i d → files'.Loaded c' i d' → view d = view d') :
    data.map view = data'.map view := by
  induction h generalizing data' with
  | nil =>
    cases h'
    rfl
  | cons hd _ ih =>
    cases h' with
    | cons hd' hrest' =>
      rw [List.map_cons, List.map_cons, hview _ List.mem_cons_self _ _ hd hd',
        ih hrest' fun i hi => hview i (List.mem_cons_of_mem _ hi)]

theorem draw_eq_of_loaded {roles : PowerState.Roles} {spec : PanelSpec}
    (h : List.Forall₂ (files.Loaded c) is data) (h' : List.Forall₂ (files'.Loaded c') is data')
    (hwindow : c.window = c'.window) (hf : spec.feature ∈ c.requested)
    (hf' : spec.feature ∈ c'.requested)
    (hpaths : ∀ i ∈ is, ∀ path ∈ i.shownBy spec.feature, files.read path = files'.read path) :
    spec.draw c roles data = spec.draw c roles data' := by
  have hseen : data.map (·.seenBy spec.feature) = data'.map (·.seenBy spec.feature) :=
    map_eq_of_loaded h h' fun i hi _ _ hd hd' => hd.seenBy_eq hd' hwindow hf hf' (hpaths i hi)
  rw [← PanelSpec.draw_seenBy c roles data, hseen, PanelSpec.draw_seenBy c roles data']

end Runs

end TracePlot
