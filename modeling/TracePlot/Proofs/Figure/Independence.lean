import TracePlot.Proofs.Figure.Seen
import TracePlot.Proofs.Run.Access

/-! Panels do not depend on what else is requested. Who asks for less reads no table that was not
read before, and of the tables still read requires no further column. -/

namespace TracePlot

/-- The configurations describe the same run, whatever they request of it. -/
def Config.SameRun (c c' : Config) : Prop :=
  c' = { c with features := c'.features, summary := c'.summary }

/-- The first requests nothing that the second does not. -/
structure Config.Fewer (c' c : Config) : Prop where
  features : c'.features ⊆ c.features
  summary : c'.summary = true → c.summary = true

variable {files : Files} {c c' : Config} {l l' : Layout} {i : Instance} {d : RunData}
  {data data' : List RunData}

namespace Config

theorem Fewer.requested (h : c'.Fewer c) : c'.requested ⊆ c.requested :=
  fun _ hf => mem_requested.mpr (h.features (mem_requested.mp hf))

theorem Fewer.wantsJobs (h : c'.Fewer c) (hwant : c'.wantsJobs = true) : c.wantsJobs = true := by
  rw [wantsJobs_iff] at hwant ⊢
  exact hwant.imp (@h.features _) (Or.imp (@h.features _) h.summary)

theorem Fewer.wantsChanges (h : c'.Fewer c) (hwant : c'.wantsChanges = true) :
    c.wantsChanges = true := by
  simp only [Config.wantsChanges, List.contains_iff_mem] at hwant ⊢
  exact h.features hwant

theorem Fewer.measures (h : c'.Fewer c) : c'.measures ⊆ c.measures :=
  List.filterMap_subset _ h.requested

theorem Fewer.wantsQueue (h : c'.Fewer c) (hwant : c'.wantsQueue = true) :
    c.wantsQueue = true := by
  rw [wantsQueue_iff] at hwant ⊢
  exact hwant.imp (fun ⟨f, hf, hsource⟩ => ⟨f, h.features hf, hsource⟩) h.summary

theorem SameRun.window (h : c.SameRun c') : c.window = c'.window := by
  rw [h]

theorem SameRun.instances (h : c.SameRun c') : c.instances = c'.instances := by
  rw [h]
  rfl

theorem SameRun.roles (h : c.SameRun c') : c.roles = c'.roles := by
  rw [h]

theorem SameRun.draw (h : c.SameRun c') (roles : PowerState.Roles) (data : List RunData)
    (spec : PanelSpec) : spec.draw c' roles data = spec.draw c roles data := by
  rw [h]
  rfl

end Config

namespace Files

variable {α : Type} {read read' : List UInt8 → Except Table.Fault α} {paths : Option String}
  {wanted wanted' : Bool} {loaded : Option α}

/-- A file that could be read is still read with less to ask of it, or is not wanted any more. -/
theorem exists_loadOptional_of_fewer (hwanted : wanted' = true → wanted = true)
    (hread : ∀ bytes rows, read bytes = .ok rows → read' bytes = .ok rows)
    (h : files.loadOptional wanted read paths = .ok loaded) :
    ∃ loaded', files.loadOptional wanted' read' paths = .ok loaded' := by
  cases paths with
  | none => exact ⟨none, rfl⟩
  | some path =>
    by_cases hwant : wanted' = true
    · rw [hwanted hwant] at h
      obtain ⟨rows, hrows, -⟩ := loadOptional_some_eq_ok_iff.mp h
      obtain ⟨bytes, hbytes, hrows⟩ := load_eq_ok_iff.mp hrows
      have hload : files.load read' path = .ok rows :=
        load_eq_ok_iff.mpr ⟨bytes, hbytes, hread bytes rows hrows⟩
      rw [hwant]
      exact ⟨some rows, loadOptional_some_eq_ok_iff.mpr ⟨rows, hload, rfl⟩⟩
    · exact ⟨none, by simp [loadOptional, hwant]⟩

theorem Loaded.exists_of_fewer (h : files.Loaded c i d) (hfewer : c'.Fewer c)
    (hwindow : c.window = c'.window) : ∃ d', files.Loaded c' i d' := by
  have henergy := h.energy
  have hqueue := h.queue
  rw [hwindow] at henergy hqueue
  obtain ⟨jobs, hjobs⟩ :=
    exists_loadOptional_of_fewer hfewer.wantsJobs (fun _ _ hrows => hrows) h.jobs
  obtain ⟨changes, hchanges⟩ :=
    exists_loadOptional_of_fewer hfewer.wantsChanges (fun _ _ hrows => hrows) h.changes
  obtain ⟨queue, hqueue⟩ := exists_loadOptional_of_fewer hfewer.wantsQueue
    (fun _ _ hrows => Queue.readAll_of_subset hfewer.measures hrows) hqueue
  exact ⟨⟨i.name, jobs, changes, d.energy, d.energy.map Energy.power, queue⟩,
    rfl, hjobs, hchanges, henergy, rfl, hqueue⟩

theorem exists_loadAll_of_fewer (h : files.loadAll c l = .ok data) (hfewer : c'.Fewer c)
    (hwindow : c.window = c'.window) (hinstances : l.instances = l'.instances) :
    ∃ data', files.loadAll c' l' = .ok data' := by
  simp only [loadAll_eq_ok_iff, ← hinstances] at h ⊢
  generalize l.instances = is at h
  induction h with
  | nil => exact ⟨[], .nil⟩
  | cons hd _ ih =>
    obtain ⟨d', hd'⟩ := hd.exists_of_fewer hfewer hwindow
    obtain ⟨rest', hrest'⟩ := ih
    exact ⟨d' :: rest', .cons hd' hrest'⟩

end Files

theorem draw_eq_of_sameRun (hsame : c.SameRun c') (hplanned : c.Planned l)
    (hplanned' : c'.Planned l') (hdata : files.loadAll c l = .ok data)
    (hdata' : files.loadAll c' l' = .ok data') {spec : PanelSpec} (hspec : spec ∈ l.panels)
    (hspec' : spec ∈ l'.panels) : spec.draw c l.roles data = spec.draw c' l'.roles data' := by
  have hinstances : l.instances = l'.instances := by
    rw [hplanned.layout, hplanned'.layout]
    exact hsame.instances
  have hroles : l.roles = l'.roles := by
    rw [hplanned.layout, hplanned'.layout]
    exact hsame.roles
  have hloaded := Files.loadAll_eq_ok_iff.mp hdata
  have hloaded' := Files.loadAll_eq_ok_iff.mp hdata'
  rw [← hinstances] at hloaded'
  rw [← hroles, hsame.draw]
  exact draw_eq_of_loaded hloaded hloaded' hsame.window (hplanned.of_mem_panels hspec).1
    (hplanned'.of_mem_panels hspec').1 fun _ _ _ _ => rfl

/-- Panels do not depend on what else is requested. Without the summary the plan is the same, and
loading succeeds for the same panels wherever it did with the summary. -/
theorem panels_independent_of_request (files : Files) :
    (∀ c c' : Config, c.SameRun c' → ∀ (l l' : Layout) (data data' : List RunData),
      c.plan = .ok (.draw l) → c'.plan = .ok (.draw l') →
      files.loadAll c l = .ok data → files.loadAll c' l' = .ok data' →
      ∀ (spec : PanelSpec) (j j' : Nat), l.panels[j]? = some spec → l'.panels[j']? = some spec →
        ∃ p, (l.draw c data).panels[j]? = some p ∧ (l'.draw c' data').panels[j']? = some p) ∧
    ∀ c : Config, c.summary = true → ∀ l data,
      c.plan = .ok (.draw l) → files.loadAll c l = .ok data →
      { c with summary := false }.plan = .ok (.draw l) ∧
        ∃ data', files.loadAll { c with summary := false } l = .ok data' ∧
          (l.draw { c with summary := false } data').panels = (l.draw c data).panels := by
  constructor
  · intro c c' hsame l l' data data' hplan hplan' hdata hdata' spec j j' hspec hspec'
    have hdraw := draw_eq_of_sameRun hsame (Config.planned_of_plan hplan)
      (Config.planned_of_plan hplan') hdata hdata' (List.mem_of_getElem? hspec)
      (List.mem_of_getElem? hspec')
    refine ⟨spec.draw c l.roles data, ?_, ?_⟩
    · rw [Layout.draw, List.getElem?_map, hspec, Option.map_some]
    · rw [Layout.draw, List.getElem?_map, hspec', Option.map_some, hdraw]
  · intro c hsummary l data hplan hdata
    have hsame : c.SameRun { c with summary := false } := rfl
    have hfewer : Config.Fewer { c with summary := false } c :=
      ⟨List.Subset.refl _, fun _ => hsummary⟩
    have hplan' : { c with summary := false }.plan = .ok (.draw l) := hplan
    obtain ⟨data', hdata'⟩ :=
      Files.exists_loadAll_of_fewer hdata hfewer rfl (rfl : l.instances = l.instances)
    refine ⟨hplan', data', hdata', List.map_congr_left fun spec hspec => ?_⟩
    exact (draw_eq_of_sameRun hsame (Config.planned_of_plan hplan) (Config.planned_of_plan hplan')
      hdata hdata' hspec hspec).symm

def powerBelowGantt : Config :=
  { powerConfig with features := [.power, .gantt], summary := true }

def ganttAboveLayout : Layout :=
  ⟨[⟨.gantt, some 0⟩, ⟨.power, none⟩], powerBelowGantt.instances, {}, powerBelowGantt.margins⟩

/-- The panel alone, below a Gantt chart of two jobs, and there without the summary. -/
theorem powerPanel_below_gantt :
    ∃ l data data' data'', powerConfig.plan = .ok (.draw l) ∧
      powerBelowGantt.plan = .ok (.draw ganttAboveLayout) ∧
      sampleFiles.loadAll powerConfig l = .ok data ∧
      sampleFiles.loadAll powerBelowGantt ganttAboveLayout = .ok data' ∧
      sampleFiles.loadAll { powerBelowGantt with summary := false } ganttAboveLayout = .ok data'' ∧
      (∃ p, (l.draw powerConfig data).panels[0]? = some p ∧
        (ganttAboveLayout.draw powerBelowGantt data').panels[1]? = some p) ∧
      (ganttAboveLayout.draw { powerBelowGantt with summary := false } data'').panels =
        (ganttAboveLayout.draw powerBelowGantt data').panels ∧
      (ganttAboveLayout.draw powerBelowGantt data').panels.map (fun p =>
          (p.tiles.map (·.tint), p.series.map (·.points))) =
        [([.job 0, .job 1], []), ([], [[(2.0, 5.0), (4.0, 15.0)]])] := by
  let l : Layout := ⟨[⟨.power, none⟩], powerConfig.instances, {}, powerConfig.margins⟩
  have hpower : (sampleFiles.loadAll powerConfig l).toOption.map List.length = some 1 := by
    decide +kernel
  have hboth : (sampleFiles.loadAll powerBelowGantt ganttAboveLayout).toOption.map (fun data =>
      (ganttAboveLayout.draw powerBelowGantt data).panels.map fun p =>
        (p.tiles.map (·.tint), p.series.map (·.points))) =
          some [([.job 0, .job 1], []), ([], [[(2.0, 5.0), (4.0, 15.0)]])] := by
    decide +kernel
  obtain ⟨data, hdata, -⟩ := toOption_map_eq_some_iff.mp hpower
  obtain ⟨data', hdata', hpanels⟩ := toOption_map_eq_some_iff.mp hboth
  obtain ⟨hpanel, hsummary⟩ := panels_independent_of_request sampleFiles
  obtain ⟨-, data'', hdata'', hsame⟩ :=
    hsummary powerBelowGantt rfl ganttAboveLayout data' rfl hdata'
  exact ⟨l, data, data', data'', rfl, rfl, hdata, hdata', hdata'',
    hpanel powerConfig powerBelowGantt rfl l ganttAboveLayout data data' rfl rfl hdata hdata'
      ⟨.power, none⟩ 0 1 rfl rfl, hsame, hpanels⟩

end TracePlot
