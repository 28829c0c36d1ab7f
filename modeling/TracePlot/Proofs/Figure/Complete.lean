import Mathlib.Data.Set.List
import TracePlot.Proofs.Figure.Seen

/-! Every planned panel is filled. A panel of curves leaves out the instances without its records,
and there are none: the plan pairs each instance with a file of every list that a panel is drawn
from, and loading reads the files of these lists. -/

namespace TracePlot

/-- The records of the instance at a place, loaded from the file at that place of a list. -/
structure Files.RecordsAt {α : Type} (files : Files) (read : List UInt8 → Except Table.Fault α)
    (paths : List String) (data : List RunData) (field : RunData → Option α) (i : Nat)
    (rows : α) : Prop where
  loaded : ∃ d, data[i]? = some d ∧ field d = some rows
  file : ∃ path, paths[i]? = some path ∧ files.load read path = .ok rows

def PanelSpec.title? (spec : PanelSpec) (names : List String) : Option String :=
  match spec.feature with
  | .gantt => (spec.shown.bind fun i => names[i]?).map fun name => "Gantt chart: " ++ name
  | .power => some "Power (W)"
  | .energy => some "Energy (J)"
  | .unresponsiveness => some "Unresponsiveness estimation"
  | .loadInQueue => some "Load in queue (nb_res * seconds)"
  | .jobsInQueue => some "Number of jobs in queue"
  | .priorityJobSize => some "Number of requested resources of the priority job"
  | .priorityJobWait => some "Expected waiting time of the priority job (s)"
  | .priorityJobImminence => some "Is the priority job expected to start soon?"

def Config.boundOf (c : Config) : Feature → Option Float
  | .unresponsiveness => c.horizonBound
  | .priorityJobWait => c.waitBound
  | _ => none

section Contents

variable (files : Files) (c : Config) (data : List RunData)

/-- The curve of the instance at a place in a panel with one curve each. -/
inductive CurveAt : Feature → Nat → Series → Prop
  | power {i : Nat} {name : String} {rows : List Energy.Power} (hname : c.names[i]? = some name)
      (hrows : files.RecordsAt (fun bytes => (Energy.readAll c.window bytes).map Energy.power)
        c.sources.energy data (·.power) i rows) :
      CurveAt .power i
        { style := .stepPre, tint := .run i, points := rows.map fun p => (p.time, p.power)
          label := some name }
  | energy {i : Nat} {name : String} {rows : List Energy.Reading} (hname : c.names[i]? = some name)
      (hrows : files.RecordsAt (Energy.readAll c.window) c.sources.energy data (·.energy) i rows) :
      CurveAt .energy i
        { style := .line, tint := .run i, points := rows.map fun r => (r.time, r.energy)
          label := some name }
  | queue {f : Feature} {m : Queue.Measure} {i : Nat} {name : String} {rows : List Queue.Sample}
      (hm : f.measure? = some m) (hname : c.names[i]? = some name)
      (hrows : files.RecordsAt (Queue.readAll c.window c.measures) c.sources.queue data (·.queue) i
        rows) :
      CurveAt f i
        { style := .stepPost, tint := .run i
          points := rows.filterMap fun s => (s.value? m).map fun v => (s.date, v)
          label := some name }

/-- The line of the load horizon and, just when there is a list of jobs, the times that the jobs
of the instance waited. -/
inductive HorizonAt : Nat → List Series → Prop
  | intro {i : Nat} {name : String} {rows : List Queue.Sample} {waits : List Series}
      (hname : c.names[i]? = some name)
      (hrows : files.RecordsAt (Queue.readAll c.window c.measures) c.sources.queue data (·.queue) i
        rows)
      (hnone : c.sources.jobs = [] → waits = [])
      (hwaits : c.sources.jobs ≠ [] → ∃ jobs,
        files.RecordsAt Job.readAll c.sources.jobs data (·.jobs) i jobs ∧
          waits =
            [{ style := .scatter, tint := .run i
               points := (jobs.filter fun j => c.window.contains j.submission).filterMap fun j =>
                 j.waiting.map fun w => (j.submission, w)
               label := some (name ++ " Waiting Time (s)") }]) :
      HorizonAt i
        ({ style := .line, tint := .run i
           points := rows.filterMap fun s => s.loadHorizon.map fun v => (s.date, v)
           label := some (name ++ " LLH (s)") } :: waits)

/-- What follows the curves: the line of a bound, just when there is one and a sample is left. -/
structure BoundLine (bound : Option Float) (lines : List Series) : Prop where
  present : lines ≠ [] ↔
    bound.isSome = true ∧ ∃ d ∈ data, ∃ samples, d.queue = some samples ∧ samples ≠ []
  line : ∀ s ∈ lines, lines = [s] ∧ s.style = .line ∧ s.tint = .reference ∧ s.label.isSome = true ∧
    ∃ b first last, bound = some b ∧ s.points = [(first, b), (last, b)]

inductive Contents : PanelSpec → Panel → Prop
  | gantt {i : Nat} {d : RunData} {jobs : List Job} (hd : data[i]? = some d)
      (hname : c.names[i]? = some d.name)
      (hjobs : files.RecordsAt Job.readAll c.sources.jobs data (·.jobs) i jobs) :
      Contents ⟨.gantt, some i⟩ (Gantt.panel c.roles c.window d)
  | curves {f : Feature} {p : Panel} {curves bound : List Series}
      (hf : f ≠ .gantt ∧ f ≠ .unresponsiveness) (hlength : curves.length = c.names.length)
      (hcurves : ∀ i s, curves[i]? = some s → CurveAt files c data f i s)
      (hbound : BoundLine data (c.boundOf f) bound) (hseries : p.series = curves ++ bound) :
      Contents ⟨f, none⟩ p
  | horizon {p : Panel} {runs : List (List Series)} {bound : List Series}
      (hlength : runs.length = c.names.length)
      (hruns : ∀ i run, runs[i]? = some run → HorizonAt files c data i run)
      (hbound : BoundLine data (c.boundOf .unresponsiveness) bound)
      (hseries : p.series = runs.flatten ++ bound) :
      Contents ⟨.unresponsiveness, none⟩ p

structure Filled (spec : PanelSpec) (p : Panel) : Prop where
  title : spec.title? c.names = some p.title
  apart : p.series = [] ∨ p.tiles = []
  legend : spec.feature ≠ .gantt → p.legend.map (fun e => some e.label) = p.series.map (·.label)
  contents : Contents files c data spec p

end Contents

variable {files : Files} {c : Config} {l : Layout} {data : List RunData}

namespace Curves

theorem getElem?_runs (data : List RunData) (series : Nat → RunData → List Series) (i : Nat) :
    (data.zipIdx.map fun x => series x.2 x.1)[i]? = data[i]?.map (series i) := by
  rw [List.getElem?_map, List.getElem?_zipIdx]
  cases data[i]? <;> simp

theorem perRun_eq_flatten (data : List RunData) (series : Nat → RunData → List Series) :
    perRun data series = (data.zipIdx.map fun x => series x.2 x.1).flatten :=
  List.flatMap_def

/-- Where each instance gives one series, the series are those of the instances in turn. -/
theorem perRun_of_singles {series : Nat → RunData → List Series} {P : Nat → Series → Prop}
    (h : ∀ i d, data[i]? = some d → ∃ s, series i d = [s] ∧ P i s) :
    (perRun data series).length = data.length ∧
      ∀ i s, (perRun data series)[i]? = some s → P i s := by
  have hsingle : ∀ run ∈ data.zipIdx.map (fun x => series x.2 x.1),
      run ∈ Set.range fun s : Series => [s] := by
    intro run hrun
    obtain ⟨i, hi⟩ := List.mem_iff_getElem?.mp hrun
    rw [getElem?_runs, Option.map_eq_some_iff] at hi
    obtain ⟨d, hd, rfl⟩ := hi
    obtain ⟨s, hs, -⟩ := h i d hd
    exact ⟨s, hs.symm⟩
  obtain ⟨curves, hcurves⟩ : data.zipIdx.map (fun x => series x.2 x.1) ∈
      Set.range (List.map fun s : Series => [s]) := by
    rw [Set.range_list_map]
    exact hsingle
  have hperRun : perRun data series = curves := by
    rw [perRun_eq_flatten, ← hcurves, ← List.flatMap_def, List.flatMap_singleton']
  rw [hperRun]
  constructor
  · simpa using congrArg List.length hcurves
  · intro i s hs
    have hrun := getElem?_runs data series i
    rw [← hcurves, List.getElem?_map, hs, Option.map_some, eq_comm, Option.map_eq_some_iff] at hrun
    obtain ⟨d, hd, hseries⟩ := hrun
    obtain ⟨s', hs', hP⟩ := h i d hd
    rw [hs', List.singleton_inj] at hseries
    exact hseries ▸ hP

theorem boundLine_boundSeries (data : List RunData) (label : String) (bound : Option Float) :
    BoundLine data bound (boundSeries data label bound) := by
  have hdates : (data.filterMap (·.queue)).flatten.map (·.date) ≠ [] ↔
      ∃ d ∈ data, ∃ samples, d.queue = some samples ∧ samples ≠ [] := by
    simp only [ne_eq, List.map_eq_nil_iff, List.flatten_eq_nil_iff, List.mem_filterMap, not_forall,
      exists_prop]
    grind
  unfold boundSeries
  cases bound with
  | none => exact ⟨by simp, by simp⟩
  | some b =>
    cases hspan : Number.bounds? ((data.filterMap (·.queue)).flatten.map (·.date)) with
    | none =>
      rw [Number.bounds?_eq_none_iff] at hspan
      exact ⟨by simp [← hdates, hspan], by simp⟩
    | some span =>
      have hne : (data.filterMap (·.queue)).flatten.map (·.date) ≠ [] := by
        intro hnil
        rw [← Number.bounds?_eq_none_iff, hspan] at hnil
        cases hnil
      refine ⟨by simpa using hdates.mp hne, fun s hs => ?_⟩
      rw [List.mem_singleton] at hs
      subst hs
      exact ⟨rfl, rfl, rfl, rfl, b, span.1, span.2, rfl, rfl⟩

end Curves

namespace Config.Planned

variable {i : Nat} {d : RunData}

theorem loaded_at (h : c.Planned l) (hdata : files.loadAll c l = .ok data)
    (hd : data[i]? = some d) :
    c.names[i]? = some d.name ∧
      files.Loaded c
        ⟨d.name, c.sources.jobs[i]?, c.sources.changes[i]?, c.sources.energy[i]?,
          c.sources.queue[i]?⟩ d := by
  have hinstances : l.instances = c.instances := by rw [h.layout]
  obtain ⟨hi, -⟩ := List.getElem?_eq_some_iff.mp hd
  rw [Files.length_of_loadAll hdata] at hi
  obtain ⟨d', hd', hloaded⟩ := Files.loaded_of_getElem? hdata (List.getElem?_eq_getElem hi)
  rw [hd, Option.some_inj] at hd'
  subst hd'
  have hget := c.getElem?_instances i
  rw [← hinstances, List.getElem?_eq_getElem hi, eq_comm, Option.map_eq_some_iff] at hget
  obtain ⟨name, hname, hinstance⟩ := hget
  rw [← hinstance] at hloaded
  have hdname : d.name = name := hloaded.name
  exact ⟨by rw [hname, hdname], by rw [hdname]; exact hloaded⟩

theorem length_data (h : c.Planned l) (hdata : files.loadAll c l = .ok data) :
    data.length = c.names.length := by
  rw [Files.length_of_loadAll hdata, h.layout]
  simp [instances]

/-- A list of files that is not empty has one for each instance, and what it holds is loaded. -/
theorem recordsAt {α : Type} {read : List UInt8 → Except Table.Fault α}
    {field : RunData → Option α} {s : Source} (h : c.Planned l)
    (hdata : files.loadAll c l = .ok data) (hs : c.sources.of s ≠ []) (hd : data[i]? = some d)
    (hload : files.loadOptional true read (c.sources.of s)[i]? = .ok (field d)) :
    ∃ rows, field d = some rows ∧ files.RecordsAt read (c.sources.of s) data field i rows := by
  obtain ⟨hi, -⟩ := List.getElem?_eq_some_iff.mp hd
  rw [h.length_data hdata] at hi
  obtain ⟨path, hpath⟩ := h.exists_path hs hi
  rw [hpath] at hload
  obtain ⟨rows, hrows, hfield⟩ := Files.loadOptional_some_eq_ok_iff.mp hload
  exact ⟨rows, hfield, ⟨d, hd, hfield⟩, ⟨path, hpath, hrows⟩⟩

theorem queueAt (h : c.Planned l) (hdata : files.loadAll c l = .ok data) {f : Feature}
    {m : Queue.Measure} (hf : f ∈ c.requested) (hm : f.measure? = some m)
    (hd : data[i]? = some d) :
    ∃ rows, d.queue = some rows ∧
      files.RecordsAt (Queue.readAll c.window c.measures) c.sources.queue data (·.queue) i
        rows := by
  obtain ⟨-, hloaded⟩ := h.loaded_at hdata hd
  have hsource := h.sources f hf
  rw [Feature.source_eq_queue_iff.mpr ⟨m, hm⟩] at hsource
  have hqueue := hloaded.queue
  rw [wantsQueue_of_requested hf hm] at hqueue
  exact h.recordsAt hdata hsource hd hqueue

theorem jobsAt (h : c.Planned l) (hdata : files.loadAll c l = .ok data) {f : Feature}
    (hf : f ∈ c.requested) (hshown : f = .gantt ∨ f = .unresponsiveness)
    (hjobs : c.sources.jobs ≠ []) (hd : data[i]? = some d) :
    ∃ rows, d.jobs = some rows ∧
      files.RecordsAt Job.readAll c.sources.jobs data (·.jobs) i rows := by
  obtain ⟨-, hloaded⟩ := h.loaded_at hdata hd
  have hload := hloaded.jobs
  rw [wantsJobs_of_requested hf hshown] at hload
  exact h.recordsAt hdata (s := .jobs) hjobs hd hload

theorem energyAt (h : c.Planned l) (hdata : files.loadAll c l = .ok data) {f : Feature}
    (hf : f ∈ c.requested) (hsource : f.source = .energy) (hd : data[i]? = some d) :
    ∃ rows, d.energy = some rows ∧ files.RecordsAt (Energy.readAll c.window) c.sources.energy data
      (·.energy) i rows := by
  obtain ⟨-, hloaded⟩ := h.loaded_at hdata hd
  have hne := h.sources f hf
  rw [hsource] at hne
  exact h.recordsAt hdata hne hd hloaded.energy

theorem powerAt (h : c.Planned l) (hdata : files.loadAll c l = .ok data)
    (hf : .power ∈ c.requested) (hd : data[i]? = some d) :
    ∃ rows, d.power = some rows ∧
      files.RecordsAt (fun bytes => (Energy.readAll c.window bytes).map Energy.power)
        c.sources.energy data (·.power) i rows := by
  obtain ⟨-, hloaded⟩ := h.loaded_at hdata hd
  obtain ⟨rows, hrows, -, path, hpath, hload⟩ := h.energyAt hdata hf rfl hd
  obtain ⟨bytes, hbytes, hread⟩ := Files.load_eq_ok_iff.mp hload
  have hpower : d.power = some (Energy.power rows) := by
    rw [hloaded.power, hrows]
    rfl
  refine ⟨Energy.power rows, hpower, ⟨d, hd, hpower⟩, path, hpath, ?_⟩
  exact Files.load_eq_ok_iff.mpr ⟨bytes, hbytes, map_eq_ok_iff.mpr ⟨rows, hread, rfl⟩⟩

end Config.Planned

namespace Curves

section Runs

variable (h : c.Planned l) (hdata : files.loadAll c l = .ok data)
include h hdata

theorem powerSeries_curveAt (hf : .power ∈ c.requested) (i : Nat) (d : RunData)
    (hd : data[i]? = some d) :
    ∃ s, powerSeries i d = [s] ∧ CurveAt files c data .power i s := by
  obtain ⟨rows, hpower, hrows⟩ := h.powerAt hdata hf hd
  exact ⟨_, by rw [powerSeries, hpower], .power (h.loaded_at hdata hd).1 hrows⟩

theorem energySeries_curveAt (hf : .energy ∈ c.requested) (i : Nat) (d : RunData)
    (hd : data[i]? = some d) :
    ∃ s, energySeries i d = [s] ∧ CurveAt files c data .energy i s := by
  obtain ⟨rows, henergy, hrows⟩ := h.energyAt hdata hf rfl hd
  exact ⟨_, by rw [energySeries, henergy], .energy (h.loaded_at hdata hd).1 hrows⟩

theorem queueSeries_curveAt {f : Feature} {m : Queue.Measure} (hf : f ∈ c.requested)
    (hm : f.measure? = some m) (i : Nat) (d : RunData) (hd : data[i]? = some d) :
    ∃ s, queueSeries m i d = [s] ∧ CurveAt files c data f i s := by
  obtain ⟨rows, hqueue, hrows⟩ := h.queueAt hdata hf hm hd
  refine ⟨_, ?_, .queue hm (h.loaded_at hdata hd).1 hrows⟩
  rw [queueSeries, hqueue]
  rfl

theorem horizonSeries_horizonAt (hf : .unresponsiveness ∈ c.requested) (i : Nat) (d : RunData)
    (hd : data[i]? = some d) :
    HorizonAt files c data i (horizonSeries c.window i d) := by
  obtain ⟨hname, hloaded⟩ := h.loaded_at hdata hd
  obtain ⟨rows, hqueue, hrows⟩ := h.queueAt hdata hf rfl hd
  rw [horizonSeries, hqueue]
  refine .intro hname hrows (fun hnone => ?_) fun hjobs => ?_
  · have hload := hloaded.jobs
    simp only [hnone, List.getElem?_nil, Files.loadOptional_none, Except.ok.injEq] at hload
    rw [← hload]
    rfl
  · obtain ⟨jobs, hload, hjobs⟩ := h.jobsAt hdata hf (.inr rfl) hjobs hd
    exact ⟨jobs, hjobs, by rw [hload]; rfl⟩

end Runs

end Curves

theorem CurveAt.label_isSome {f : Feature} {i : Nat} {s : Series}
    (h : CurveAt files c data f i s) : s.label.isSome = true := by
  cases h <;> rfl

theorem HorizonAt.label_isSome {i : Nat} {run : List Series}
    (h : HorizonAt files c data i run) : ∀ s ∈ run, s.label.isSome = true := by
  cases h with
  | intro _ _ hnone hwaits =>
    refine List.forall_mem_cons.mpr ⟨rfl, fun s hs => ?_⟩
    by_cases hjobs : c.sources.jobs = []
    · rw [hnone hjobs] at hs
      cases hs
    · obtain ⟨jobs, -, rfl⟩ := hwaits hjobs
      rw [List.mem_singleton] at hs
      rw [hs]
      rfl

theorem boundLine_nil (data : List RunData) : BoundLine data none [] :=
  ⟨by simp, by simp⟩

theorem labels_of_entries {series : List Series} (h : ∀ s ∈ series, s.label.isSome = true) :
    (series.filterMap Series.entry?).map (fun e => some e.label) = series.map (·.label) := by
  induction series with
  | nil => rfl
  | cons s rest ih =>
    obtain ⟨label, hlabel⟩ := Option.isSome_iff_exists.mp (h s List.mem_cons_self)
    have hrest := ih fun s hs => h s (List.mem_cons_of_mem _ hs)
    simp [Series.entry?, hlabel, hrest]

theorem filled_addAll {spec : PanelSpec} {title : String} {series : List Series}
    (htitle : spec.title? c.names = some title) (hlabels : ∀ s ∈ series, s.label.isSome = true)
    (hcontents : Contents files c data spec (({ title } : Panel).addAll series)) :
    Filled files c data spec (({ title } : Panel).addAll series) := by
  refine ⟨by simpa using htitle, .inr (by simp), fun _ => ?_, hcontents⟩
  rw [Panel.addAll_legend, Panel.addAll_series, List.nil_append, List.nil_append]
  exact labels_of_entries hlabels

section Panels

variable (h : c.Planned l) (hdata : files.loadAll c l = .ok data)
include h hdata

theorem filled_gantt {i : Nat} (hf : .gantt ∈ c.requested) (hi : i < c.names.length) :
    Filled files c data ⟨.gantt, some i⟩ (PanelSpec.draw c c.roles data ⟨.gantt, some i⟩) := by
  have hlt : i < data.length := by rw [h.length_data hdata]; exact hi
  have hd := List.getElem?_eq_getElem hlt
  obtain ⟨hname, -⟩ := h.loaded_at hdata hd
  obtain ⟨jobs, -, hjobs⟩ := h.jobsAt hdata hf (.inl rfl) (h.sources _ hf) hd
  have hdraw : PanelSpec.draw c c.roles data ⟨.gantt, some i⟩ =
      Gantt.panel c.roles c.window data[i] := by
    simp [PanelSpec.draw, hd]
  rw [hdraw]
  exact ⟨by simp [PanelSpec.title?, hname, Gantt.panel], .inl rfl, fun hne => absurd rfl hne,
    .gantt hd hname hjobs⟩

/-- A panel with one curve of each instance is filled when each instance gives its curve. -/
theorem filled_of_curves {f : Feature} {title : String} {series : Nat → RunData → List Series}
    {bound : List Series} (hf : f ≠ .gantt ∧ f ≠ .unresponsiveness)
    (htitle : PanelSpec.title? ⟨f, none⟩ c.names = some title)
    (hcurves : ∀ i d, data[i]? = some d → ∃ s, series i d = [s] ∧ CurveAt files c data f i s)
    (hbound : BoundLine data (c.boundOf f) bound) :
    Filled files c data ⟨f, none⟩
      (({ title } : Panel).addAll (Curves.perRun data series ++ bound)) := by
  obtain ⟨hlength, hcurves⟩ := Curves.perRun_of_singles hcurves
  refine filled_addAll htitle (fun s hs => ?_)
    (.curves hf (hlength.trans (h.length_data hdata)) hcurves hbound (by simp))
  rcases List.mem_append.mp hs with hs | hs
  · obtain ⟨i, hi⟩ := List.mem_iff_getElem?.mp hs
    exact (hcurves i s hi).label_isSome
  · exact (hbound.line s hs).2.2.2.1

theorem filled_power (hf : .power ∈ c.requested) :
    Filled files c data ⟨.power, none⟩ (Curves.powerPanel data) := by
  have hfilled := filled_of_curves h hdata (by decide) rfl
    (Curves.powerSeries_curveAt h hdata hf) (boundLine_nil data)
  rwa [List.append_nil] at hfilled

theorem filled_energy (hf : .energy ∈ c.requested) :
    Filled files c data ⟨.energy, none⟩ (Curves.energyPanel data) := by
  have hfilled := filled_of_curves h hdata (by decide) rfl
    (Curves.energySeries_curveAt h hdata hf) (boundLine_nil data)
  rwa [List.append_nil] at hfilled

theorem filled_queue {f : Feature} {m : Queue.Measure} {title : String} (hf : f ∈ c.requested)
    (hm : f.measure? = some m) (hne : f ≠ .unresponsiveness)
    (htitle : PanelSpec.title? ⟨f, none⟩ c.names = some title) :
    Filled files c data ⟨f, none⟩ (Curves.queuePanel title m (c.boundOf f) data) := by
  have hgantt : f ≠ .gantt := by
    rintro rfl
    cases hm
  exact filled_of_curves h hdata ⟨hgantt, hne⟩ htitle (Curves.queueSeries_curveAt h hdata hf hm)
    (Curves.boundLine_boundSeries data _ _)

theorem filled_horizon (hf : .unresponsiveness ∈ c.requested) :
    Filled files c data ⟨.unresponsiveness, none⟩
      (Curves.horizonPanel c.window c.horizonBound data) := by
  have hbound := Curves.boundLine_boundSeries data "LLH bound" c.horizonBound
  have hruns : ∀ i run,
      (data.zipIdx.map fun x => Curves.horizonSeries c.window x.2 x.1)[i]? = some run →
        HorizonAt files c data i run := by
    intro i run hrun
    rw [Curves.getElem?_runs, Option.map_eq_some_iff] at hrun
    obtain ⟨d, hd, rfl⟩ := hrun
    exact Curves.horizonSeries_horizonAt h hdata hf i d hd
  rw [Curves.horizonPanel, Curves.perRun_eq_flatten]
  refine filled_addAll rfl (fun s hs => ?_)
    (.horizon (by simpa using h.length_data hdata) hruns hbound (by simp))
  rcases List.mem_append.mp hs with hs | hs
  · obtain ⟨run, hrun, hs⟩ := List.mem_flatten.mp hs
    obtain ⟨i, hi⟩ := List.mem_iff_getElem?.mp hrun
    exact (hruns i run hi).label_isSome s hs
  · exact (hbound.line s hs).2.2.2.1

theorem filled_draw {spec : PanelSpec} (hspec : spec ∈ l.panels) :
    Filled files c data spec (spec.draw c c.roles data) := by
  obtain ⟨hf, ⟨i, hi, rfl⟩ | ⟨hgantt, hnone⟩⟩ := h.of_mem_panels hspec
  · exact filled_gantt h hdata hf hi
  · obtain ⟨f, shown⟩ := spec
    cases hnone
    cases f with
    | gantt => exact absurd rfl hgantt
    | power => exact filled_power h hdata hf
    | energy => exact filled_energy h hdata hf
    | unresponsiveness => exact filled_horizon h hdata hf
    | _ => exact filled_queue h hdata hf rfl (by decide) rfl

end Panels

/-- Every panel of the plan is drawn, in its place, with all curves it should have. -/
theorem every_planned_panel_is_filled (hplan : c.plan = .ok (.draw l))
    (hdata : files.loadAll c l = .ok data) :
    data.length = c.names.length ∧
      List.Forall₂ (Filled files c data) l.panels (l.draw c data).panels := by
  have hplanned := Config.planned_of_plan hplan
  have hroles : l.roles = c.roles := by rw [hplanned.layout]
  refine ⟨hplanned.length_data hdata, ?_⟩
  rw [Layout.draw, hroles, List.forall₂_map_right_iff, List.forall₂_same]
  exact fun spec hspec => filled_draw hplanned hdata hspec

def boundedConfig : Config where
  features := [.gantt, .power, .unresponsiveness]
  sources :=
    { jobs := ["jobs.csv", "late-jobs.csv"], energy := ["energy.csv", "late-energy.csv"]
      queue := ["queue.csv", "late-queue.csv"] }
  names := ["early", "late"]
  horizonBound := some 5.0

def boundedLayout : Layout :=
  ⟨[⟨.gantt, some 0⟩, ⟨.gantt, some 1⟩, ⟨.power, none⟩, ⟨.unresponsiveness, none⟩],
    boundedConfig.instances, {}, boundedConfig.margins⟩

/-- The power of the two runs, and their load horizons, each followed by the times that jobs
waited. -/
def boundedSeries : List (List Series) :=
  [[], [],
    [⟨.stepPre, .run 0, [(2.0, 5.0), (4.0, 15.0)], some "early", 1⟩,
      ⟨.stepPre, .run 1, [(3.0, 4.0)], some "late", 1⟩],
    [⟨.line, .run 0, [(1.0, 2.0)], some "early LLH (s)", 1⟩,
      ⟨.scatter, .run 0, [(0.0, 1.0), (1.0, 2.0)], some "early Waiting Time (s)", 1⟩,
      ⟨.line, .run 1, [(2.0, 3.0), (4.0, 1.0)], some "late LLH (s)", 1⟩,
      ⟨.scatter, .run 1, [(3.0, 1.0)], some "late Waiting Time (s)", 1⟩,
      ⟨.line, .reference, [(1.0, 5.0), (4.0, 5.0)], some "LLH bound (5.0)", 2⟩]]

theorem boundedConfig_panels_filled :
    ∃ data, boundedConfig.plan = .ok (.draw boundedLayout) ∧
      sampleFiles.loadAll boundedConfig boundedLayout = .ok data ∧
      List.Forall₂ (Filled sampleFiles boundedConfig data) boundedLayout.panels
        (boundedLayout.draw boundedConfig data).panels ∧
      (boundedLayout.draw boundedConfig data).panels.map (·.series) = boundedSeries := by
  have hseries : (sampleFiles.loadAll boundedConfig boundedLayout).toOption.map
      (fun data => (boundedLayout.draw boundedConfig data).panels.map (·.series)) =
        some boundedSeries := by
    decide +kernel
  obtain ⟨data, hdata, hseries⟩ := toOption_map_eq_some_iff.mp hseries
  exact ⟨data, rfl, hdata, (every_planned_panel_is_filled rfl hdata).2, hseries⟩

end TracePlot
