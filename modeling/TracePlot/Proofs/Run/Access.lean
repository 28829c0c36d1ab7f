import TracePlot.Proofs.Figure.Seen
import TracePlot.Run.Summary

/-! Which files a plot depends on. The panels and the summary show the files of some lists only, and
no other file changes them. Loading is refused for an unreadable energy file also where nobody
looks at it. -/

namespace TracePlot

/-- The file is in a list that a requested panel or the summary shows. -/
inductive Config.Needs (c : Config) (path : String) : Prop
  | jobs (h : path ∈ c.sources.jobs)
      (hshown : .gantt ∈ c.features ∨ .unresponsiveness ∈ c.features ∨ c.summary = true)
  | changes (h : path ∈ c.sources.changes) (hshown : .gantt ∈ c.features)
  | energy (h : path ∈ c.sources.energy)
      (hshown : .power ∈ c.features ∨ .energy ∈ c.features ∨ c.summary = true)
  | queue (h : path ∈ c.sources.queue)
      (hshown : (∃ f ∈ c.features, f.source = .queue) ∨ c.summary = true)

def Files.AgreeOn (files files' : Files) (paths : String → Prop) : Prop :=
  ∀ path, paths path → files.read path = files'.read path

variable {files files' : Files} {c : Config} {l : Layout} {i : Instance} {path : String}
  {data data' : List RunData}

namespace Config

theorem wantsJobs_iff :
    c.wantsJobs = true ↔
      .gantt ∈ c.features ∨ .unresponsiveness ∈ c.features ∨ c.summary = true := by
  simp [wantsJobs, or_assoc]

theorem wantsQueue_iff :
    c.wantsQueue = true ↔ (∃ f ∈ c.features, f.source = .queue) ∨ c.summary = true := by
  have hmeasures : c.measures ≠ [] ↔ ∃ f ∈ c.features, f.source = .queue := by
    simp only [measures, ne_eq, List.filterMap_eq_nil_iff, mem_requested,
      Feature.source_eq_queue_iff, not_forall, Option.eq_none_iff_forall_ne_some, not_not,
      exists_prop]
  rw [← hmeasures]
  simp [wantsQueue]

theorem needs_of_shownBy {f : Feature} (hi : i ∈ c.instances) (hf : f ∈ c.requested)
    (hpath : path ∈ i.shownBy f) : c.Needs path := by
  obtain ⟨hjobs, hchanges, henergy, hqueue⟩ := mem_sources_of_mem_instances hi
  have hf := mem_requested.mp hf
  have hsource (hqueues : f.source = .queue) (hpath : path ∈ i.queue) : c.Needs path :=
    .queue (hqueue path hpath) (.inl ⟨f, hf, hqueues⟩)
  cases f with
  | gantt =>
    simp only [Instance.shownBy, List.mem_append, Option.mem_toList] at hpath
    rcases hpath with hpath | hpath
    · exact .jobs (hjobs path hpath) (.inl hf)
    · exact .changes (hchanges path hpath) hf
  | power => exact .energy (henergy path (Option.mem_toList.mp hpath)) (.inl hf)
  | energy => exact .energy (henergy path (Option.mem_toList.mp hpath)) (.inr (.inl hf))
  | unresponsiveness =>
    simp only [Instance.shownBy, List.mem_append, Option.mem_toList] at hpath
    rcases hpath with hpath | hpath
    · exact .jobs (hjobs path hpath) (.inr (.inl hf))
    · exact hsource rfl hpath
  | _ => exact hsource rfl (Option.mem_toList.mp hpath)

end Config

namespace Files

theorem loadInstance_congr (hi : i ∈ c.instances)
    (h : files.AgreeOn files' fun path => c.Needs path ∨ path ∈ c.sources.energy) :
    files.loadInstance c i = files'.loadInstance c i := by
  obtain ⟨hjobs, hchanges, henergy, hqueue⟩ := Config.mem_sources_of_mem_instances hi
  have hjobs : files.loadOptional c.wantsJobs Job.readAll i.jobs =
      files'.loadOptional c.wantsJobs Job.readAll i.jobs :=
    loadOptional_congr fun path hp hwanted =>
      h path (.inl (.jobs (hjobs path hp) (Config.wantsJobs_iff.mp hwanted)))
  have hchanges : files.loadOptional c.wantsChanges PowerState.Change.readAll i.changes =
      files'.loadOptional c.wantsChanges PowerState.Change.readAll i.changes :=
    loadOptional_congr fun path hp hwanted =>
      h path (.inl (.changes (hchanges path hp) (by simpa [Config.wantsChanges] using hwanted)))
  have henergy : files.loadOptional true (Energy.readAll c.window) i.energy =
      files'.loadOptional true (Energy.readAll c.window) i.energy :=
    loadOptional_congr fun path hp _ => h path (.inr (henergy path hp))
  have hqueue : files.loadOptional c.wantsQueue (Queue.readAll c.window c.measures) i.queue =
      files'.loadOptional c.wantsQueue (Queue.readAll c.window c.measures) i.queue :=
    loadOptional_congr fun path hp hwanted =>
      h path (.inl (.queue (hqueue path hp) (Config.wantsQueue_iff.mp hwanted)))
  simp only [loadInstance, hjobs, hchanges, henergy, hqueue]

/-- No file is opened but those needed and those of energy. -/
theorem loadAll_congr (hinstances : l.instances = c.instances)
    (h : files.AgreeOn files' fun path => c.Needs path ∨ path ∈ c.sources.energy) :
    files.loadAll c l = files'.loadAll c l := by
  have hmap : ∀ is ⊆ c.instances,
      is.mapM (files.loadInstance c) = is.mapM (files'.loadInstance c) := by
    intro is his
    induction is with
    | nil => rfl
    | cons i is ih =>
      rw [List.cons_subset] at his
      rw [List.mapM_cons, List.mapM_cons, loadInstance_congr his.1 h, ih his.2]
  rw [loadAll, loadAll, hinstances]
  exact hmap _ (List.Subset.refl _)

end Files

def allColumns : List String :=
  Job.required ++ PowerState.Change.required ++ Energy.required ++
    "date" :: Queue.Measure.all.map (·.column)

/-- A table without rows that reads as records of any kind. -/
def blankTable : List UInt8 :=
  allColumns.flatMap fun name => name.toUTF8.data.toList ++ [Table.comma]

theorem readTable_blankTable {ρ : Type} (columns : List (Table.Column ρ)) (blank : ρ)
    {required : List String} (h : required ⊆ allColumns) :
    Table.readTable columns blank required blankTable = .ok [] := by
  have hheader : (Table.readHeader (Table.records blankTable)).toOption.map
      (fun table => (table.1, table.2.length)) = some (allColumns ++ [""], 0) := by
    decide +kernel
  cases hread : Table.readHeader (Table.records blankTable) with
  | error fault => simp [hread, Except.toOption] at hheader
  | ok table =>
    obtain ⟨header, rest⟩ := table
    simp only [hread, Except.toOption, Option.map_some, Option.some.injEq, Prod.mk.injEq,
      List.length_eq_zero_iff] at hheader
    obtain ⟨rfl, rfl⟩ := hheader
    exact Table.readTable_eq_ok_iff.mpr
      ⟨_, _, hread, fun name hn => List.mem_append_left _ (h hn), rfl⟩

def blankFiles : Files where
  read _ := .ok blankTable

theorem exists_loadOptional_blank {α : Type} {read : List UInt8 → Except Table.Fault (List α)}
    (hread : read blankTable = .ok []) (wanted : Bool) (paths : Option String) :
    ∃ loaded, blankFiles.loadOptional wanted read paths = .ok loaded := by
  cases paths with
  | none => exact ⟨_, rfl⟩
  | some path =>
    cases wanted with
    | false => exact ⟨_, rfl⟩
    | true =>
      have hload : blankFiles.load read path = .ok [] := Files.load_eq_ok_iff.mpr ⟨_, rfl, hread⟩
      exact ⟨_, Files.loadOptional_some_eq_ok_iff.mpr ⟨_, hload, rfl⟩⟩

theorem exists_loadInstance_blank (c : Config) (i : Instance) :
    ∃ d, blankFiles.loadInstance c i = .ok d := by
  have hcolumns : ("date" :: c.measures.map (·.column)) ⊆ allColumns := by
    refine List.cons_subset.mpr ⟨by decide, fun name hn => ?_⟩
    obtain ⟨m, -, rfl⟩ := List.mem_map.mp hn
    cases m <;> decide
  have hjobs : Job.readAll blankTable = .ok [] := readTable_blankTable _ _ (by decide)
  have hchanges : PowerState.Change.readAll blankTable = .ok [] :=
    readTable_blankTable _ _ (by decide)
  have henergy : Energy.readAll c.window blankTable = .ok [] :=
    map_eq_ok_iff.mpr ⟨_, readTable_blankTable _ _ (by decide), rfl⟩
  have hqueue : Queue.readAll c.window c.measures blankTable = .ok [] :=
    map_eq_ok_iff.mpr ⟨_, readTable_blankTable _ _ hcolumns, rfl⟩
  obtain ⟨jobs, hjobs⟩ := exists_loadOptional_blank hjobs c.wantsJobs i.jobs
  obtain ⟨changes, hchanges⟩ := exists_loadOptional_blank hchanges c.wantsChanges i.changes
  obtain ⟨energy, henergy⟩ := exists_loadOptional_blank henergy true i.energy
  obtain ⟨queue, hqueue⟩ := exists_loadOptional_blank hqueue c.wantsQueue i.queue
  have hloaded : blankFiles.Loaded c i
      ⟨i.name, jobs, changes, energy, energy.map Energy.power, queue⟩ :=
    ⟨rfl, hjobs, hchanges, henergy, rfl, hqueue⟩
  exact ⟨_, Files.loadInstance_eq_ok_iff.mpr hloaded⟩

theorem exists_loadAll_blank (c : Config) (l : Layout) :
    ∃ data, blankFiles.loadAll c l = .ok data := by
  rw [Files.loadAll]
  induction l.instances with
  | nil => exact ⟨[], rfl⟩
  | cons i is ih =>
    obtain ⟨d, hd⟩ := exists_loadInstance_blank c i
    obtain ⟨rest, hrest⟩ := ih
    exact ⟨d :: rest, by simp [List.mapM_cons, hd, hrest]⟩

def Files.without (files : Files) (missing : String) : Files where
  read path := if path = missing then .error .notFound else files.read path

theorem Files.agreeOn_without {paths : String → Prop} {missing : String} (h : ¬ paths missing) :
    files.AgreeOn (files.without missing) paths := by
  intro path hpath
  have hne : path ≠ missing := fun he => h (he ▸ hpath)
  simp [without, hne]

theorem not_loaded_without_energy {d : RunData} (hi : i.energy = some path) :
    ¬ (files.without path).Loaded c i d := by
  intro h
  have henergy := h.energy
  rw [hi] at henergy
  obtain ⟨rows, hrows, -⟩ := Files.loadOptional_some_eq_ok_iff.mp henergy
  obtain ⟨bytes, hbytes, -⟩ := Files.load_eq_ok_iff.mp hrows
  simp [Files.without] at hbytes

theorem Config.Planned.not_loadAll_without_energy (h : c.Planned l)
    (hpath : path ∈ c.sources.energy) :
    ¬ ∃ data, (files.without path).loadAll c l = .ok data := by
  rintro ⟨data, hdata⟩
  obtain ⟨k, i, hi, henergy⟩ := h.instance_of_energy hpath
  obtain ⟨d, -, hd⟩ := Files.loaded_of_getElem? hdata hi
  exact not_loaded_without_energy henergy hd

/-- The figure and the summaries are those of the needed files, and no other file is opened but
those of energy. Loading asks for the needed files alone just when all energy files are needed. -/
theorem figure_depends_on_needed_files (hplan : c.plan = .ok (.draw l)) :
    (∀ files files' : Files, files.AgreeOn files' c.Needs →
      ∀ data data', files.loadAll c l = .ok data → files'.loadAll c l = .ok data' →
        l.draw c data = l.draw c data' ∧
          (c.summary = true → data.map (Summary.ofData c.window) =
            data'.map (Summary.ofData c.window))) ∧
    (∀ files files' : Files,
      files.AgreeOn files' (fun path => c.Needs path ∨ path ∈ c.sources.energy) →
        files.loadAll c l = files'.loadAll c l) ∧
    ((∀ files files' : Files, files.AgreeOn files' c.Needs →
      ((∃ data, files.loadAll c l = .ok data) ↔ ∃ data, files'.loadAll c l = .ok data)) ↔
        ∀ path ∈ c.sources.energy, c.Needs path) := by
  have hplanned := Config.planned_of_plan hplan
  have hinstances : l.instances = c.instances := by rw [hplanned.layout]
  have hall {files files' : Files} (hagree : files.AgreeOn files' c.Needs)
      (henergy : ∀ path ∈ c.sources.energy, c.Needs path) :
      files.loadAll c l = files'.loadAll c l :=
    Files.loadAll_congr hinstances fun path hp => hagree path (hp.elim id (henergy path))
  refine ⟨fun files files' hagree data data' hdata hdata' => ⟨?_, fun hsummary => ?_⟩,
    fun files files' hagree => Files.loadAll_congr hinstances hagree,
    fun hsame path hpath => ?_, fun henergy files files' hagree => ?_⟩
  · have hloaded := Files.loadAll_eq_ok_iff.mp hdata
    have hloaded' := Files.loadAll_eq_ok_iff.mp hdata'
    have hpanels : l.panels.map (·.draw c l.roles data) =
        l.panels.map (·.draw c l.roles data') := by
      refine List.map_congr_left fun spec hspec => ?_
      have hf := (hplanned.of_mem_panels hspec).1
      exact draw_eq_of_loaded hloaded hloaded' rfl hf hf fun i hi path hp =>
        hagree path (Config.needs_of_shownBy (hinstances ▸ hi) hf hp)
    rw [Layout.draw, Layout.draw, hpanels]
  · have henergy : ∀ path ∈ c.sources.energy, c.Needs path := fun path hp =>
      .energy hp (.inr (.inr hsummary))
    rw [hall hagree henergy, hdata'] at hdata
    cases hdata
    rfl
  · by_contra hneeded
    -- Every file reads blank, and in the second run the unneeded energy file is missing.
    exact hplanned.not_loadAll_without_energy hpath
      ((hsame _ _ (Files.agreeOn_without hneeded)).mp (exists_loadAll_blank c l))
  · rw [hall hagree henergy]

def powerConfig : Config where
  features := [.power]
  sources := { jobs := ["jobs.csv"], energy := ["energy.csv"] }

theorem powerConfig_without_jobs :
    ∃ l, powerConfig.plan = .ok (.draw l) ∧
      ∃ data, (blankFiles.without "jobs.csv").loadAll powerConfig l = .ok data := by
  have hplan : powerConfig.plan = .ok (.draw
      ⟨[⟨.power, none⟩], powerConfig.instances, {}, powerConfig.margins⟩) := rfl
  have henergy : ∀ path ∈ powerConfig.sources.energy, powerConfig.Needs path := fun path hp =>
    .energy hp (.inl (by decide))
  have hjobs : ¬ powerConfig.Needs "jobs.csv" := by
    intro hneeded
    cases hneeded <;> simp_all [powerConfig]
  have hboth := (figure_depends_on_needed_files hplan).2.2.mpr henergy blankFiles _
    (Files.agreeOn_without hjobs)
  exact ⟨_, hplan, hboth.mp (exists_loadAll_blank powerConfig _)⟩

def ganttConfig : Config where
  features := [.gantt]
  sources := { jobs := ["jobs.csv"], energy := ["energy.csv"] }

/-- A Gantt chart shows no energy and is still refused for a missing energy file. -/
theorem ganttConfig_without_energy :
    ∃ l, ganttConfig.plan = .ok (.draw l) ∧
      blankFiles.AgreeOn (blankFiles.without "energy.csv") ganttConfig.Needs ∧
      (∃ data, blankFiles.loadAll ganttConfig l = .ok data) ∧
      ¬ ∃ data, (blankFiles.without "energy.csv").loadAll ganttConfig l = .ok data := by
  have hplan : ganttConfig.plan = .ok (.draw
      ⟨[⟨.gantt, some 0⟩], ganttConfig.instances, {}, ganttConfig.margins⟩) := rfl
  have hneeded : ¬ ganttConfig.Needs "energy.csv" := by
    intro hneeded
    cases hneeded <;> simp_all [ganttConfig]
  exact ⟨_, hplan, Files.agreeOn_without hneeded, exists_loadAll_blank ganttConfig _,
    (Config.planned_of_plan hplan).not_loadAll_without_energy (by decide)⟩

end TracePlot
