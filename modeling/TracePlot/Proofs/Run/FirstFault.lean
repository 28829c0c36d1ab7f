import TracePlot.Command.Run
import TracePlot.Proofs.Run.Opened

/-! Which fault ends a run: that of the first opened file that is not sound, whatever stands in
those after it. -/

namespace TracePlot

namespace Files

variable {files files' : Files} {c : Config} {l : Layout} {f : InputFile} {e : Failure}

theorem exists_loadAll_iff :
    (∃ data, files.loadAll c l = .ok data) ↔ ∀ f ∈ c.opened l.instances, files.Sound c f := by
  simp only [← check_eq_ok_iff, ← forM_eq_ok_iff, ← map_loadAll, map_eq_ok_iff, and_true]

theorem loadAll_eq_error_iff_check :
    files.loadAll c l = .error e ↔
      ∃ f, IsFirst (fun f => files.check c f ≠ .ok ()) (c.opened l.instances) f ∧
        files.check c f = .error e := by
  rw [← map_eq_error_iff (f := fun _ => ()), map_loadAll, forM_eq_error_iff]

theorem loadAll_eq_error_iff :
    files.loadAll c l = .error e ↔
      ∃ f reason, IsFirst (fun f => ¬ files.Sound c f) (c.opened l.instances) f ∧
        files.Refused c f reason ∧ e = .fileFormat f.path reason := by
  rw [loadAll_eq_error_iff_check]
  simp only [ne_eq, check_eq_ok_iff, check_eq_error_iff]
  constructor
  · rintro ⟨f, hfirst, reason, hreason, rfl⟩
    exact ⟨f, reason, hfirst, hreason, rfl⟩
  · rintro ⟨f, reason, hfirst, hreason, rfl⟩
    exact ⟨f, hfirst, reason, hreason, rfl⟩

theorem check_congr (h : files.read f.path = files'.read f.path) :
    files.check c f = files'.check c f := by
  simp only [check, load, h]

/-- What stands in the files after the first that is not sound makes no difference. -/
theorem loadAll_congr_of_not_sound {before after : List InputFile}
    (hopened : c.opened l.instances = before ++ f :: after)
    (hbefore : ∀ g ∈ before, files.Sound c g) (hf : ¬ files.Sound c f)
    (hagree : files.AgreeOn files' fun path => ∃ g ∈ before ++ [f], g.path = path) :
    files'.loadAll c l = files.loadAll c l := by
  cases he : files.check c f with
  | ok u => exact absurd (check_eq_ok_iff.mp he) hf
  | error e =>
    -- Any run that checks alike up to this file ends here.
    have hfails {files'' : Files}
        (hsame : ∀ g ∈ before ++ [f], files.check c g = files''.check c g) :
        files''.loadAll c l = .error e := by
      have hlast : files''.check c f = .error e := by rw [← hsame f (by simp), he]
      refine loadAll_eq_error_iff_check.mpr ⟨f, ⟨before, after, hopened, ?_, fun g hg => ?_⟩, hlast⟩
      · simp [hlast]
      · rw [not_not, ← hsame g (List.mem_append_left _ hg)]
        exact check_eq_ok_iff.mpr (hbefore g hg)
    rw [hfails fun g hg => check_congr (hagree g.path ⟨g, hg, rfl⟩), hfails fun g hg => rfl]

end Files

section Columns

variable {c : Config} {bytes : List UInt8} {header : List String} {rest : List Table.Record}
  {name : String}

theorem Config.mem_queueColumns_iff :
    name ∈ c.queueColumns ↔
      name = "date" ∨ ∃ f ∈ c.features, ∃ m, f.measure? = some m ∧ m.column = name := by
  have hall (f : Feature) : f ∈ Feature.all := by cases f <;> decide
  simp [queueColumns, hall]

theorem Queue.readAll_eq_missingColumn_iff
    (hheader : Table.readHeader (Table.records bytes) = .ok (header, rest)) :
    readAll c.window c.measures bytes = .error (.missingColumn name) ↔
      IsFirst (· ∉ header) c.queueColumns name := by
  rw [readAll, map_eq_error_iff, Table.readTable_eq_missingColumn_iff hheader,
    Config.queueColumns_eq]

theorem Queue.exists_readAll_missingColumn_iff
    (hheader : Table.readHeader (Table.records bytes) = .ok (header, rest)) :
    (∃ name, readAll c.window c.measures bytes = .error (.missingColumn name)) ↔
      "date" ∉ header ∨ ∃ f ∈ c.features, ∃ m, f.measure? = some m ∧ m.column ∉ header := by
  simp only [readAll_eq_missingColumn_iff hheader, exists_isFirst_iff,
    Config.mem_queueColumns_iff]
  constructor
  · rintro ⟨name, rfl | ⟨f, hf, m, hm, rfl⟩, hname⟩
    · exact .inl hname
    · exact .inr ⟨f, hf, m, hm, hname⟩
  · rintro (hname | ⟨f, hf, m, hm, hname⟩)
    · exact ⟨_, .inl rfl, hname⟩
    · exact ⟨_, .inr ⟨f, hf, m, hm, rfl⟩, hname⟩

end Columns

/-- Loading succeeds just when all opened files are sound. Otherwise the first that is not ends the
run, whatever stands in the files after it, and nothing is drawn or printed. Of the columns of the
queue only the date and those shown are missed. -/
theorem first_unsound_file_ends_run {c : Config} {l : Layout} (h : c.plan = .ok (.draw l)) :
    (∀ files : Files,
      (∃ data, files.loadAll c l = .ok data) ↔ ∀ f ∈ c.opened l.instances, files.Sound c f) ∧
    (∀ (files : Files) (e : Failure), files.loadAll c l = .error e ↔
      ∃ f reason, IsFirst (fun f => ¬ files.Sound c f) (c.opened l.instances) f ∧
        files.Refused c f reason ∧ e = .fileFormat f.path reason) ∧
    (∀ (files files' : Files) (f : InputFile) (before after : List InputFile),
      c.opened l.instances = before ++ f :: after → (∀ g ∈ before, files.Sound c g) →
      ¬ files.Sound c f → files.AgreeOn files' (fun path => ∃ g ∈ before ++ [f], g.path = path) →
        files'.loadAll c l = files.loadAll c l) ∧
    (∀ (files : Files) (e : Failure), files.loadAll c l = .error e → ∀ output,
      Command.runPlot files c output =
        { logs := [Command.layoutLog l], drawing := none, view := none, printed := [],
          failure := some e }) ∧
    ∀ (bytes : List UInt8) (header : List String) (rest : List Table.Record),
      Table.readHeader (Table.records bytes) = .ok (header, rest) →
        ((∃ name, Queue.readAll c.window c.measures bytes = .error (.missingColumn name)) ↔
          "date" ∉ header ∨ ∃ f ∈ c.features, ∃ m, f.measure? = some m ∧ m.column ∉ header) ∧
        ∀ name, Queue.readAll c.window c.measures bytes = .error (.missingColumn name) ↔
          IsFirst (· ∉ header) c.queueColumns name := by
  refine ⟨fun files => Files.exists_loadAll_iff, fun files e => Files.loadAll_eq_error_iff,
    fun files files' f before after => Files.loadAll_congr_of_not_sound,
    fun files e he output => ?_, fun bytes header rest hheader =>
      ⟨Queue.exists_readAll_missingColumn_iff hheader,
        fun name => Queue.readAll_eq_missingColumn_iff hheader⟩⟩
  simp only [Command.runPlot, h, he, Command.Outcome.ofFailure]

def queueConfig : Config where
  features := [.jobsInQueue, .unresponsiveness]
  sources :=
    { jobs := ["easy/jobs.csv", "fcfs/jobs.csv"]
      changes := ["easy/changes.csv", "fcfs/changes.csv"]
      energy := ["easy/energy.csv", "fcfs/energy.csv"]
      queue := ["easy/queue.csv", "fcfs/queue.csv"] }
  names := ["easy", "fcfs"]

/-- One table of the queue has dates only, and three files are missing. -/
def faultyFiles : Files where
  read path :=
    if path = "easy/queue.csv" then .ok "date".toUTF8.data.toList
    else if path ∈ ["easy/changes.csv", "fcfs/jobs.csv", "fcfs/energy.csv"] then .error .notFound
    else .ok blankTable

theorem queueConfig_lacks_load_horizon :
    ∃ l, queueConfig.plan = .ok (.draw l) ∧
      (∀ files' : Files,
        faultyFiles.AgreeOn files'
            (· ∈ ["easy/jobs.csv", "easy/energy.csv", "easy/queue.csv"]) →
          files'.loadAll queueConfig l =
            .error (.fileFormat "easy/queue.csv"
              (.table (.missingColumn "liquid_load_horizon")))) ∧
      Command.runPlot faultyFiles queueConfig (some "figure.svg") =
        { logs := [Command.layoutLog l]
          failure := some (.fileFormat "easy/queue.csv"
            (.table (.missingColumn "liquid_load_horizon"))) } := by
  have hplan : queueConfig.plan = .ok (.draw
      ⟨[⟨.unresponsiveness, none⟩, ⟨.jobsInQueue, none⟩], queueConfig.instances, {},
        queueConfig.margins⟩) := rfl
  obtain ⟨-, hfails, hlater, hrun, -⟩ := first_unsound_file_ends_run hplan
  have hopened : queueConfig.opened queueConfig.instances =
      [⟨.jobs, "easy/jobs.csv"⟩, ⟨.energy, "easy/energy.csv"⟩] ++ ⟨.queue, "easy/queue.csv"⟩ ::
        [⟨.jobs, "fcfs/jobs.csv"⟩, ⟨.energy, "fcfs/energy.csv"⟩,
          ⟨.queue, "fcfs/queue.csv"⟩] := rfl
  have hbefore : ∀ g ∈ ([⟨.jobs, "easy/jobs.csv"⟩, ⟨.energy, "easy/energy.csv"⟩] :
      List InputFile), faultyFiles.Sound queueConfig g := by
    simp only [List.forall_mem_cons, List.not_mem_nil, false_implies, implies_true, and_true]
    exact ⟨⟨_, rfl, Table.exists_readTable_iff.mp ⟨_, readTable_blankTable _ _ (by decide)⟩⟩,
      ⟨_, rfl, Table.exists_readTable_iff.mp ⟨_, readTable_blankTable _ _ (by decide)⟩⟩⟩
  have hheader : Table.readHeader (Table.records "date".toUTF8.data.toList) =
      .ok (["date"], []) := by
    decide +kernel
  have hmissing : IsFirst (· ∉ ["date"]) queueConfig.queueColumns "liquid_load_horizon" :=
    ⟨["date"], ["nb_jobs_in_queue"], rfl, by decide, by decide⟩
  have hrefused : faultyFiles.Refused queueConfig ⟨.queue, "easy/queue.csv"⟩
      (.table (.missingColumn "liquid_load_horizon")) :=
    .table rfl (.column hheader hmissing)
  have hfirst : IsFirst (fun f => ¬ faultyFiles.Sound queueConfig f)
      (queueConfig.opened queueConfig.instances) ⟨.queue, "easy/queue.csv"⟩ :=
    ⟨_, _, hopened, hrefused.not_sound, fun g hg => not_not.mpr (hbefore g hg)⟩
  have hloads := (hfails _ _).mpr ⟨_, _, hfirst, hrefused, rfl⟩
  refine ⟨_, hplan, fun files' hagree => ?_, hrun _ _ hloads _⟩
  rw [← hloads]
  refine hlater _ files' _ _ _ hopened hbefore hrefused.not_sound fun path hpath => hagree path ?_
  simpa [eq_comm] using hpath

end TracePlot
