import TracePlot.Command.Arguments
import TracePlot.Proofs.Plan.Counts

/-! What a configuration is refused for. Roles, files, counts and names are checked in this order,
and the first check that fails decides, whatever else is wrong. -/

namespace TracePlot

namespace Config

variable {c : Config}

/-- The feature is asked for and has no file. -/
def Lacks (c : Config) (f : Feature) : Prop :=
  f ∈ c.features ∧ c.sources.of f.source = []

def Sourced (c : Config) : Prop :=
  ∀ f ∈ c.features, c.sources.of f.source ≠ []

/-- What is reported about a configuration. Each case says that the checks before it pass. -/
inductive Refusal (c : Config) : Failure → Prop
  | roles {a b : PowerState.Role} {both : List Int}
      (hfirst : IsFirst (fun p => c.roles.Meet p.1 p.2) PowerState.Roles.pairs (a, b))
      (hascending : both.Pairwise (· < ·))
      (hboth : ∀ s, s ∈ both ↔ s ∈ c.roles.states a ∧ s ∈ c.roles.states b) :
      Refusal c (.powerStates (PowerState.Roles.nameOf a) (PowerState.Roles.nameOf b) both)
  | sources {f : Feature} (hroles : c.roles.Apart) (hfirst : IsFirst c.Lacks Feature.all f) :
      Refusal c (.missingSource f.flag f.source.flag)
  | changes (hroles : c.roles.Apart) (hsources : c.Sourced) (hjobs : c.sources.jobs ≠ [])
      (hchanges : c.sources.changes ≠ [])
      (hlength : c.sources.changes.length ≠ c.sources.jobs.length) :
      Refusal c
        (.instanceCount "pstatesCSV" c.sources.changes.length "jobsCSV" c.sources.jobs.length)
  | counts {first other : Source} (hroles : c.roles.Apart) (hsources : c.Sourced)
      (hpaired : c.Paired)
      (hfirst : IsFirst (fun s => c.sources.of s ≠ []) Source.counted first)
      (hother : IsFirst
        (fun s => c.sources.of s ≠ [] ∧ (c.sources.of s).length ≠ (c.sources.of first).length)
        Source.counted other) :
      Refusal c (.instanceCount other.flag (c.sources.of other).length first.flag
        (c.sources.of first).length)
  | names {n : Nat} (hroles : c.roles.Apart) (hsources : c.Sourced) (hpaired : c.Paired)
      (hcounts : c.Counted n) (hrequested : c.features ≠ []) (hnames : c.names.length ≠ n) :
      Refusal c (.nameCount c.names.length n)

theorem sourced_iff : c.Sourced ↔ ∀ f ∈ c.requested, c.sources.of f.source ≠ [] := by
  simp only [Sourced, mem_requested]

theorem requested_eq_nil_iff : c.requested = [] ↔ c.features = [] := by
  simp only [List.eq_nil_iff_forall_not_mem, mem_requested]

theorem checkSources_eq_error_iff {e : Failure} :
    c.checkSources = .error e ↔
      ∃ f, IsFirst c.Lacks Feature.all f ∧ e = .missingSource f.flag f.source.flag := by
  have hlacks : ∀ f ∈ Feature.all, c.features.contains f = true ∧
      (c.sources.of f.source).isEmpty = true ↔ c.Lacks f := by
    simp [Lacks]
  have hfirst (f : Feature) :
      (c.requested.find? fun f => (c.sources.of f.source).isEmpty) = some f ↔
        IsFirst c.Lacks Feature.all f := by
    rw [find?_eq_some_iff_isFirst, requested, isFirst_filter, isFirst_congr hlacks]
  unfold checkSources
  constructor
  · intro he
    split at he
    · next f hfind => exact ⟨f, (hfirst f).mp hfind, (Except.error.inj he).symm⟩
    · cases he
  · rintro ⟨f, hf, rfl⟩
    rw [(hfirst f).mpr hf]

/-- The number of instances found is the length of all lists that are not empty, and a requested
feature has one of them. -/
theorem instanceCount_eq_ok_iff_counted {n : Nat} (hsources : c.Sourced)
    (hrequested : c.features ≠ []) : c.instanceCount = .ok n ↔ c.Paired ∧ c.Counted n := by
  have hsome : ¬ ∀ s, c.sources.of s = [] := by
    obtain ⟨f, hf⟩ := List.exists_mem_of_ne_nil _ hrequested
    exact fun h => hsources f hf (h f.source)
  rw [instanceCount_eq_ok_iff]
  simp [hsome]

theorem checkSources_eq_ok_iff_sourced : c.checkSources = .ok () ↔ c.Sourced := by
  rw [checkSources_eq_ok_iff, sourced_iff]

theorem plan_eq_draw_iff {l : Layout} : c.plan = .ok (.draw l) ↔ c.Planned l := by
  refine ⟨planned_of_plan, fun h => ?_⟩
  have hroles : c.roles.check = .ok c.roles :=
    PowerState.Roles.check_eq_ok_iff.mpr ⟨rfl, h.apart⟩
  have hsources : c.checkSources = .ok () := checkSources_eq_ok_iff.mpr h.sources
  have hcount : c.instanceCount = .ok c.names.length :=
    (instanceCount_eq_ok_iff_counted (sourced_iff.mpr h.sources)
      (fun hnil => h.requested (requested_eq_nil_iff.mpr hnil))).mpr ⟨h.changes, h.counts⟩
  have hrequested : c.requested.isEmpty = false := by simpa using h.requested
  unfold plan
  simp only [hroles, hsources, hcount]
  simp [hrequested, h.layout, bind, Except.bind, pure, Except.pure]

theorem exists_plan_eq_draw_iff :
    (∃ l, c.plan = .ok (.draw l)) ↔
      c.roles.Apart ∧ c.features ≠ [] ∧ c.Sourced ∧ c.Paired ∧ c.Counted c.names.length := by
  simp only [plan_eq_draw_iff]
  constructor
  · rintro ⟨l, h⟩
    exact ⟨h.apart, fun hnil => h.requested (requested_eq_nil_iff.mpr hnil),
      sourced_iff.mpr h.sources, h.changes, h.counts⟩
  · rintro ⟨hroles, hrequested, hsources, hpaired, hcounts⟩
    exact ⟨_, hroles, sourced_iff.mp hsources,
      fun hnil => hrequested (requested_eq_nil_iff.mp hnil), hpaired, hcounts, rfl⟩

theorem plan_eq_nothing_iff :
    c.plan = .ok .nothing ↔
      c.roles.Apart ∧ c.Sourced ∧ c.Paired ∧ (∃ n, c.Counted n) ∧ c.features = [] := by
  unfold plan
  simp only [bind_eq_ok_iff, PowerState.Roles.check_eq_ok_iff]
  constructor
  · rintro ⟨roles, ⟨rfl, hroles⟩, _, hsources, n, hcount, h⟩
    obtain ⟨hpaired, hcounts, -⟩ := instanceCount_eq_ok_iff.mp hcount
    split at h
    · next hrequested =>
      exact ⟨hroles, checkSources_eq_ok_iff_sourced.mp hsources, hpaired, ⟨n, hcounts⟩,
        requested_eq_nil_iff.mp (by simpa using hrequested)⟩
    · split at h
      · cases h
      · cases h
  · rintro ⟨hroles, hsources, hpaired, ⟨n, hcounts⟩, hrequested⟩
    have hempty : c.requested.isEmpty = true := by simpa using requested_eq_nil_iff.mpr hrequested
    -- No list at all is counted as no instance, whatever length the lists would have.
    have hcount : ∃ n, c.instanceCount = .ok n := by
      by_cases hall : ∀ s, c.sources.of s = []
      · exact ⟨0, instanceCount_eq_ok_iff.mpr
          ⟨hpaired, fun s hs => absurd (hall s) hs, fun _ => rfl⟩⟩
      · exact ⟨n, instanceCount_eq_ok_iff.mpr ⟨hpaired, hcounts, fun h => absurd h hall⟩⟩
    obtain ⟨m, hm⟩ := hcount
    exact ⟨_, ⟨rfl, hroles⟩, (), checkSources_eq_ok_iff_sourced.mpr hsources, m, hm, by
      simp [hempty, pure, Except.pure]⟩

theorem plan_eq_error_iff (h : c.roles.Ascending) {e : Failure} :
    c.plan = .error e ↔ c.Refusal e := by
  unfold plan
  simp only [bind_eq_error_iff, PowerState.Roles.check_eq_ok_iff]
  constructor
  · rintro (he | ⟨roles, ⟨rfl, hroles⟩, he | ⟨_, hsources, he | ⟨n, hcount, he⟩⟩⟩)
    · obtain ⟨a, b, both, hfirst, hascending, hboth, rfl⟩ :=
        (PowerState.Roles.check_eq_error_iff h).mp he
      exact .roles hfirst hascending hboth
    · obtain ⟨f, hfirst, rfl⟩ := checkSources_eq_error_iff.mp he
      exact .sources hroles hfirst
    · have hsources := checkSources_eq_ok_iff_sourced.mp hsources
      rcases instanceCount_eq_error_iff.mp he with
        ⟨hjobs, hchanges, hlength, rfl⟩ | ⟨hpaired, first, other, hfirst, hother, rfl⟩
      · exact .changes hroles hsources hjobs hchanges hlength
      · exact .counts hroles hsources hpaired hfirst hother
    · have hsources := checkSources_eq_ok_iff_sourced.mp hsources
      obtain ⟨hpaired, hcounts, -⟩ := instanceCount_eq_ok_iff.mp hcount
      split at he
      · cases he
      · next hrequested =>
        split at he
        · next hnames =>
          cases he
          exact .names hroles hsources hpaired hcounts
            (fun hnil => hrequested (by simpa using requested_eq_nil_iff.mpr hnil)) hnames
        · cases he
  · intro hrefusal
    cases hrefusal with
    | roles hfirst hascending hboth =>
      exact .inl ((PowerState.Roles.check_eq_error_iff h).mpr
        ⟨_, _, _, hfirst, hascending, hboth, rfl⟩)
    | sources hroles hfirst =>
      exact .inr ⟨_, ⟨rfl, hroles⟩, .inl (checkSources_eq_error_iff.mpr ⟨_, hfirst, rfl⟩)⟩
    | changes hroles hsources hjobs hchanges hlength =>
      refine .inr ⟨_, ⟨rfl, hroles⟩, .inr
        ⟨(), checkSources_eq_ok_iff_sourced.mpr hsources, .inl ?_⟩⟩
      exact instanceCount_eq_error_iff.mpr (.inl ⟨hjobs, hchanges, hlength, rfl⟩)
    | counts hroles hsources hpaired hfirst hother =>
      refine .inr ⟨_, ⟨rfl, hroles⟩, .inr
        ⟨(), checkSources_eq_ok_iff_sourced.mpr hsources, .inl ?_⟩⟩
      exact instanceCount_eq_error_iff.mpr (.inr ⟨hpaired, _, _, hfirst, hother, rfl⟩)
    | names hroles hsources hpaired hcounts hrequested hnames =>
      have hcount := (instanceCount_eq_ok_iff_counted hsources hrequested).mpr ⟨hpaired, hcounts⟩
      have hempty : c.requested.isEmpty = false := by
        simpa using fun hnil => hrequested (requested_eq_nil_iff.mp hnil)
      refine .inr ⟨_, ⟨rfl, hroles⟩, .inr
        ⟨(), checkSources_eq_ok_iff_sourced.mpr hsources, .inr ⟨_, hcount, ?_⟩⟩⟩
      simp [hempty, hnames]

/-- A plan draws just when every check passes, draws nothing when only the names are left to be
checked and nothing is asked for, and otherwise is the refusal of the first check that fails. -/
theorem plan_follows_first_failed_check (h : c.roles.Ascending) :
    ((∃ l, c.plan = .ok (.draw l)) ↔
      c.roles.Apart ∧ c.features ≠ [] ∧ c.Sourced ∧ c.Paired ∧ c.Counted c.names.length) ∧
    (c.plan = .ok .nothing ↔
      c.roles.Apart ∧ c.Sourced ∧ c.Paired ∧ (∃ n, c.Counted n) ∧ c.features = []) ∧
    ∀ e, c.plan = .error e ↔ c.Refusal e :=
  ⟨exists_plan_eq_draw_iff, plan_eq_nothing_iff, fun _ => plan_eq_error_iff h⟩

end Config

/-- The options of a command line give each role its states in ascending order. -/
theorem Command.ascending_of_parse {args : List String} {c : Config} {window : List Float}
    {output : Option String} (h : parse args = .ok (.plot c window output)) :
    c.roles.Ascending := by
  have hplot (uses : Uses) (hrequest : plotRequest uses = .plot c window output) :
      c.roles.Ascending := by
    cases hrequest
    intro role
    cases role <;> exact (PowerState.Roles.stateSet_pairwise _).1
  cases args with
  | nil => cases h
  | cons arg rest =>
    simp only [parse] at h
    split at h
    · obtain ⟨uses, -, hrequest⟩ := map_eq_ok_iff.mp h
      exact hplot uses hrequest
    · split at h
      · obtain ⟨uses, -, hrequest⟩ := map_eq_ok_iff.mp h
        cases hrequest
      · split at h
        · obtain ⟨uses, -, hrequest⟩ := map_eq_ok_iff.mp h
          cases hrequest
        · split at h
          · cases h
          · split at h
            · split at h <;> cases h
            all_goals cases h

/-- Its roles share a state, its feature has no file, its logs of changes do not match its jobs and
it has one name for two instances. -/
def crossedConfig : Config where
  features := [.power]
  sources := { jobs := ["a.csv", "b.csv"], changes := ["c.csv"] }
  names := ["Unnamed"]
  roles := { off := PowerState.stateSet [2, 1], switchOn := PowerState.stateSet [3, 2] }

theorem crossedConfig_refused_for_roles :
    crossedConfig.roles.Ascending ∧
      crossedConfig.plan = .error (.powerStates "off" "switchon" [2]) := by
  have hascending : crossedConfig.roles.Ascending := by
    intro role
    cases role with
    | off => exact (PowerState.Roles.stateSet_pairwise [2, 1]).1
    | switchingOn => exact (PowerState.Roles.stateSet_pairwise [3, 2]).1
    | switchingOff => exact List.Pairwise.nil
  have hfirst : IsFirst (fun p => crossedConfig.roles.Meet p.1 p.2) PowerState.Roles.pairs
      (.off, .switchingOn) :=
    ⟨[], _, rfl, ⟨2, by decide, by decide⟩, by simp⟩
  have hboth (s : Int) : s ∈ [2] ↔ s ∈ crossedConfig.roles.states .off ∧
      s ∈ crossedConfig.roles.states .switchingOn := by
    have hoff : crossedConfig.roles.states .off = [1, 2] := by decide
    have hon : crossedConfig.roles.states .switchingOn = [2, 3] := by decide
    rw [hoff, hon]
    simp only [List.mem_cons, List.not_mem_nil, or_false]
    omega
  exact ⟨hascending, ((Config.plan_follows_first_failed_check hascending).2.2 _).mpr
    (.roles hfirst (List.pairwise_singleton _ _) hboth)⟩

end TracePlot
