import TracePlot.Plan.Layout
import TracePlot.Proofs.Records.Roles
import TracePlot.Proofs.Success

/-! Counting the instances of a configuration, and what a plan that draws says of it: the lists of
files that are not empty are as long as the list of names, and no requested feature lacks its
list. -/

namespace TracePlot

/-- The lists of files that instances are counted by, in the order in which they are counted. -/
def Source.counted : List Source :=
  [.jobs, .energy, .queue]

namespace Config

variable {c : Config} {l : Layout}

theorem mem_requested {f : Feature} : f ∈ c.requested ↔ f ∈ c.features := by
  have hall : f ∈ Feature.all := by cases f <;> decide
  simp [requested, hall]

theorem checkSources_eq_ok_iff :
    c.checkSources = .ok () ↔ ∀ f ∈ c.requested, c.sources.of f.source ≠ [] := by
  unfold checkSources
  split
  · next f hf =>
    have hempty := List.find?_some hf
    simp only [reduceCtorEq, false_iff]
    exact fun h => h f (List.mem_of_find?_eq_some hf) (List.isEmpty_iff.mp hempty)
  · next hnone =>
    simpa using hnone

/-- Each list of jobs has a log of changes, as soon as there are any of both. -/
def Paired (c : Config) : Prop :=
  c.sources.jobs ≠ [] → c.sources.changes ≠ [] →
    c.sources.changes.length = c.sources.jobs.length

/-- The lists that are not empty have this length. -/
def Counted (c : Config) (n : Nat) : Prop :=
  ∀ s, c.sources.of s ≠ [] → (c.sources.of s).length = n

theorem commonCount_eq_ok_iff {lists : List (String × Nat)} {n : Nat} :
    commonCount lists = .ok n ↔
      (∀ x ∈ lists, x.2 = 0 ∨ x.2 = n) ∧ ((∀ x ∈ lists, x.2 = 0) → n = 0) := by
  induction lists with
  | nil => simp [commonCount, eq_comm]
  | cons x rest ih =>
    obtain ⟨name, count⟩ := x
    rw [commonCount, List.forall_mem_cons, List.forall_mem_cons]
    by_cases hzero : count = 0
    · rw [if_pos hzero, ih]
      simp [hzero]
    · rw [if_neg hzero]
      constructor
      · intro h
        split at h
        · cases h
        · next hsame =>
          cases h
          have hsame := List.find?_eq_none.mp hsame
          refine ⟨⟨.inr rfl, fun x hx => ?_⟩, fun h => absurd h.1 hzero⟩
          have hx := hsame x hx
          by_cases hx0 : x.2 = 0
          · exact .inl hx0
          · exact .inr (by simpa [hx0] using hx)
      · rintro ⟨⟨hcount, hrest⟩, -⟩
        have hcount := hcount.resolve_left hzero
        subst hcount
        split
        · next other found hfind =>
          have hother := List.find?_some hfind
          rcases hrest _ (List.mem_of_find?_eq_some hfind) with h | h <;> simp_all
        · rfl

theorem commonCount_eq_error_iff {lists : List (String × Nat)} {e : Failure} :
    commonCount lists = .error e ↔
      ∃ first other, IsFirst (fun x => x.2 ≠ 0) lists first ∧
        IsFirst (fun x => x.2 ≠ 0 ∧ x.2 ≠ first.2) lists other ∧
        e = .instanceCount other.1 other.2 first.1 first.2 := by
  induction lists with
  | nil => simp [commonCount, not_isFirst_nil]
  | cons x rest ih =>
    obtain ⟨name, count⟩ := x
    rw [commonCount]
    by_cases hzero : count = 0
    · have hskip (q : String × Nat → Prop) (y : String × Nat) :
          IsFirst (fun x => x.2 ≠ 0 ∧ q x) ((name, count) :: rest) y ↔
            IsFirst (fun x => x.2 ≠ 0 ∧ q x) rest y :=
        isFirst_cons_of_neg fun h => h.1 hzero
      have hskip' (y : String × Nat) : IsFirst (fun x => x.2 ≠ 0) ((name, count) :: rest) y ↔
          IsFirst (fun x => x.2 ≠ 0) rest y :=
        isFirst_cons_of_neg fun h => h hzero
      rw [if_pos hzero, ih]
      simp only [hskip, hskip']
    · have hfirst (y : String × Nat) : IsFirst (fun x => x.2 ≠ 0) ((name, count) :: rest) y ↔
          y = (name, count) :=
        isFirst_cons_of_pos hzero
      have hother (y : String × Nat) :
          IsFirst (fun x => x.2 ≠ 0 ∧ x.2 ≠ count) ((name, count) :: rest) y ↔
            (rest.find? fun x => x.2 ≠ 0 && x.2 ≠ count) = some y := by
        rw [isFirst_cons_of_neg fun h => h.2 rfl, find?_eq_some_iff_isFirst]
        exact isFirst_congr fun y _ => by simp
      rw [if_neg hzero]
      constructor
      · intro he
        split at he
        · next other found hfind =>
          exact ⟨_, _, (hfirst _).mpr rfl, (hother _).mpr hfind, (Except.error.inj he).symm⟩
        · cases he
      · rintro ⟨first, other, hf, ho, rfl⟩
        obtain rfl := (hfirst first).mp hf
        rw [(hother other).mp ho]

theorem forall_mem_counted {P : String × Nat → Prop} :
    (∀ x ∈ Source.counted.map fun s => (s.flag, (c.sources.of s).length), P x) ↔
      ∀ s, P (s.flag, (c.sources.of s).length) := by
  constructor
  · intro h s
    exact h _ (List.mem_map_of_mem (by cases s <;> simp [Source.counted]))
  · intro h x hx
    obtain ⟨s, -, rfl⟩ := List.mem_map.mp hx
    exact h s

theorem instanceCount_eq (c : Config) :
    c.instanceCount =
      if c.sources.jobs ≠ [] ∧ c.sources.changes ≠ [] ∧
          c.sources.changes.length ≠ c.sources.jobs.length then
        .error
          (.instanceCount "pstatesCSV" c.sources.changes.length "jobsCSV" c.sources.jobs.length)
      else commonCount (Source.counted.map fun s => (s.flag, (c.sources.of s).length)) := by
  unfold instanceCount Source.counted
  simp [and_assoc]

theorem paired_iff : c.Paired ↔ ¬(c.sources.jobs ≠ [] ∧ c.sources.changes ≠ [] ∧
    c.sources.changes.length ≠ c.sources.jobs.length) := by
  unfold Paired
  tauto

theorem instanceCount_eq_ok_iff {n : Nat} :
    c.instanceCount = .ok n ↔
      c.Paired ∧ c.Counted n ∧ ((∀ s, c.sources.of s = []) → n = 0) := by
  rw [instanceCount_eq, paired_iff]
  by_cases hpaired : c.sources.jobs ≠ [] ∧ c.sources.changes ≠ [] ∧
      c.sources.changes.length ≠ c.sources.jobs.length
  · simp [hpaired]
  · have hcounted : (∀ s, c.sources.of s = [] ∨ (c.sources.of s).length = n) ↔ c.Counted n := by
      simp only [Counted, or_iff_not_imp_left, ne_eq]
    rw [if_neg hpaired, commonCount_eq_ok_iff, forall_mem_counted, forall_mem_counted]
    simp only [List.length_eq_zero_iff, hcounted]
    simp only [hpaired, not_false_eq_true, true_and]

theorem instanceCount_eq_error_iff {e : Failure} :
    c.instanceCount = .error e ↔
      (c.sources.jobs ≠ [] ∧ c.sources.changes ≠ [] ∧
        c.sources.changes.length ≠ c.sources.jobs.length ∧
        e = .instanceCount "pstatesCSV" c.sources.changes.length "jobsCSV"
          c.sources.jobs.length) ∨
      c.Paired ∧ ∃ first other, IsFirst (fun s => c.sources.of s ≠ []) Source.counted first ∧
        IsFirst
          (fun s => c.sources.of s ≠ [] ∧ (c.sources.of s).length ≠ (c.sources.of first).length)
          Source.counted other ∧
        e = .instanceCount other.flag (c.sources.of other).length first.flag
          (c.sources.of first).length := by
  rw [instanceCount_eq, paired_iff]
  by_cases hpaired : c.sources.jobs ≠ [] ∧ c.sources.changes ≠ [] ∧
      c.sources.changes.length ≠ c.sources.jobs.length
  · obtain ⟨hjobs, hchanges, hlength⟩ := hpaired
    rw [if_pos ⟨hjobs, hchanges, hlength⟩]
    constructor
    · intro he
      exact .inl ⟨hjobs, hchanges, hlength, (Except.error.inj he).symm⟩
    · rintro (⟨-, -, -, rfl⟩ | ⟨hpaired, -⟩)
      · rfl
      · exact absurd ⟨hjobs, hchanges, hlength⟩ hpaired
  · have hunpaired : ¬(c.sources.jobs ≠ [] ∧ c.sources.changes ≠ [] ∧
        c.sources.changes.length ≠ c.sources.jobs.length ∧
        e = .instanceCount "pstatesCSV" c.sources.changes.length "jobsCSV"
          c.sources.jobs.length) := fun h => hpaired ⟨h.1, h.2.1, h.2.2.1⟩
    rw [if_neg hpaired, commonCount_eq_error_iff, or_iff_right hunpaired, and_iff_right hpaired]
    constructor
    · rintro ⟨first, other, hfirst, hother, rfl⟩
      obtain ⟨s, rfl, hs⟩ := isFirst_map.mp hfirst
      obtain ⟨t, rfl, ht⟩ := isFirst_map.mp hother
      simp only [ne_eq, List.length_eq_zero_iff] at hs ht
      exact ⟨s, t, hs, ht, rfl⟩
    · rintro ⟨s, t, hfirst, hother, rfl⟩
      refine ⟨_, _, isFirst_map.mpr ⟨s, rfl, ?_⟩, isFirst_map.mpr ⟨t, rfl, ?_⟩, rfl⟩
      · simpa only [ne_eq, List.length_eq_zero_iff] using hfirst
      · simpa only [ne_eq, List.length_eq_zero_iff] using hother

/-- What stands behind a plan to draw. -/
structure Planned (c : Config) (l : Layout) : Prop where
  apart : c.roles.Apart
  sources : ∀ f ∈ c.requested, c.sources.of f.source ≠ []
  requested : c.requested ≠ []
  changes : c.sources.jobs ≠ [] → c.sources.changes ≠ [] →
    c.sources.changes.length = c.sources.jobs.length
  counts : ∀ s, c.sources.of s ≠ [] → (c.sources.of s).length = c.names.length
  layout : l =
    { panels := c.requested.flatMap (panelsOf c.names.length)
      instances := c.instances
      roles := c.roles
      margins := c.margins }

theorem planned_of_plan (h : c.plan = .ok (.draw l)) : c.Planned l := by
  unfold plan at h
  obtain ⟨roles, hroles, h⟩ := bind_eq_ok_iff.mp h
  obtain ⟨_, hsources, h⟩ := bind_eq_ok_iff.mp h
  obtain ⟨n, hcount, h⟩ := bind_eq_ok_iff.mp h
  obtain ⟨rfl, hapart⟩ := PowerState.Roles.check_eq_ok_iff.mp hroles
  obtain ⟨hchanges, hcounts, -⟩ := instanceCount_eq_ok_iff.mp hcount
  split at h
  · cases h
  · next hrequested =>
    split at h
    · cases h
    · next hnames =>
      rw [not_not] at hnames
      subst hnames
      cases h
      exact ⟨hapart, checkSources_eq_ok_iff.mp hsources, by simpa using hrequested, hchanges,
        hcounts, rfl⟩

theorem getElem?_instances (i : Nat) :
    c.instances[i]? = c.names[i]?.map fun name =>
      ⟨name, c.sources.jobs[i]?, c.sources.changes[i]?, c.sources.energy[i]?,
        c.sources.queue[i]?⟩ := by
  rw [instances, List.getElem?_map, List.getElem?_zipIdx]
  cases c.names[i]? <;> simp

theorem mem_sources_of_mem_instances {i : Instance} (hi : i ∈ c.instances) :
    (∀ path ∈ i.jobs, path ∈ c.sources.jobs) ∧ (∀ path ∈ i.changes, path ∈ c.sources.changes) ∧
      (∀ path ∈ i.energy, path ∈ c.sources.energy) ∧ ∀ path ∈ i.queue, path ∈ c.sources.queue := by
  obtain ⟨⟨name, k⟩, -, rfl⟩ := List.mem_map.mp hi
  exact ⟨fun _ => List.mem_of_getElem?, fun _ => List.mem_of_getElem?,
    fun _ => List.mem_of_getElem?, fun _ => List.mem_of_getElem?⟩

theorem Planned.exists_path (h : c.Planned l) {s : Source} (hs : c.sources.of s ≠ []) {i : Nat}
    (hi : i < c.names.length) : ∃ path, (c.sources.of s)[i]? = some path :=
  ⟨_, List.getElem?_eq_getElem (by rw [h.counts s hs]; exact hi)⟩

theorem Planned.instance_of_energy (h : c.Planned l) {path : String}
    (hpath : path ∈ c.sources.energy) :
    ∃ (k : Nat) (i : Instance), l.instances[k]? = some i ∧ i.energy = some path := by
  obtain ⟨k, hk, rfl⟩ := List.mem_iff_getElem.mp hpath
  have hname : k < c.names.length := by
    rw [← h.counts .energy (List.ne_nil_of_mem hpath)]
    exact hk
  have hget := c.getElem?_instances k
  rw [List.getElem?_eq_getElem hname] at hget
  rw [h.layout]
  exact ⟨k, _, hget, List.getElem?_eq_getElem hk⟩

theorem of_mem_panelsOf {f : Feature} {n : Nat} {spec : PanelSpec} (h : spec ∈ panelsOf n f) :
    spec.feature = f ∧ ((∃ i < n, spec = ⟨.gantt, some i⟩) ∨ f ≠ .gantt ∧ spec = ⟨f, none⟩) := by
  cases f with
  | gantt =>
    obtain ⟨i, hi, rfl⟩ := List.mem_map.mp h
    exact ⟨rfl, .inl ⟨i, List.mem_range.mp hi, rfl⟩⟩
  | _ => simp_all [panelsOf]

theorem Planned.of_mem_panels (h : c.Planned l) {spec : PanelSpec} (hspec : spec ∈ l.panels) :
    spec.feature ∈ c.requested ∧
      ((∃ i < c.names.length, spec = ⟨.gantt, some i⟩) ∨
        spec.feature ≠ .gantt ∧ spec = ⟨spec.feature, none⟩) := by
  rw [h.layout] at hspec
  obtain ⟨f, hf, hspec⟩ := List.mem_flatMap.mp hspec
  obtain ⟨rfl, hshown⟩ := of_mem_panelsOf hspec
  exact ⟨hf, hshown⟩

end Config

end TracePlot
