import TracePlot.Proofs.Figure.RoleTiles
import TracePlot.Proofs.Number.Arithmetic
import TracePlot.Proofs.Resource.Canonical

/-! The tiles of jobs in a Gantt chart. While a job is on a machine at a time that the window shows
there is one tile of it, and elsewhere none. -/

namespace TracePlot

/-- The job has the machine, and the time is before its end and not before its start. -/
structure Job.Occupies (j : Job) (k : Nat) (t : Float) : Prop where
  machine : k ∈ j.resources.ids
  runs : ∃ start ∈ j.starting, ∃ finish ∈ j.finish, start ≤ t ∧ t < finish

theorem Job.span?_eq_some_iff {j : Job} {s : Float × Float} :
    j.span? = some s ↔
      j.starting = some s.1 ∧ j.finish = some s.2 ∧ s.1 ≤ s.2 ∧ j.resources.ranges ≠ [] := by
  obtain ⟨start, finish⟩ := s
  unfold span? isRejected Resource.IdSet.isEmpty
  cases j.starting with
  | none => simp
  | some a =>
    cases j.finish with
    | none => simp
    | some b =>
      simp only [Option.ite_none_right_eq_some, Option.some_inj, Prod.mk.injEq, Bool.and_eq_true,
        decide_eq_true_eq, Bool.not_eq_true', List.isEmpty_eq_false_iff]
      constructor
      · rintro ⟨⟨hle, hne⟩, rfl, rfl⟩
        exact ⟨rfl, rfl, hle, hne⟩
      · rintro ⟨rfl, rfl, hle, hne⟩
        exact ⟨⟨hle, hne⟩, rfl, rfl⟩

theorem Resource.IdRange.Proper.small {r : IdRange} (hr : r.Proper) :
    r.first < 2 ^ 53 ∧ r.last + 1 < 2 ^ 53 := by
  obtain ⟨hordered, hfits⟩ := hr
  unfold maxId at hfits
  omega

namespace Gantt

open Resource

variable {roles : PowerState.Roles} {window : Window} {jobs : List Job} {j : Job} {i k : Nat}
  {t : Float}

def countJob (tiles : List Tile) (i k : Nat) (t : Float) : Nat :=
  tiles.countP fun x => decide (x.tint = .job i ∧ x.Covers t (Float.ofNat k))

/-- What the window shows of the time that a job runs. -/
def shownSpan? (window : Window) (j : Job) : Option (Float × Float) :=
  j.span?.bind fun s => window.clip? s.1 s.2

/-- The tile of a job on a range of machines. -/
def rangeTile (i : Nat) (span : Float × Float) (r : IdRange) : Tile :=
  { x := span, y := (Float.ofNat r.first, Float.ofNat r.last + 1.0), tint := .job i }

theorem jobTiles_eq (window : Window) (i : Nat) (j : Job) :
    jobTiles window i j =
      (shownSpan? window j).toList.flatMap fun span => j.resources.ranges.map (rangeTile i span) := by
  rw [jobTiles, shownSpan?]
  cases j.span? with
  | none => rfl
  | some s =>
    rw [Option.bind_some]
    cases hclip : window.clip? s.1 s.2 <;> simp [hclip, rangeTile]

theorem mem_jobTiles_iff {x : Tile} :
    x ∈ jobTiles window i j ↔
      ∃ span ∈ shownSpan? window j, ∃ r ∈ j.resources.ranges, rangeTile i span r = x := by
  simp [jobTiles_eq]

theorem rangeTile_covers_iff {r : IdRange} (hr : r.Proper) (span : Float × Float) :
    (rangeTile i span r).Covers t (Float.ofNat k) ↔
      (span.1 ≤ t ∧ t < span.2) ∧ r.first ≤ k ∧ k ≤ r.last := by
  rw [Tile.Covers, rangeTile, Number.ofNat_between_iff hr.ordered hr.small.2]

theorem countJob_ranges (hgapped : Gapped j.resources.ranges) (span : Float × Float) :
    countJob (j.resources.ranges.map (rangeTile i span)) i k t =
      if (span.1 ≤ t ∧ t < span.2) ∧ k ∈ j.resources.ids then 1 else 0 := by
  have hcovers : ∀ r ∈ j.resources.ranges,
      (decide ((rangeTile i span r).tint = .job i ∧
        (rangeTile i span r).Covers t (Float.ofNat k)) = true ↔
      (decide (span.1 ≤ t ∧ t < span.2) && decide (r.first ≤ k ∧ k ≤ r.last)) = true) := by
    intro r hr
    rw [Bool.and_eq_true, decide_eq_true_eq, decide_eq_true_eq, decide_eq_true_eq,
      rangeTile_covers_iff (hgapped.proper r hr)]
    exact and_iff_right rfl
  rw [countJob, List.countP_map, Function.comp_def, List.countP_congr hcovers]
  by_cases ht : span.1 ≤ t ∧ t < span.2
  · simp only [ht, and_self, decide_true, Bool.true_and, true_and, hgapped.countP_holding,
      IdSet.mem_ids]
  · simp [ht]

theorem shownSpan?_covers_iff (hwindow : window.Proper) (hk : k ∈ j.resources.ids) :
    (∃ span ∈ shownSpan? window j, span.1 ≤ t ∧ t < span.2) ↔
      j.Occupies k t ∧ window.Shows t := by
  constructor
  · rintro ⟨span, hspan, ht⟩
    obtain ⟨s, hs, hclip⟩ := Option.bind_eq_some_iff.mp hspan
    obtain ⟨hstart, hfinish, hle, -⟩ := Job.span?_eq_some_iff.mp hs
    obtain ⟨hstartnan, hfinishnan, -⟩ := Number.le_iff.mp hle
    obtain ⟨hruns, hshows⟩ :=
      (Window.clip?_covers_iff hwindow hstartnan hfinishnan).mp ⟨span, hclip, ht⟩
    exact ⟨⟨hk, s.1, hstart, s.2, hfinish, hruns⟩, hshows⟩
  · rintro ⟨⟨-, start, hstart, finish, hfinish, hruns⟩, hshows⟩
    have hlt := Number.lt_of_le_of_lt hruns.1 hruns.2
    obtain ⟨hstartnan, hfinishnan, -⟩ := Number.lt_iff.mp hlt
    have hne : j.resources.ranges ≠ [] := by
      obtain ⟨r, hr, -⟩ := IdSet.mem_ids.mp hk
      exact List.ne_nil_of_mem hr
    have hs : j.span? = some (start, finish) :=
      Job.span?_eq_some_iff.mpr ⟨hstart, hfinish, Number.le_of_lt hlt, hne⟩
    obtain ⟨span, hclip, ht⟩ :=
      (Window.clip?_covers_iff hwindow hstartnan hfinishnan).mpr ⟨hruns, hshows⟩
    exact ⟨span, Option.bind_eq_some_iff.mpr ⟨_, hs, hclip⟩, ht⟩

theorem countJob_jobTiles (hwindow : window.Proper) (hgapped : Gapped j.resources.ranges) :
    (j.Occupies k t ∧ window.Shows t → countJob (jobTiles window i j) i k t = 1) ∧
    (¬ (j.Occupies k t ∧ window.Shows t) → countJob (jobTiles window i j) i k t = 0) := by
  rw [jobTiles_eq]
  by_cases hk : k ∈ j.resources.ids
  · rw [← shownSpan?_covers_iff hwindow hk]
    cases hspan : shownSpan? window j with
    | none => simp [countJob]
    | some span =>
      simp [countJob_ranges hgapped, hk]
  · constructor
    · rintro ⟨hoccupies, -⟩
      exact absurd hoccupies.machine hk
    · intro _
      cases shownSpan? window j with
      | none => rfl
      | some span => simp [countJob_ranges hgapped, hk]

theorem countJob_eq_zero {tiles : List Tile} (h : ∀ x ∈ tiles, x.tint ≠ .job i) :
    countJob tiles i k t = 0 := by
  rw [countJob, List.countP_eq_zero]
  intro x hx hcovers
  exact h x hx (of_decide_eq_true hcovers).1

theorem tint_of_mem_zipIdx {n : Nat} {x : Tile}
    (h : x ∈ (jobs.zipIdx n).flatMap fun (j, m) => jobTiles window m j) :
    ∃ m, n ≤ m ∧ x.tint = .job m := by
  obtain ⟨⟨j, m⟩, hmem, hx⟩ := List.mem_flatMap.mp h
  exact ⟨m, (List.mem_zipIdx hmem).1, tint_of_mem_jobTiles hx⟩

theorem countJob_zipIdx (window : Window) (jobs : List Job) (n i k : Nat) (t : Float) :
    countJob ((jobs.zipIdx n).flatMap fun (j, m) => jobTiles window m j) (n + i) k t =
      (jobs[i]?.map fun j => countJob (jobTiles window (n + i) j) (n + i) k t).getD 0 := by
  induction jobs generalizing n i with
  | nil => rfl
  | cons j rest ih =>
    rw [List.zipIdx_cons, List.flatMap_cons, countJob, List.countP_append, ← countJob, ← countJob]
    -- Either the first job is the one that counts and the rest has no tile of it, or conversely.
    cases i with
    | zero =>
      have hrest : countJob ((rest.zipIdx (n + 1)).flatMap fun (j, m) => jobTiles window m j)
          n k t = 0 := by
        apply countJob_eq_zero
        intro x hx
        obtain ⟨m, hm, htint⟩ := tint_of_mem_zipIdx hx
        simp [htint, show m ≠ n by omega]
      simp [hrest]
    | succ i =>
      have hfirst : countJob (jobTiles window n j) (n + (i + 1)) k t = 0 := by
        apply countJob_eq_zero
        intro x hx
        simp [tint_of_mem_jobTiles hx]
      have hnext := ih (n + 1) i
      rw [show n + 1 + i = n + (i + 1) by omega] at hnext
      rw [hfirst, hnext]
      simp

theorem jobTiles_ascend (hgapped : Gapped j.resources.ranges) :
    (jobTiles window i j).Pairwise fun a b => a.y.2 < b.y.1 := by
  rw [jobTiles_eq]
  cases shownSpan? window j with
  | none => simp
  | some span =>
    rw [Option.toList_some, List.flatMap_singleton, List.pairwise_map]
    refine hgapped.gaps.imp_of_mem ?_
    intro a b ha hb hgap
    obtain ⟨-, hlast⟩ := (hgapped.proper a ha).small
    obtain ⟨hfirst, -⟩ := (hgapped.proper b hb).small
    exact (Number.ofNat_add_one_lt_ofNat hlast hfirst).mpr hgap

theorem allJobTiles_ordered (hgapped : ∀ j ∈ jobs, Gapped j.resources.ranges) :
    (allJobTiles window jobs).Pairwise fun a b =>
      ∀ m n, a.tint = .job m → b.tint = .job n → m ≤ n ∧ (m = n → a.y.2 < b.y.1) := by
  rw [allJobTiles, List.pairwise_flatMap]
  constructor
  · rintro ⟨j, i⟩ hmem
    refine (jobTiles_ascend (hgapped j (List.fst_mem_of_mem_zipIdx hmem))).imp_of_mem ?_
    intro a b ha hb hlt m n hm hn
    rw [tint_of_mem_jobTiles ha, Tint.job.injEq] at hm
    rw [tint_of_mem_jobTiles hb, Tint.job.injEq] at hn
    exact ⟨by omega, fun _ => hlt⟩
  · have hindices : jobs.zipIdx.Pairwise fun p q => p.2 < q.2 := by
      rw [← List.pairwise_map (f := Prod.snd), List.zipIdx_map_snd]
      exact List.pairwise_lt_range'
    refine hindices.imp ?_
    intro p q hpq a ha b hb m n hm hn
    rw [tint_of_mem_jobTiles ha, Tint.job.injEq] at hm
    rw [tint_of_mem_jobTiles hb, Tint.job.injEq] at hn
    omega

theorem jobTile_has_length {x : Tile} (h : x ∈ jobTiles window i j) : x.x.1 < x.x.2 := by
  obtain ⟨span, hspan, r, -, rfl⟩ := mem_jobTiles_iff.mp h
  obtain ⟨s, -, hclip⟩ := Option.bind_eq_some_iff.mp hspan
  obtain ⟨hlt, rfl⟩ := Window.clip?_eq_some_iff.mp hclip
  exact hlt

/-- The tiles of jobs are the last ones, whether or not there are power states below them. -/
theorem panel_tiles_eq (roles : PowerState.Roles) (window : Window) (data : RunData) :
    ∃ below, (panel roles window data).tiles = below ++ allJobTiles window (data.jobs.getD []) ∧
      ∀ x ∈ below, ∃ role, x.tint = .role role := by
  cases hchanges : data.changes with
  | none =>
    refine ⟨[], ?_, by simp⟩
    unfold panel
    rw [hchanges]
    rfl
  | some changes =>
    refine ⟨_, panel_tiles hchanges, ?_⟩
    intro x hx
    obtain ⟨s, -, hs⟩ := List.mem_filterMap.mp hx
    exact tint_of_roleTile? hs

/-- The job is on the machine at a time that the window shows. -/
structure OnMachine (window : Window) (jobs : List Job) (i k : Nat) (t : Float) : Prop where
  job : ∃ j, jobs[i]? = some j ∧ j.Occupies k t
  shown : window.Shows t

theorem countJob_allJobTiles (hwindow : window.Proper)
    (hgapped : ∀ j ∈ jobs, Gapped j.resources.ranges) (i k : Nat) (t : Float) :
    (OnMachine window jobs i k t → countJob (allJobTiles window jobs) i k t = 1) ∧
    (¬ OnMachine window jobs i k t → countJob (allJobTiles window jobs) i k t = 0) := by
  have hcount := countJob_zipIdx window jobs 0 i k t
  rw [Nat.zero_add] at hcount
  rw [allJobTiles, hcount]
  cases hj : jobs[i]? with
  | none =>
    constructor
    · rintro ⟨⟨j, hsome, -⟩, -⟩
      simp [hj] at hsome
    · exact fun _ => rfl
  | some j =>
    obtain ⟨hone, hzero⟩ := countJob_jobTiles (i := i) (k := k) (t := t) hwindow
      (hgapped j (List.mem_of_getElem? hj))
    constructor
    · rintro ⟨⟨j', hsome, hoccupies⟩, hshows⟩
      obtain rfl : j = j' := by rwa [hj, Option.some_inj] at hsome
      exact hone ⟨hoccupies, hshows⟩
    · intro hnot
      exact hzero fun h => hnot ⟨⟨j, hj, h.1⟩, h.2⟩

/-- While a job is on a machine it has one tile there, and elsewhere none. The tiles come in the
order of the jobs, each has a length, and those of one job lie apart. -/
theorem job_tiles_follow_jobs (roles : PowerState.Roles) (data : RunData)
    (hwindow : window.Proper)
    (hread : ∀ j ∈ data.jobs.getD [], ∃ text, IdSet.parse text = .ok j.resources) :
    (∀ i k t,
      (OnMachine window (data.jobs.getD []) i k t →
        countJob (panel roles window data).tiles i k t = 1) ∧
      (¬ OnMachine window (data.jobs.getD []) i k t →
        countJob (panel roles window data).tiles i k t = 0)) ∧
    ((panel roles window data).tiles.Pairwise fun a b =>
      ∀ m n, a.tint = .job m → b.tint = .job n → m ≤ n ∧ (m = n → a.y.2 < b.y.1)) ∧
    ∀ x ∈ (panel roles window data).tiles, ∀ i, x.tint = .job i → x.x.1 < x.x.2 := by
  obtain ⟨below, htiles, hbelow⟩ := panel_tiles_eq roles window data
  have hgapped : ∀ j ∈ data.jobs.getD [], Gapped j.resources.ranges := by
    intro j hj
    obtain ⟨text, htext⟩ := hread j hj
    exact (parse_spec htext).1
  have hnone : ∀ x ∈ below, ∀ i, x.tint ≠ .job i := by
    intro x hx i
    obtain ⟨role, hrole⟩ := hbelow x hx
    simp [hrole]
  rw [htiles]
  refine ⟨fun i k t => ?_, ?_, fun x hx i hi => ?_⟩
  · have hcount : countJob (below ++ allJobTiles window (data.jobs.getD [])) i k t =
        countJob (allJobTiles window (data.jobs.getD [])) i k t := by
      have hzero := countJob_eq_zero (k := k) (t := t) fun x hx => hnone x hx i
      rw [countJob, List.countP_append, ← countJob, ← countJob, hzero, Nat.zero_add]
    rw [hcount]
    exact countJob_allJobTiles hwindow hgapped i k t
  · refine List.pairwise_append.mpr ⟨?_, allJobTiles_ordered hgapped, ?_⟩
    · refine List.pairwise_of_forall_mem_list ?_
      intro a ha b _ m n hm
      exact absurd hm (hnone a ha m)
    · intro a ha b _ m n hm
      exact absurd hm (hnone a ha m)
  · rcases List.mem_append.mp hx with hx | hx
    · exact absurd hi (hnone x hx i)
    · obtain ⟨⟨j, m⟩, -, hx⟩ := List.mem_flatMap.mp hx
      exact jobTile_has_length hx

def greatestIdJob : Job :=
  { starting := some 0.0
    finish := some 10.0
    resources := ⟨[⟨5, 7⟩, ⟨4294967294, 4294967295⟩]⟩ }

/-- A job that never started, and one that ran on the two greatest ids among others. -/
def greatestIdRun : RunData :=
  { name := "greatest", jobs := some [{}, greatestIdJob] }

theorem greatestIdRun_has_tile_at_greatest_id :
    (Window.Proper ⟨some 2.0, some 8.0⟩ ∧
      ∀ j ∈ greatestIdRun.jobs.getD [], ∃ text, IdSet.parse text = .ok j.resources) ∧
    countJob (panel {} ⟨some 2.0, some 8.0⟩ greatestIdRun).tiles 1 maxId 5.0 = 1 := by
  have hwindow : Window.Proper ⟨some 2.0, some 8.0⟩ :=
    ⟨fun lo hlo => by cases hlo; decide, fun hi hhi => by cases hhi; decide⟩
  have hread : ∀ j ∈ greatestIdRun.jobs.getD [], ∃ text, IdSet.parse text = .ok j.resources := by
    intro j hj
    simp only [greatestIdRun, Option.getD_some, List.mem_cons, List.not_mem_nil, or_false] at hj
    rcases hj with rfl | rfl
    · exact ⟨"", parse_text ⟨by simp, List.Pairwise.nil⟩⟩
    · exact ⟨_, parse_to_greatest_id⟩
  have hon : OnMachine ⟨some 2.0, some 8.0⟩ (greatestIdRun.jobs.getD []) 1 maxId 5.0 := by
    refine ⟨⟨_, rfl, by decide, 0.0, rfl, 10.0, rfl, by decide, by decide⟩, ?_⟩
    exact ⟨fun lo hlo => by cases hlo; decide, fun hi hhi => by cases hhi; decide⟩
  exact ⟨⟨hwindow, hread⟩, ((job_tiles_follow_jobs {} greatestIdRun hwindow hread).1 1 maxId
    5.0).1 hon⟩

end Gantt

end TracePlot
