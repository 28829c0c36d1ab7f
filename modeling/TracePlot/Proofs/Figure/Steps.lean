import Mathlib.Analysis.Convex.Segment
import TracePlot.Figure.Series
import TracePlot.Proofs.Number.Exact

/-! Stepped paths. The points of a series are every second vertex of its path, and the corners
between them make all parts of the path level or upright. Between two neighbouring abscissas the path is
level, at the ordinate of the later point or of the earlier one. The two kinds of steps are each
other's images, by exchanging the axes and by reversing the path. -/

open TracePlot.Number

namespace TracePlot

section Vertices

theorem stepPre_cons_cons (p q : Point) (rest : List Point) :
    stepPre (p :: q :: rest) = p :: (p.1, q.2) :: stepPre (q :: rest) :=
  rfl

theorem stepPost_cons_cons (p q : Point) (rest : List Point) :
    stepPost (p :: q :: rest) = p :: (q.1, p.2) :: stepPost (q :: rest) :=
  rfl

theorem stepPost_eq_swap (ps : List Point) :
    stepPost ps = (stepPre (ps.map Prod.swap)).map Prod.swap := by
  induction ps with
  | nil => rfl
  | cons p rest ih =>
    cases rest with
    | nil => rfl
    | cons q rest =>
      rw [stepPost_cons_cons, ih]
      rfl

theorem stepPre_concat (ps : List Point) (p q : Point) :
    stepPre (ps ++ [p, q]) = stepPre (ps ++ [p]) ++ [(p.1, q.2), q] := by
  induction ps with
  | nil => rfl
  | cons a rest ih =>
    cases rest with
    | nil => rfl
    | cons b rest =>
      simp only [List.cons_append, stepPre_cons_cons] at ih ⊢
      rw [ih]

theorem stepPost_eq_reverse (ps : List Point) : stepPost ps = (stepPre ps.reverse).reverse := by
  induction ps with
  | nil => rfl
  | cons p rest ih =>
    cases rest with
    | nil => rfl
    | cons q rest =>
      have hreverse : (p :: q :: rest).reverse = rest.reverse ++ [q, p] := by simp
      rw [stepPost_cons_cons, ih, hreverse, stepPre_concat]
      simp

theorem length_stepPre (ps : List Point) : (stepPre ps).length = 2 * ps.length - 1 := by
  induction ps with
  | nil => rfl
  | cons p rest ih =>
    cases rest with
    | nil => rfl
    | cons q rest =>
      rw [stepPre_cons_cons]
      simp only [List.length_cons] at ih ⊢
      omega

theorem length_stepPost (ps : List Point) : (stepPost ps).length = 2 * ps.length - 1 := by
  simp [stepPost_eq_swap, length_stepPre]

theorem getElem?_stepPre (ps : List Point) (i : Nat) : (stepPre ps)[2 * i]? = ps[i]? := by
  induction ps generalizing i with
  | nil => simp [stepPre]
  | cons p rest ih =>
    cases i with
    | zero => rfl
    | succ i =>
      cases rest with
      | nil => simp [stepPre, stepPreFrom, Nat.mul_succ]
      | cons q rest =>
        have hi := ih i
        rw [stepPre_cons_cons, Nat.mul_succ]
        simpa using hi

theorem getElem?_stepPost (ps : List Point) (i : Nat) : (stepPost ps)[2 * i]? = ps[i]? := by
  rw [stepPost_eq_swap, List.getElem?_map, getElem?_stepPre, List.getElem?_map]
  cases ps[i]? <;> simp

end Vertices

/-- The straight parts of a path. -/
def segments (path : List Point) : List (Point × Point) :=
  path.zip path.tail

theorem segments_cons_cons (a b : Point) (rest : List Point) :
    segments (a :: b :: rest) = (a, b) :: segments (b :: rest) :=
  rfl

theorem segments_map (f : Point → Point) (path : List Point) :
    segments (path.map f) = (segments path).map (Prod.map f f) := by
  rw [segments, segments, ← List.map_tail, List.zip_map]

theorem mem_of_mem_segments {path : List Point} {s : Point × Point} (h : s ∈ segments path) :
    s.1 ∈ path ∧ s.2 ∈ path :=
  ⟨(List.of_mem_zip h).1, List.mem_of_mem_tail (List.of_mem_zip h).2⟩

theorem segments_stepPre_cons_cons (p q : Point) (rest : List Point) :
    segments (stepPre (p :: q :: rest)) =
      (p, (p.1, q.2)) :: ((p.1, q.2), q) :: segments (stepPre (q :: rest)) :=
  rfl

theorem stepPre_right_angled {ps : List Point} {s : Point × Point}
    (hs : s ∈ segments (stepPre ps)) : s.1.1 = s.2.1 ∨ s.1.2 = s.2.2 := by
  induction ps with
  | nil => simp [stepPre, segments] at hs
  | cons p rest ih =>
    cases rest with
    | nil => simp [stepPre, stepPreFrom, segments] at hs
    | cons q rest =>
      rw [segments_stepPre_cons_cons, List.mem_cons, List.mem_cons] at hs
      rcases hs with rfl | rfl | hs
      · exact .inl rfl
      · exact .inr rfl
      · exact ih hs

theorem stepPost_right_angled {ps : List Point} {s : Point × Point}
    (hs : s ∈ segments (stepPost ps)) : s.1.1 = s.2.1 ∨ s.1.2 = s.2.2 := by
  rw [stepPost_eq_swap, segments_map] at hs
  obtain ⟨t, ht, rfl⟩ := List.mem_map.mp hs
  exact (stepPre_right_angled ht).symm

section Level

variable {above : Float → Float → Bool} {ps : List Point} {p q : Point}

/-- The parts that a predicate of the abscissas selects are level if it selects no upright one. -/
theorem filter_segments_stepPre (hupright : ∀ r ∈ ps, above r.1 r.1 = false) :
    (segments (stepPre ps)).filter (fun s => above s.1.1 s.2.1) =
      ((segments ps).filter fun s => above s.1.1 s.2.1).map fun s => ((s.1.1, s.2.2), s.2) := by
  induction ps with
  | nil => rfl
  | cons p rest ih =>
    cases rest with
    | nil => rfl
    | cons q rest =>
      have hp : above p.1 p.1 = false := hupright p List.mem_cons_self
      have hrest := ih fun r hr => hupright r (List.mem_cons_of_mem _ hr)
      rw [segments_stepPre_cons_cons, segments_cons_cons]
      by_cases hpq : above p.1 q.1 = true
      · simp [hp, hpq, hrest]
      · simp [hp, hpq, hrest]

theorem segments_stepPost_cons_cons (p q : Point) (rest : List Point) :
    segments (stepPost (p :: q :: rest)) =
      (p, (q.1, p.2)) :: ((q.1, p.2), q) :: segments (stepPost (q :: rest)) :=
  rfl

theorem filter_segments_stepPost (hupright : ∀ r ∈ ps, above r.1 r.1 = false) :
    (segments (stepPost ps)).filter (fun s => above s.1.1 s.2.1) =
      ((segments ps).filter fun s => above s.1.1 s.2.1).map fun s => (s.1, (s.2.1, s.1.2)) := by
  induction ps with
  | nil => rfl
  | cons p rest ih =>
    cases rest with
    | nil => rfl
    | cons q rest =>
      have hq : above q.1 q.1 = false := hupright q (by simp)
      have hrest := ih fun r hr => hupright r (List.mem_cons_of_mem _ hr)
      rw [segments_stepPost_cons_cons, segments_cons_cons]
      by_cases hpq : above p.1 q.1 = true
      · simp [hq, hpq, hrest]
      · simp [hq, hpq, hrest]

theorem lt_of_ascending (hps : ps.Pairwise fun p q => p.1 < q.1) {i j : Nat} (hij : i < j)
    (hp : ps[i]? = some p) (hq : ps[j]? = some q) : p.1 < q.1 := by
  obtain ⟨hi, rfl⟩ := List.getElem?_eq_some_iff.mp hp
  obtain ⟨hj, rfl⟩ := List.getElem?_eq_some_iff.mp hq
  exact List.pairwise_iff_getElem.mp hps i j hi hj hij

theorem le_of_ascending (hps : ps.Pairwise fun p q => p.1 < q.1) {i j : Nat} (hij : i ≤ j)
    (hp : ps[i]? = some p) (hq : ps[j]? = some q)
    (hnan : p.1.isNaN = false ∨ q.1.isNaN = false) : p.1 ≤ q.1 := by
  rcases hij.lt_or_eq with hlt | rfl
  · exact Number.le_of_lt (lt_of_ascending hps hlt hp hq)
  · obtain rfl : p = q := Option.some_inj.mp (hp.symm.trans hq)
    exact Number.le_refl (hnan.elim id id)

/-- In ascending points all are up to the one of two neighbours or from the other on. -/
theorem beside_of_ascending (hps : ps.Pairwise fun p q => p.1 < q.1) {i : Nat}
    (hp : ps[i]? = some p) (hq : ps[i + 1]? = some q) {r : Point} (hr : r ∈ ps) :
    r.1 ≤ p.1 ∨ q.1 ≤ r.1 := by
  obtain ⟨hnan, hnan', -⟩ := lt_iff.mp (lt_of_ascending hps i.lt_succ_self hp hq)
  obtain ⟨j, hj⟩ := List.mem_iff_getElem?.mp hr
  by_cases hji : j ≤ i
  · exact .inl (le_of_ascending hps hji hj hp (.inr hnan))
  · exact .inr (le_of_ascending hps (by omega) hq hj (.inl hnan'))

/-- A predicate of the abscissas that holds between two neighbours and does not hold on either side
of them selects the part between them. -/
theorem filter_segments_eq (hps : ps.Pairwise fun p q => p.1 < q.1) {i : Nat}
    (hp : ps[i]? = some p) (hq : ps[i + 1]? = some q) (habove : above p.1 q.1 = true)
    (hleft : ∀ r ∈ ps, ∀ r' ∈ ps, r.1 ≤ p.1 → r'.1 ≤ p.1 → above r.1 r'.1 = false)
    (hright : ∀ r ∈ ps, ∀ r' ∈ ps, q.1 ≤ r.1 → q.1 ≤ r'.1 → above r.1 r'.1 = false) :
    (segments ps).filter (fun s => above s.1.1 s.2.1) = [(p, q)] := by
  obtain ⟨hnan, hnan', -⟩ := lt_iff.mp (lt_of_ascending hps i.lt_succ_self hp hq)
  induction ps generalizing i with
  | nil => simp at hp
  | cons a rest ih =>
    cases rest with
    | nil => simp at hq
    | cons b rest =>
      rw [segments_cons_cons]
      cases i with
      | zero =>
        obtain rfl : a = p := by simpa using hp
        obtain rfl : b = q := by simpa using hq
        have hle (r : Point) (hr : r ∈ b :: rest) : b.1 ≤ r.1 := by
          obtain ⟨j, hj⟩ := List.mem_iff_getElem?.mp hr
          exact le_of_ascending hps.of_cons j.zero_le rfl hj (.inl hnan')
        have hout : (segments (b :: rest)).filter (fun s => above s.1.1 s.2.1) = [] := by
          rw [List.filter_eq_nil_iff]
          intro s hs
          obtain ⟨hs, hs'⟩ := mem_of_mem_segments hs
          simp [hright _ (List.mem_cons_of_mem _ hs) _ (List.mem_cons_of_mem _ hs') (hle _ hs)
            (hle _ hs')]
        simp [habove, hout]
      | succ i =>
        have hp' : (b :: rest)[i]? = some p := by simpa using hp
        have hq' : (b :: rest)[i + 1]? = some q := by simpa using hq
        have ha : a.1 ≤ p.1 := le_of_ascending hps (Nat.zero_le _) rfl hp (.inr hnan)
        have hb : b.1 ≤ p.1 := le_of_ascending hps.of_cons (Nat.zero_le _) rfl hp' (.inr hnan)
        have hab : above a.1 b.1 = false := hleft a (by simp) b (by simp) ha hb
        have hrest := ih hps.of_cons hp' hq'
          (fun r hr r' hr' => hleft r (List.mem_cons_of_mem _ hr) r' (List.mem_cons_of_mem _ hr'))
          (fun r hr r' hr' => hright r (List.mem_cons_of_mem _ hr) r' (List.mem_cons_of_mem _ hr'))
        simp [hab, hrest]

/-- Of a stepped path such a predicate selects the level part between the neighbours. -/
theorem level_between (hps : ps.Pairwise fun p q => p.1 < q.1) {i : Nat}
    (hp : ps[i]? = some p) (hq : ps[i + 1]? = some q) (habove : above p.1 q.1 = true)
    (hleft : ∀ r ∈ ps, ∀ r' ∈ ps, r.1 ≤ p.1 → r'.1 ≤ p.1 → above r.1 r'.1 = false)
    (hright : ∀ r ∈ ps, ∀ r' ∈ ps, q.1 ≤ r.1 → q.1 ≤ r'.1 → above r.1 r'.1 = false) :
    (segments (stepPre ps)).filter (fun s => above s.1.1 s.2.1) = [((p.1, q.2), (q.1, q.2))] ∧
      (segments (stepPost ps)).filter (fun s => above s.1.1 s.2.1) =
        [((p.1, p.2), (q.1, p.2))] := by
  have hupright : ∀ r ∈ ps, above r.1 r.1 = false := by
    intro r hr
    rcases beside_of_ascending hps hp hq hr with hle | hge
    · exact hleft r hr r hr hle hle
    · exact hright r hr r hr hge hge
  have honly := filter_segments_eq hps hp hq habove hleft hright
  rw [filter_segments_stepPre hupright, filter_segments_stepPost hupright, honly]
  exact ⟨rfl, rfl⟩

end Level

/-- Whether the abscissa `x` is between `a` and `b`, which may be in either order. -/
def spans (x a b : Float) : Bool :=
  (a ≤ x && x ≤ b) || (b ≤ x && x ≤ a)

/-- The place of a point in the plane. -/
noncomputable def Point.spot (p : Point) : ℝ × ℝ :=
  (value p.1, value p.2)

/-- The places on the straight parts of a path. -/
def drawn (path : List Point) : Set (ℝ × ℝ) :=
  { v | ∃ s ∈ segments path, v ∈ segment ℝ s.1.spot s.2.spot }

section Places

variable {ps : List Point} {p q : Point}

theorem level_at (hps : ps.Pairwise fun p q => p.1 < q.1) {i : Nat} (hp : ps[i]? = some p)
    (hq : ps[i + 1]? = some q) {x : Float} (hpx : p.1 < x) (hxq : x < q.1) :
    (segments (stepPre ps)).filter (fun s => spans x s.1.1 s.2.1) = [((p.1, q.2), (q.1, q.2))] ∧
      (segments (stepPost ps)).filter (fun s => spans x s.1.1 s.2.1) =
        [((p.1, p.2), (q.1, p.2))] := by
  have hbelow (r : Point) (hr : r.1 ≤ p.1) : ¬ x ≤ r.1 :=
    not_le_of_lt (Number.lt_of_le_of_lt hr hpx)
  have habove (r : Point) (hr : q.1 ≤ r.1) : ¬ r.1 ≤ x :=
    not_le_of_lt (Number.lt_of_lt_of_le hxq hr)
  refine level_between hps hp hq ?_ ?_ ?_
  · simp [spans, Number.le_of_lt hpx, Number.le_of_lt hxq]
  · intro r _ r' _ hr hr'
    simp [spans, hbelow r hr, hbelow r' hr']
  · intro r _ r' _ hr hr'
    simp [spans, habove r hr, habove r' hr']

theorem mem_uIcc_of_mem_segment {s : Point × Point} {x y : ℝ}
    (h : (x, y) ∈ segment ℝ s.1.spot s.2.spot) :
    x ∈ Set.uIcc (value s.1.1 : ℝ) (value s.2.1) := by
  have hx : x ∈ segment ℝ (value s.1.1 : ℝ) (value s.2.1) := (Prod.segment_subset _ _ h).1
  rwa [segment_eq_uIcc] at hx

theorem mem_level_iff {a b h : Float} {x y : ℝ} (hx : x ∈ Set.uIcc (value a : ℝ) (value b)) :
    (x, y) ∈ segment ℝ (Point.spot (a, h)) (Point.spot (b, h)) ↔ y = value h := by
  rw [← segment_eq_uIcc] at hx
  simp only [Point.spot, ← Prod.image_mk_segment_left]
  constructor
  · rintro ⟨x', -, hxy⟩
    exact (Prod.mk.inj hxy).2.symm
  · rintro rfl
    exact ⟨x, hx, rfl⟩

/-- A path with a single part above `x`, which is level, is drawn there at its ordinate only. -/
theorem mem_drawn_iff_of_filter {path : List Point} {a b h : Float} {x : ℝ}
    [DecidablePred fun s : Point × Point => x ∈ Set.uIcc (value s.1.1 : ℝ) (value s.2.1)]
    (hx : x ∈ Set.uIcc (value a : ℝ) (value b))
    (honly : (segments path).filter
      (fun s => decide (x ∈ Set.uIcc (value s.1.1 : ℝ) (value s.2.1))) = [((a, h), (b, h))])
    (y : ℝ) : (x, y) ∈ drawn path ↔ y = value h := by
  rw [← mem_level_iff hx]
  constructor
  · rintro ⟨s, hs, hxy⟩
    have hmem : s ∈ [((a, h), (b, h))] := by
      rw [← honly, List.mem_filter, decide_eq_true_eq]
      exact ⟨hs, mem_uIcc_of_mem_segment hxy⟩
    rwa [List.mem_singleton.mp hmem] at hxy
  · intro hxy
    have hmem := List.mem_singleton_self ((a, h), (b, h))
    rw [← honly, List.mem_filter] at hmem
    exact ⟨_, hmem.1, hxy⟩

theorem drawn_between (hps : ps.Pairwise fun p q => p.1 < q.1)
    (hfinite : ∀ r ∈ ps, r.1.isFinite = true) {i : Nat} (hp : ps[i]? = some p)
    (hq : ps[i + 1]? = some q) {x : ℝ} (hpx : value p.1 < x) (hxq : x < value q.1) (y : ℝ) :
    ((x, y) ∈ drawn (stepPre ps) ↔ y = value q.2) ∧
      ((x, y) ∈ drawn (stepPost ps) ↔ y = value p.2) := by
  classical
  have hvalue {r r' : Point} (hr : r ∈ ps) (hr' : r' ∈ ps) (hle : r.1 ≤ r'.1) :
      (value r.1 : ℝ) ≤ value r'.1 := by
    exact_mod_cast (le_iff_value (hfinite r hr) (hfinite r' hr')).mp hle
  have hmem := List.mem_of_getElem? hp
  have hmem' := List.mem_of_getElem? hq
  have hx : x ∈ Set.uIcc (value p.1 : ℝ) (value q.1) :=
    Set.mem_uIcc.mpr (.inl ⟨hpx.le, hxq.le⟩)
  have hleft (r : Point) (hr : r ∈ ps) (r' : Point) (hr' : r' ∈ ps) (hle : r.1 ≤ p.1)
      (hle' : r'.1 ≤ p.1) : decide (x ∈ Set.uIcc (value r.1 : ℝ) (value r'.1)) = false := by
    have hle := hvalue hr hmem hle
    have hle' := hvalue hr' hmem hle'
    rw [decide_eq_false_iff_not, Set.mem_uIcc]
    rintro (h | h) <;> linarith
  have hright (r : Point) (hr : r ∈ ps) (r' : Point) (hr' : r' ∈ ps) (hge : q.1 ≤ r.1)
      (hge' : q.1 ≤ r'.1) : decide (x ∈ Set.uIcc (value r.1 : ℝ) (value r'.1)) = false := by
    have hge := hvalue hmem' hr hge
    have hge' := hvalue hmem' hr' hge'
    rw [decide_eq_false_iff_not, Set.mem_uIcc]
    rintro (h | h) <;> linarith
  obtain ⟨hpre, hpost⟩ := @level_between
    (fun a b => decide (x ∈ Set.uIcc (value a : ℝ) (value b))) ps p q hps i hp hq
    (decide_eq_true hx) hleft hright
  exact ⟨mem_drawn_iff_of_filter hx hpre y, mem_drawn_iff_of_filter hx hpost y⟩

end Places

/-- Both kinds of stepped paths have the points as every second vertex and only level and upright
parts. Between the abscissas of two neighbours the one is level at the ordinate of the later point
and the other at that of the earlier, for numbers of the format and, where all points are finite,
for all places of the plane. -/
theorem steps_hold_values (ps : List Point) :
    ((stepPre ps).length = 2 * ps.length - 1 ∧ (stepPost ps).length = 2 * ps.length - 1) ∧
    (∀ i : Nat, (stepPre ps)[2 * i]? = ps[i]? ∧ (stepPost ps)[2 * i]? = ps[i]?) ∧
    (∀ s ∈ segments (stepPre ps) ++ segments (stepPost ps), s.1.1 = s.2.1 ∨ s.1.2 = s.2.2) ∧
    ((ps.Pairwise fun p q => p.1 < q.1) →
      ∀ (i : Nat) (p q : Point), ps[i]? = some p → ps[i + 1]? = some q →
        (∀ x : Float, p.1 < x → x < q.1 →
          (segments (stepPre ps)).filter (fun s => spans x s.1.1 s.2.1) =
            [((p.1, q.2), (q.1, q.2))] ∧
          (segments (stepPost ps)).filter (fun s => spans x s.1.1 s.2.1) =
            [((p.1, p.2), (q.1, p.2))]) ∧
        ((∀ r ∈ ps, r.1.isFinite = true ∧ r.2.isFinite = true) →
          ∀ x y : ℝ, value p.1 < x → x < value q.1 →
            ((x, y) ∈ drawn (stepPre ps) ↔ y = value q.2) ∧
            ((x, y) ∈ drawn (stepPost ps) ↔ y = value p.2))) ∧
    stepPost ps = (stepPre (ps.map Prod.swap)).map Prod.swap ∧
    stepPost ps = (stepPre ps.reverse).reverse := by
  refine ⟨⟨length_stepPre ps, length_stepPost ps⟩,
    fun i => ⟨getElem?_stepPre ps i, getElem?_stepPost ps i⟩, fun s hs => ?_,
    fun hps i p q hp hq => ⟨fun x hpx hxq => level_at hps hp hq hpx hxq,
      fun hfinite x y hpx hxq => ?_⟩,
    stepPost_eq_swap ps, stepPost_eq_reverse ps⟩
  · rcases List.mem_append.mp hs with hs | hs
    · exact stepPre_right_angled hs
    · exact stepPost_right_angled hs
  · exact drawn_between hps (fun r hr => (hfinite r hr).1) hp hq hpx hxq y

def risingPoints : List Point :=
  [(0.0, 1.0), (1.0, 2.0), (3.0, 5.0)]

theorem risingPoints_level_at_two :
    (risingPoints.Pairwise fun p q => p.1 < q.1) ∧
    (∀ r ∈ risingPoints, r.1.isFinite = true ∧ r.2.isFinite = true) ∧
    ((1.0 : Float) < 2.0 ∧ (2.0 : Float) < 3.0 ∧
      (segments (stepPre risingPoints)).filter (fun s => spans 2.0 s.1.1 s.2.1) =
        [((1.0, 5.0), (3.0, 5.0))] ∧
      (segments (stepPost risingPoints)).filter (fun s => spans 2.0 s.1.1 s.2.1) =
        [((1.0, 2.0), (3.0, 2.0))]) ∧
    ∀ y : ℝ, (((value 2.0 : ℝ), y) ∈ drawn (stepPre risingPoints) ↔ y = value 5.0) ∧
      (((value 2.0 : ℝ), y) ∈ drawn (stepPost risingPoints) ↔ y = value 2.0) := by
  have hps : risingPoints.Pairwise fun p q => p.1 < q.1 := by decide +kernel
  have hfinite : ∀ r ∈ risingPoints, r.1.isFinite = true ∧ r.2.isFinite = true := by
    decide +kernel
  have hlow : (1.0 : Float) < 2.0 := by decide +kernel
  have hhigh : (2.0 : Float) < 3.0 := by decide +kernel
  have hlow' : (value 1.0 : ℝ) < value 2.0 := by
    exact_mod_cast (lt_iff_value (by decide +kernel) (by decide +kernel)).mp hlow
  have hhigh' : (value 2.0 : ℝ) < value 3.0 := by
    exact_mod_cast (lt_iff_value (by decide +kernel) (by decide +kernel)).mp hhigh
  obtain ⟨-, -, -, hlevel, -⟩ := steps_hold_values risingPoints
  obtain ⟨hnumbers, hplaces⟩ := hlevel hps 1 (1.0, 2.0) (3.0, 5.0) rfl rfl
  exact ⟨hps, hfinite, ⟨hlow, hhigh, hnumbers 2.0 hlow hhigh⟩,
    fun y => hplaces hfinite (value 2.0) y hlow' hhigh'⟩

end TracePlot
