import TracePlot.Proofs.Figure.TimeAxis
import TracePlot.Proofs.Number.Widening

/-! Ranges that an axis can be drawn over. The time axis is always finite, and each range ascends
unless what it is widened by is lost or leaves the format. -/

open TracePlot.Number

namespace TracePlot

/-- Two finite ends in ascending order. -/
structure Drawable (range : Float × Float) : Prop where
  low : range.1.isFinite = true
  high : range.2.isFinite = true
  ascends : range.1 < range.2

def Window.Finite (w : Window) : Prop :=
  ∀ bound, w.min = some bound ∨ w.max = some bound → bound.isFinite = true

variable {x : Float} {xs : List Float} {b : Float × Float} {p : Panel} {w : Window} {f : Figure}

theorem drawable_unit : Drawable (0.0, 1.0) :=
  ⟨rfl, rfl, by decide⟩

theorem finiteBounds?_le (h : finiteBounds? xs = some b) : b.1 ≤ b.2 := by
  obtain ⟨⟨hmem, hfinite⟩, -, hbetween⟩ := finiteBounds?_spec h
  exact (hbetween b.1 hmem hfinite).2

namespace Panel

def HasPoints (p : Panel) : Prop :=
  ∃ s ∈ p.series, s.points ≠ []

theorem any_points_iff : (p.series.any fun s => !s.points.isEmpty) = true ↔ p.HasPoints := by
  simp [HasPoints]

def padded (b : Float × Float) : Float × Float :=
  (b.1 - (b.2 - b.1) * 0.05, b.2 + (b.2 - b.1) * 0.05)

/-- The values of the panel can be widened: one unit around equal values is not lost, and padding
does not leave the format. Tiles alone are not padded. -/
def HasRoom (p : Panel) : Prop :=
  ∀ b, finiteBounds? p.ys = some b →
    if b.1 == b.2 then b.1 - 1.0 < b.2 + 1.0
    else p.HasPoints → (padded b).1.isFinite = true ∧ (padded b).2.isFinite = true

theorem yRange_of_some (h : finiteBounds? p.ys = some b) :
    p.yRange = if b.1 == b.2 then (b.1 - 1.0, b.2 + 1.0)
      else if p.series.any fun s => !s.points.isEmpty then padded b else b := by
  unfold yRange
  rw [h]
  rfl

theorem drawable_padded_iff (hlo : b.1.isFinite = true) (hhi : b.2.isFinite = true)
    (hlt : b.1 < b.2) :
    Drawable (padded b) ↔ (padded b).1.isFinite = true ∧ (padded b).2.isFinite = true := by
  refine ⟨fun h => ⟨h.low, h.high⟩, fun ⟨hlow, hhigh⟩ => ⟨hlow, hhigh, ?_⟩⟩
  unfold padded at hhigh ⊢
  have hpad := isFinite_of_isFinite_add hhigh
  exact sub_lt_add_of_nonneg hlo hhi hlt hpad (twentieth_nonneg hlo hhi hlt hpad)

theorem drawable_yRange_iff : Drawable p.yRange ↔ p.HasRoom := by
  unfold HasRoom
  cases hbounds : finiteBounds? p.ys with
  | none =>
    have hrange : p.yRange = (0.0, 1.0) := by
      rw [yRange, hbounds]
    rw [hrange]
    exact iff_of_true drawable_unit (by simp)
  | some b =>
    obtain ⟨⟨-, hlo⟩, ⟨-, hhi⟩, -⟩ := finiteBounds?_spec hbounds
    simp only [Option.some_inj, forall_eq', yRange_of_some hbounds]
    by_cases heq : (b.1 == b.2) = true
    · rw [if_pos heq, if_pos heq]
      exact ⟨fun h => h.ascends, fun h => ⟨isFinite_sub_one hlo, isFinite_add_one hhi, h⟩⟩
    · have hlt := (lt_iff_not_beq (finiteBounds?_le hbounds)).mpr heq
      rw [if_neg heq, if_neg heq]
      by_cases hpoints : p.HasPoints
      · rw [if_pos (any_points_iff.mpr hpoints), drawable_padded_iff hlo hhi hlt]
        simp [hpoints]
      · rw [if_neg fun h => hpoints (any_points_iff.mp h)]
        exact iff_of_true ⟨hlo, hhi, hlt⟩ fun h => absurd h hpoints

/-- Values that are not all equal have room unless they are among the very largest. -/
theorem hasRoom_of_lt {y z : Float} (hy : y ∈ p.ys) (hz : z ∈ p.ys) (hyfinite : y.isFinite = true)
    (hzfinite : z.isFinite = true) (hlt : y < z) (hsmall : ∀ y ∈ p.ys, |value y| < 2 ^ 1022) :
    p.HasRoom := by
  intro b hb
  obtain ⟨⟨hlomem, hlo⟩, ⟨hhimem, hhi⟩, hbetween⟩ := finiteBounds?_spec hb
  have hlength : b.1 < b.2 :=
    Number.lt_of_lt_of_le (Number.lt_of_le_of_lt (hbetween y hy hyfinite).1 hlt)
      (hbetween z hz hzfinite).2
  rw [if_neg ((lt_iff_not_beq (finiteBounds?_le hb)).mp hlength)]
  exact fun _ => isFinite_padded hlo hhi hlength (hsmall _ hlomem) (hsmall _ hhimem)

theorem hasRoom_of_small (hsmall : ∀ y ∈ p.ys, |value y| < 2 ^ 53) : p.HasRoom := by
  intro b hb
  obtain ⟨⟨hlomem, hlo⟩, ⟨hhimem, hhi⟩, -⟩ := finiteBounds?_spec hb
  have hle := finiteBounds?_le hb
  split
  · exact sub_one_lt_add_one hlo hhi hle (hsmall _ hhimem)
  · next hne =>
    have hlarger (y : Float) (hy : |value y| < 2 ^ 53) : |value y| < 2 ^ 1022 :=
      hy.trans (pow_lt_pow_right₀ (by norm_num) (by norm_num))
    exact fun _ => isFinite_padded hlo hhi ((lt_iff_not_beq hle).mpr hne)
      (hlarger _ (hsmall _ hlomem)) (hlarger _ (hsmall _ hhimem))

end Panel

namespace Figure

/-- A coordinate of a point or a tile, or a bound of the window. -/
def Holds (f : Figure) (x : Float) : Prop :=
  (∃ p ∈ f.panels, x ∈ p.xs ∨ x ∈ p.ys) ∨ f.window.min = some x ∨ f.window.max = some x

/-- The ends of the time axis, before it is widened. -/
def ends (f : Figure) : Float × Float :=
  (f.window.min.getD ((finiteBounds? f.extents).getD (0.0, 1.0)).1,
    f.window.max.getD ((finiteBounds? f.extents).getD (0.0, 1.0)).2)

theorem xRange_eq_ends (f : Figure) :
    f.xRange = if f.ends.1 < f.ends.2 then f.ends else (f.ends.1, f.ends.1 + 1.0) :=
  rfl

theorem ends_finite (hwindow : f.window.Finite) :
    f.ends.1.isFinite = true ∧ f.ends.2.isFinite = true := by
  have hspan : ((finiteBounds? f.extents).getD (0.0, 1.0)).1.isFinite = true ∧
      ((finiteBounds? f.extents).getD (0.0, 1.0)).2.isFinite = true := by
    cases hb : finiteBounds? f.extents with
    | none => exact ⟨rfl, rfl⟩
    | some b =>
      obtain ⟨hlo, hhi, -⟩ := finiteBounds?_spec hb
      exact ⟨hlo.2, hhi.2⟩
  unfold ends
  constructor
  · cases hmin : f.window.min with
    | none => exact hspan.1
    | some lo => exact hwindow lo (.inl hmin)
  · cases hmax : f.window.max with
    | none => exact hspan.2
    | some hi => exact hwindow hi (.inr hmax)

theorem low_end_held : f.Holds f.ends.1 ∨ f.ends.1 = 0.0 := by
  unfold ends
  cases hmin : f.window.min with
  | some lo => exact .inl (.inr (.inl hmin))
  | none =>
    cases hb : finiteBounds? f.extents with
    | none => exact .inr rfl
    | some b =>
      obtain ⟨p, hp, hx⟩ := draws_of_mem_extents (finiteBounds?_spec hb).1.1
      exact .inl (.inl ⟨p, hp, .inl (Panel.mem_xs_iff.mpr hx)⟩)

theorem xRange_spec (hwindow : f.window.Finite) :
    f.xRange.1.isFinite = true ∧ f.xRange.2.isFinite = true ∧ f.xRange.1 ≤ f.xRange.2 := by
  obtain ⟨hlo, hhi⟩ := ends_finite hwindow
  rw [xRange_eq_ends]
  by_cases hlt : f.ends.1 < f.ends.2
  · rw [if_pos hlt]
    exact ⟨hlo, hhi, Number.le_of_lt hlt⟩
  · rw [if_neg hlt]
    exact ⟨hlo, isFinite_add_one hlo, le_add_one hlo⟩

theorem drawable_xRange_iff (hwindow : f.window.Finite) :
    Drawable f.xRange ↔ f.ends.1 < f.ends.2 ∨ f.ends.1 < f.ends.1 + 1.0 := by
  obtain ⟨hlo, hhi, -⟩ := xRange_spec hwindow
  have hascends : Drawable f.xRange ↔ f.xRange.1 < f.xRange.2 :=
    ⟨fun h => h.ascends, fun h => ⟨hlo, hhi, h⟩⟩
  rw [hascends, xRange_eq_ends]
  by_cases hlt : f.ends.1 < f.ends.2
  · simp [hlt]
  · simp [hlt]

theorem ends_ascend_of_small (hwindow : f.window.Finite)
    (hsmall : ∀ x, f.Holds x → |value x| < 2 ^ 53) : f.ends.1 < f.ends.1 + 1.0 := by
  refine lt_add_one (ends_finite hwindow).1 ?_
  rcases low_end_held with hheld | hzero
  · exact hsmall _ hheld
  · rw [hzero, zero_value.2]
    norm_num

end Figure

/-- With finite bounds the time axis of every figure is finite and does not descend, and it ascends
unless its ends do not and one unit is lost beside the first. The range of a panel is finite and
ascends exactly if its values can be widened. Values that are not all equal can be, unless they are
among the very largest, and so can all ranges where whole numbers are exact. -/
theorem ranges_drawable_iff_widened {f : Figure} (hwindow : f.window.Finite) :
    (f.xRange.1.isFinite = true ∧ f.xRange.2.isFinite = true ∧ f.xRange.1 ≤ f.xRange.2) ∧
    (Drawable f.xRange ↔ f.ends.1 < f.ends.2 ∨ f.ends.1 < f.ends.1 + 1.0) ∧
    (∀ p ∈ f.panels, Drawable p.yRange ↔ p.HasRoom) ∧
    (∀ p ∈ f.panels, (∀ y ∈ p.ys, |value y| < 2 ^ 1022) →
      ∀ y ∈ p.ys, ∀ z ∈ p.ys, y.isFinite = true → z.isFinite = true → y < z →
        Drawable p.yRange) ∧
    ((∀ x, f.Holds x → |value x| < 2 ^ 53) →
      Drawable f.xRange ∧ ∀ p ∈ f.panels, Drawable p.yRange) := by
  refine ⟨Figure.xRange_spec hwindow, Figure.drawable_xRange_iff hwindow,
    fun p _ => Panel.drawable_yRange_iff, fun p _ hsmall y hy z hz hyfinite hzfinite hlt => ?_,
    fun hsmall => ⟨?_, fun p hp => ?_⟩⟩
  · exact Panel.drawable_yRange_iff.mpr
      (Panel.hasRoom_of_lt hy hz hyfinite hzfinite hlt hsmall)
  · exact (Figure.drawable_xRange_iff hwindow).mpr
      (.inr (Figure.ends_ascend_of_small hwindow hsmall))
  · exact Panel.drawable_yRange_iff.mpr
      (Panel.hasRoom_of_small fun y hy => hsmall y (.inl ⟨p, hp, .inr hy⟩))

def lineFigure (points : List Point) (w : Window) : Figure :=
  { panels := [{ series := [{ style := .line, tint := .run 0, points }] }], window := w }

theorem forall_lineFigure_iff {points : List Point} {P : Float → Prop} :
    (∀ x, (lineFigure points w).Holds x → P x) ↔
      (∀ q ∈ points, P q.1 ∧ P q.2) ∧ (∀ lo ∈ w.min, P lo) ∧ ∀ hi ∈ w.max, P hi := by
  simp only [Figure.Holds, lineFigure, Panel.xs, Panel.ys, List.mem_cons, List.not_mem_nil,
    or_false, List.mem_append, List.mem_flatMap, List.mem_map, Prod.exists, exists_and_right,
    exists_eq_right, exists_eq_left, false_and, exists_const, Prod.forall, Option.mem_def]
  grind

def levelLine : Figure :=
  lineFigure [(0.0, 1.0), (1.0, 1.0)] { min := some 1.0, max := some 1.0 }

theorem levelLine_is_drawable :
    levelLine.window.Finite ∧ (∀ x, levelLine.Holds x → |value x| < 2 ^ 53) ∧
      Drawable levelLine.xRange ∧ ∀ p ∈ levelLine.panels, Drawable p.yRange := by
  have hwindow : levelLine.window.Finite := by
    rintro bound (h | h) <;> cases h <;> rfl
  have hsmall : ∀ x, levelLine.Holds x → |value x| < 2 ^ 53 :=
    forall_lineFigure_iff.mpr (by norm_num [zero_value.2, value_one.2])
  obtain ⟨-, -, -, -, hdrawable⟩ := ranges_drawable_iff_widened hwindow
  exact ⟨hwindow, hsmall, hdrawable hsmall⟩

def wideLine : Figure :=
  lineFigure [(0.0, -1e308), (1.0, 1e308)] {}

/-- The length of the range leaves the format on the way to ends that would not. -/
theorem wideLine_is_padded_to_infinity :
    (∀ x, wideLine.Holds x → x.isFinite = true) ∧
      (∃ p ∈ wideLine.panels, p.yRange.1.isFinite = false ∧ p.yRange.2.isFinite = false) ∧
        (-1.1e308 : Float).isFinite = true ∧ (1.1e308 : Float).isFinite = true := by
  have hpoints : ∀ q ∈ [((0.0, -1e308) : Point), (1.0, 1e308)],
      q.1.isFinite = true ∧ q.2.isFinite = true := by
    decide +kernel
  refine ⟨forall_lineFigure_iff.mpr ⟨hpoints, by simp, by simp⟩,
    ⟨_, List.mem_singleton.mpr rfl, ?_⟩, ?_⟩
  · decide +kernel
  · decide +kernel

-- The time axis needs the bound on the sizes: one unit is lost beside `2 ^ 53`.
example : ¬ Drawable (lineFigure [(9007199254740992.0, 0.0)] {}).xRange :=
  fun h => absurd h.ascends (by decide +kernel)

end TracePlot
