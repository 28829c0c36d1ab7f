import TracePlot.Proofs.Figure.Complete
import TracePlot.Proofs.Figure.Inside
import TracePlot.Proofs.Number.Arithmetic

/-! The time axis that the panels share has room for everything drawn at a finite time. Without a
window it goes from one thing drawn to another. -/

namespace TracePlot

variable {x : Float} {xs : List Float} {b : Float × Float} {p : Panel} {f : Figure}

theorem finiteBounds?_spec (h : finiteBounds? xs = some b) :
    (b.1 ∈ xs ∧ b.1.isFinite = true) ∧ (b.2 ∈ xs ∧ b.2.isFinite = true) ∧
      ∀ x ∈ xs, x.isFinite = true → b.1 ≤ x ∧ x ≤ b.2 := by
  obtain ⟨hlo, hhi⟩ := Number.mem_of_bounds? h
  have hbetween := Number.between_of_bounds? h fun x hx =>
    Number.isNaN_of_isFinite (List.mem_filter.mp hx).2
  exact ⟨List.mem_filter.mp hlo, List.mem_filter.mp hhi, fun x hx hfinite =>
    hbetween x (List.mem_filter.mpr ⟨hx, hfinite⟩)⟩

theorem exists_finiteBounds? (hx : x ∈ xs) (hfinite : x.isFinite = true) :
    ∃ b, finiteBounds? xs = some b := by
  have hne : xs.filter Float.isFinite ≠ [] :=
    List.ne_nil_of_mem (List.mem_filter.mpr ⟨hx, hfinite⟩)
  rw [ne_eq, ← Number.bounds?_eq_none_iff] at hne
  exact Option.ne_none_iff_exists'.mp hne

namespace Figure

def extents (f : Figure) : List Float :=
  (f.panels.filterMap Panel.xExtent?).flatMap fun b => [b.1, b.2]

def axisFrom (w : Window) (b : Float × Float) : Float × Float :=
  let lo := w.min.getD b.1
  let hi := w.max.getD b.2
  if lo < hi then (lo, hi) else (lo, lo + 1.0)

theorem xRange_eq (f : Figure) :
    f.xRange = axisFrom f.window ((finiteBounds? f.extents).getD (0.0, 1.0)) :=
  rfl

theorem mem_extents_iff : x ∈ f.extents ↔
    ∃ p ∈ f.panels, ∃ b, p.xExtent? = some b ∧ (x = b.1 ∨ x = b.2) := by
  simp only [extents, List.mem_flatMap, List.mem_filterMap, List.mem_cons, List.not_mem_nil,
    or_false]
  grind

theorem draws_of_mem_extents (hx : x ∈ f.extents) : f.Draws x := by
  obtain ⟨p, hp, b, hb, hx⟩ := mem_extents_iff.mp hx
  obtain ⟨hlo, hhi, -⟩ := finiteBounds?_spec hb
  rcases hx with rfl | rfl
  · exact ⟨p, hp, Panel.mem_xs_iff.mp hlo.1⟩
  · exact ⟨p, hp, Panel.mem_xs_iff.mp hhi.1⟩

theorem draws_iff_mem_xs : f.Draws x ↔ x ∈ f.panels.flatMap Panel.xs := by
  simp only [Draws, List.mem_flatMap, Panel.mem_xs_iff]

/-- What is drawn at finite times has a first and a last time, which both are drawn. -/
theorem exists_span (hx : f.Draws x) (hfinite : x.isFinite = true) :
    ∃ b, finiteBounds? f.extents = some b ∧ f.Draws b.1 ∧ f.Draws b.2 ∧
      ∀ y, f.Draws y → y.isFinite = true → b.1 ≤ y ∧ y ≤ b.2 := by
  have hpanel : ∀ y, f.Draws y → y.isFinite = true →
      ∃ a ∈ f.extents, ∃ z ∈ f.extents, a.isFinite = true ∧ z.isFinite = true ∧ a ≤ y ∧ y ≤ z := by
    rintro y ⟨p, hp, hy⟩ hyfinite
    have hmem := Panel.mem_xs_iff.mpr hy
    obtain ⟨b, hb⟩ := exists_finiteBounds? hmem hyfinite
    obtain ⟨hlo, hhi, hbetween⟩ := finiteBounds?_spec hb
    have hle := hbetween y hmem hyfinite
    exact ⟨b.1, mem_extents_iff.mpr ⟨p, hp, b, hb, .inl rfl⟩,
      b.2, mem_extents_iff.mpr ⟨p, hp, b, hb, .inr rfl⟩, hlo.2, hhi.2, hle.1, hle.2⟩
  obtain ⟨a, ha, -, -, hafinite, -⟩ := hpanel x hx hfinite
  obtain ⟨b, hb⟩ := exists_finiteBounds? ha hafinite
  obtain ⟨hlo, hhi, hbetween⟩ := finiteBounds?_spec hb
  refine ⟨b, hb, draws_of_mem_extents hlo.1, draws_of_mem_extents hhi.1, fun y hy hyfinite => ?_⟩
  obtain ⟨a, ha, z, hz, hafinite, hzfinite, hay, hyz⟩ := hpanel y hy hyfinite
  exact ⟨Number.le_trans (hbetween a ha hafinite).1 hay,
    Number.le_trans hyz (hbetween z hz hzfinite).2⟩

theorem between_axisFrom {w : Window} (hlo : w.min.getD b.1 ≤ x) (hhi : x ≤ w.max.getD b.2)
    (hfinite : x.isFinite = true) : (axisFrom w b).1 ≤ x ∧ x ≤ (axisFrom w b).2 := by
  unfold axisFrom
  dsimp only
  by_cases hlt : w.min.getD b.1 < w.max.getD b.2
  · rw [if_pos hlt]
    exact ⟨hlo, hhi⟩
  · -- The ends coincide, and `x` is at both of them.
    rw [if_neg hlt]
    have hnan := (Number.le_iff.mp hlo).1
    have hback : w.max.getD b.2 ≤ w.min.getD b.1 := by
      by_contra hle
      exact hlt ((Number.not_le (Number.isNaN_right_of_le hhi) hnan).mp hle)
    have hend : x ≤ w.min.getD b.1 := Number.le_trans hhi hback
    have hlofinite := Number.isFinite_of_between hfinite hfinite hend hlo
    exact ⟨hlo, Number.le_trans hend (Number.le_add_one hlofinite)⟩

theorem between_xRange (hx : f.Draws x) (hfinite : x.isFinite = true)
    (hcontains : f.window.contains x = true) : f.xRange.1 ≤ x ∧ x ≤ f.xRange.2 := by
  obtain ⟨b, hb, -, -, hbetween⟩ := exists_span hx hfinite
  obtain ⟨hlo, hhi⟩ := hbetween x hx hfinite
  obtain ⟨hmin, hmax⟩ := Window.contains_iff.mp hcontains
  rw [xRange_eq, hb, Option.getD_some]
  refine between_axisFrom ?_ ?_ hfinite
  · cases h : f.window.min with
    | none => exact hlo
    | some lo => exact hmin lo h
  · cases h : f.window.max with
    | none => exact hhi
    | some hi => exact hmax hi h

theorem draws_ends {y : Float} (hmin : f.window.min = none) (hmax : f.window.max = none)
    (hx : f.Draws x) (hy : f.Draws y) (hxfinite : x.isFinite = true)
    (hyfinite : y.isFinite = true) (hne : (x == y) = false) :
    f.Draws f.xRange.1 ∧ f.Draws f.xRange.2 := by
  obtain ⟨b, hb, hlo, hhi, hbetween⟩ := exists_span hx hxfinite
  have hlength : b.1 < b.2 := by
    obtain ⟨hxlo, hxhi⟩ := hbetween x hx hxfinite
    obtain ⟨hylo, hyhi⟩ := hbetween y hy hyfinite
    rcases Number.lt_or_lt_of_beq_eq_false (Number.isNaN_of_isFinite hxfinite)
      (Number.isNaN_of_isFinite hyfinite) hne with hlt | hlt
    · exact Number.lt_of_lt_of_le (Number.lt_of_le_of_lt hxlo hlt) hyhi
    · exact Number.lt_of_lt_of_le (Number.lt_of_le_of_lt hylo hlt) hxhi
  have hrange : f.xRange = b := by
    rw [xRange_eq, hb, Option.getD_some, axisFrom, hmin, hmax]
    exact if_pos hlength
  rw [hrange]
  exact ⟨hlo, hhi⟩

end Figure

/-- Everything drawn is inside the window, and on the axis if its time is finite. Where nothing
bounds the window, both ends of the axis are drawn, unless all finite times are equal. This holds of
every layout, planned or not. -/
theorem drawn_times_are_on_axis {c : Config} {l : Layout} {files : Files} {data : List RunData}
    (hwindow : c.window.Proper) (hdata : files.loadAll c l = .ok data) :
    (∀ x, (l.draw c data).Draws x → c.window.contains x = true) ∧
    (∀ x, (l.draw c data).Draws x → x.isFinite = true →
      (l.draw c data).xRange.1 ≤ x ∧ x ≤ (l.draw c data).xRange.2) ∧
    (c.window.min = none → c.window.max = none → ∀ x y, (l.draw c data).Draws x →
      (l.draw c data).Draws y → x.isFinite = true → y.isFinite = true → (x == y) = false →
        (l.draw c data).Draws (l.draw c data).xRange.1 ∧
          (l.draw c data).Draws (l.draw c data).xRange.2) := by
  have hcontains (x : Float) (hx : (l.draw c data).Draws x) : c.window.contains x = true :=
    Figure.contains_of_draws hwindow hdata hx
  refine ⟨hcontains, fun x hx hfinite => ?_, fun hmin hmax x y hx hy hxfinite hyfinite hne => ?_⟩
  · exact Figure.between_xRange hx hfinite (hcontains x hx)
  · exact Figure.draws_ends hmin hmax hx hy hxfinite hyfinite hne

/-- Of the second job, from 3 to 4, the window leaves a part. -/
def windowedConfig : Config :=
  { boundedConfig with window := ⟨some 1.0, some 3.5⟩ }

/-- Without a window the axis goes from the submission of the first job to the finish of the last.
With one it has room for the part of a job that the window leaves. -/
theorem boundedConfig_axis_is_drawn :
    (∃ data, boundedConfig.plan = .ok (.draw boundedLayout) ∧
      sampleFiles.loadAll boundedConfig boundedLayout = .ok data ∧
      (boundedLayout.draw boundedConfig data).Draws 0.0 ∧
      (boundedLayout.draw boundedConfig data).Draws 6.0 ∧
      (boundedLayout.draw boundedConfig data).Draws
        (boundedLayout.draw boundedConfig data).xRange.1 ∧
      (boundedLayout.draw boundedConfig data).Draws
        (boundedLayout.draw boundedConfig data).xRange.2) ∧
    ∃ data, windowedConfig.plan = .ok (.draw boundedLayout) ∧
      sampleFiles.loadAll windowedConfig boundedLayout = .ok data ∧
      (boundedLayout.draw windowedConfig data).Draws 3.5 ∧
      ¬ (boundedLayout.draw windowedConfig data).Draws 4.0 ∧
      (boundedLayout.draw windowedConfig data).xRange.1 ≤ 3.5 ∧
      3.5 ≤ (boundedLayout.draw windowedConfig data).xRange.2 := by
  constructor
  · have htimes : (sampleFiles.loadAll boundedConfig boundedLayout).toOption.map
        (fun data => (boundedLayout.draw boundedConfig data).panels.flatMap Panel.xs) =
          some [1.0, 3.0, 3.0, 4.0, 4.0, 6.0, 2.0, 4.0, 3.0, 1.0, 0.0, 1.0, 2.0, 4.0, 3.0, 1.0,
            4.0] := by
      decide +kernel
    obtain ⟨data, hdata, hxs⟩ := toOption_map_eq_some_iff.mp htimes
    have hfirst : (boundedLayout.draw boundedConfig data).Draws 0.0 := by
      simp [Figure.draws_iff_mem_xs, hxs]
    have hlast : (boundedLayout.draw boundedConfig data).Draws 6.0 := by
      simp [Figure.draws_iff_mem_xs, hxs]
    have hwindow : boundedConfig.window.Proper := ⟨by decide, by decide⟩
    obtain ⟨-, -, hends⟩ := drawn_times_are_on_axis hwindow hdata
    exact ⟨data, rfl, hdata, hfirst, hlast,
      hends rfl rfl 0.0 6.0 hfirst hlast (by decide) (by decide) (by decide)⟩
  · have htimes : (sampleFiles.loadAll windowedConfig boundedLayout).toOption.map
        (fun data => (boundedLayout.draw windowedConfig data).panels.flatMap Panel.xs) =
          some [1.0, 3.0, 3.0, 3.5, 3.0, 1.0, 1.0, 2.0, 3.0, 1.0, 2.0] := by
      decide +kernel
    obtain ⟨data, hdata, hxs⟩ := toOption_map_eq_some_iff.mp htimes
    have hpart : (boundedLayout.draw windowedConfig data).Draws 3.5 := by
      simp [Figure.draws_iff_mem_xs, hxs]
    have hwindow : windowedConfig.window.Proper := ⟨by decide, by decide⟩
    obtain ⟨hinside, haxis, -⟩ := drawn_times_are_on_axis hwindow hdata
    have hbeyond : ¬ (boundedLayout.draw windowedConfig data).Draws 4.0 := fun hdraws =>
      absurd (hinside 4.0 hdraws) (by decide)
    exact ⟨data, rfl, hdata, hpart, hbeyond, haxis 3.5 hpart (by decide)⟩

end TracePlot
