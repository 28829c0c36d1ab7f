import TracePlot.Proofs.Figure.JobTiles
import TracePlot.Proofs.Figure.Ranges
import TracePlot.Proofs.Number.WholeValues
import TracePlot.Screen.Plot

/-! The lines that fill the tiles of a Gantt chart. The edges of tiles are whole numbers up to
`2 ^ 32`, and no screen has so many rows that a step is less than `2 ^ -18`. Such a step still moves
every height that it is added to, so the lines of a tile come to an end; there is at least one, and
all of them are inside. -/

open TracePlot.Number

namespace TracePlot

/-- Two heights at whole numbers that ids reach, the lower one first. -/
structure Heights (bottom top : Float) (a b : Nat) : Prop where
  low : IsWhole bottom a
  high : IsWhole top b
  ascend : a < b
  fit : b ≤ 2 ^ 32

namespace Screen

variable {bottom top step start y : Float} {a b : Nat}

section Levels

/-- The heights are those of a loop that takes every step, wherever it leads. -/
theorem levels?_of_lt (hy : y.isFinite = true) (hstep : step.isFinite = true)
    (hpos : 0 < value step) (hlt : y < top) :
    levels? top step y = (levels? top step (y + step)).map (y :: ·) := by
  by_cases hfurther : rank y < rank (y + step)
  · rw [levels?, if_pos hlt, if_pos hfurther]
  · -- A step that is lost is lost again each time.
    have hlost : y + step = y := add_eq_self_of_rank_le hy hstep hpos (not_lt.mp hfurther)
    have hnone : levels? top step y = none := by rw [levels?, if_pos hlt, if_neg hfurther]
    rw [hlost, hnone, Option.map_none]

/-- When each step leads further there is an end of the heights. -/
theorem exists_levels? (hfurther : ∀ y, start ≤ y → y < top → y < y + step) (hstart : start ≤ y) :
    ∃ ys, levels? top step y = some ys ∧ (y < top → ys ≠ []) ∧ ∀ z ∈ ys, y ≤ z ∧ z < top := by
  induction y using levels?.induct top step with
  | case1 y hlt hrank ih =>
    have hnext := hfurther y hstart hlt
    obtain ⟨ys, hys, -, hbetween⟩ := ih (Number.le_trans hstart (Number.le_of_lt hnext))
    refine ⟨y :: ys, by rw [levels?, if_pos hlt, if_pos hrank, hys, Option.map_some],
      fun _ => List.cons_ne_nil y ys, List.forall_mem_cons.mpr ⟨⟨?_, hlt⟩, fun z hz => ?_⟩⟩
    · exact Number.le_refl (Number.lt_iff.mp hlt).1
    · obtain ⟨hle, hbelow⟩ := hbetween z hz
      exact ⟨Number.le_trans (Number.le_of_lt hnext) hle, hbelow⟩
  | case2 y hlt hlost => exact absurd (rank_lt_of_lt (hfurther y hstart hlt)) hlost
  | case3 y hend => exact ⟨[], by rw [levels?, if_neg hend], fun h => absurd h hend, by simp⟩

end Levels

section Fill

theorem fillLevels?_of_pos (hstep : step.isFinite = true) (hpos : 0 < value step) :
    fillLevels? bottom top step =
      if top - bottom ≤ step then some [(bottom + top) / 2.0]
      else levels? top step (bottom + step / 2.0) := by
  have hnonpos : ¬ step ≤ 0.0 := by
    rw [le_iff_value hstep zero_value.1, zero_value.2, not_le]
    exact hpos
  rw [fillLevels?, isNaN_of_isFinite hstep, decide_eq_false hnonpos, Bool.false_or, Bool.false_or]
  simp only [decide_eq_true_eq]

variable (h : Heights bottom top a b)

include h

/-- A step of `2 ^ -19` is not lost anywhere between the edges. -/
theorem lt_add_of_between (hstep : step.isFinite = true) (hunit : 2 ^ (-19 : ℤ) ≤ value step)
    (hle : bottom ≤ y) (hlt : y < top) : y < y + step := by
  have hy := isFinite_of_between h.low.finite h.high.finite hle (Number.le_of_lt hlt)
  rw [le_iff_value h.low.finite hy, h.low.value_eq] at hle
  rw [lt_iff_value hy h.high.finite, h.high.value_eq] at hlt
  have hsmall : |value y| < 2 ^ 53 * 2 ^ (-19 : ℤ) := by
    have hnonneg : (0 : ℚ) ≤ a := Nat.cast_nonneg a
    have hfit : (b : ℚ) ≤ 2 ^ 32 := by exact_mod_cast h.fit
    rw [abs_of_nonneg (by linarith), two_pow_mul_zpow (j := 34) (by norm_num)]
    linarith
  exact lt_add_of_unit_le (by norm_num) (by norm_num) hy hstep hsmall hunit

theorem middle_spec :
    ((bottom + top) / 2.0).isFinite = true ∧ value ((bottom + top) / 2.0) = (a + b : Nat) / 2 := by
  have hfit := h.fit
  have hascend := h.ascend
  exact (h.low.add h.high (by omega)).half (by omega)

theorem middle_between : bottom < (bottom + top) / 2.0 ∧ (bottom + top) / 2.0 < top := by
  obtain ⟨hmiddle, hvalue⟩ := middle_spec h
  have hascend : (a : ℚ) < b := by exact_mod_cast h.ascend
  rw [lt_iff_value h.low.finite hmiddle, lt_iff_value hmiddle h.high.finite, hvalue,
    h.low.value_eq, h.high.value_eq, Nat.cast_add]
  constructor <;> linarith

theorem length_whole : IsWhole (top - bottom) (b - a) := by
  have hfit := h.fit
  exact h.high.sub h.low h.ascend.le (by omega)

variable (hstep : step.isFinite = true) (hlarge : 2 ^ (-18 : ℤ) ≤ value step)

include hstep hlarge

/-- Half a step that is shorter than the tile is not lost and does not lead beyond its middle. -/
theorem half_step_between (hshort : step < top - bottom) :
    (step / 2.0).isFinite = true ∧ 2 ^ (-19 : ℤ) ≤ value (step / 2.0) ∧
      value (step / 2.0) ≤ (b - a : Nat) / 2 := by
  have hlength := length_whole h
  have hfit := h.fit
  obtain ⟨hhalflength, hhalflengthvalue⟩ := hlength.half (by omega)
  rw [lt_iff_value hstep hlength.finite, hlength.value_eq] at hshort
  obtain ⟨unit, hunit, hunitvalue⟩ :=
    exists_multiple (n := 1) (t := -19) (by norm_num) (by norm_num) (by norm_num)
  rw [Int.cast_one, one_mul] at hunitvalue
  have hdouble : (2 : ℚ) ^ (-18 : ℤ) = 2 * 2 ^ (-19 : ℤ) := by
    rw [← two_zpow_succ]
    norm_num
  have hpos := two_zpow_pos (-19)
  have hrounds := rounds_div hstep IsWhole.two.finite (by norm_num [IsWhole.two.value_eq])
  rw [IsWhole.two.value_eq, Nat.cast_ofNat] at hrounds
  have hhalf := hrounds.isFinite_of_nonneg hstep (by linarith) (by linarith)
  rw [← hunitvalue, ← hhalflengthvalue]
  exact ⟨hhalf, hrounds.le_value hhalf hunit (by linarith),
    hrounds.value_le hhalf hhalflength (by linarith)⟩

theorem start_between (hshort : step < top - bottom) :
    bottom < bottom + step / 2.0 ∧ bottom + step / 2.0 < top := by
  obtain ⟨hhalf, hlower, hupper⟩ := half_step_between h hstep hlarge hshort
  obtain ⟨hmiddle, hmiddlevalue⟩ := middle_spec h
  rw [Nat.cast_sub h.ascend.le] at hupper
  have hnotabove : bottom + step / 2.0 ≤ (bottom + top) / 2.0 := by
    refine (rounds_add h.low.finite hhalf).ge hmiddle ?_
    rw [hmiddlevalue, h.low.value_eq, Nat.cast_add]
    linarith
  constructor
  · exact lt_add_of_between h hhalf hlower (Number.le_refl (isNaN_of_isFinite h.low.finite))
      ((h.low.lt_iff h.high).mpr h.ascend)
  · exact Number.lt_of_le_of_lt hnotabove (middle_between h).2

theorem exists_fillLevels? : ∃ ys, fillLevels? bottom top step = some ys ∧ ys ≠ [] ∧
    ∀ y ∈ ys, bottom < y ∧ y < top := by
  rw [fillLevels?_of_pos hstep ((two_zpow_pos (-18)).trans_le hlarge)]
  by_cases hthin : top - bottom ≤ step
  · rw [if_pos hthin]
    exact ⟨_, rfl, List.cons_ne_nil _ _, List.forall_mem_singleton.mpr (middle_between h)⟩
  · rw [if_neg hthin]
    have hshort := (Number.not_le (isNaN_of_isFinite (length_whole h).finite)
      (isNaN_of_isFinite hstep)).mp hthin
    obtain ⟨hinside, hbelow⟩ := start_between h hstep hlarge hshort
    have hunit : (2 : ℚ) ^ (-19 : ℤ) ≤ value step := (two_zpow_le (by norm_num)).trans hlarge
    obtain ⟨ys, hys, hne, hbetween⟩ := exists_levels?
      (fun y hle hlt => lt_add_of_between h hstep hunit hle hlt) (Number.le_of_lt hinside)
    refine ⟨ys, hys, hne hbelow, fun y hy => ?_⟩
    obtain ⟨hle, hlt⟩ := hbetween y hy
    exact ⟨Number.lt_of_lt_of_le hinside hle, hlt⟩

end Fill

/-- No screen has so many rows that its dots are finer than `2 ^ -18`. -/
theorem dotHeight_spec {range : Float × Float} {rows : Nat} (h : Heights range.1 range.2 a b)
    (hrows : rows < 0x10000) :
    (dotHeight range rows).isFinite = true ∧ 2 ^ (-18 : ℤ) ≤ value (dotHeight range rows) := by
  have hlength := length_whole h
  have hdots : IsWhole (Float.ofNat (max (rows - 2) 1) * 4.0) (max (rows - 2) 1 * 4) :=
    (IsWhole.ofNat (by omega)).mul .four (by omega)
  have hlengthpos : (1 : ℚ) ≤ (b - a : Nat) := by
    exact_mod_cast Nat.sub_pos_of_lt h.ascend
  have hdotspos : (1 : ℚ) ≤ (max (rows - 2) 1 * 4 : Nat) := by
    exact_mod_cast (by omega : 1 ≤ max (rows - 2) 1 * 4)
  have hdotsfew : ((max (rows - 2) 1 * 4 : Nat) : ℚ) ≤ 2 ^ 18 := by
    exact_mod_cast (by omega : max (rows - 2) 1 * 4 ≤ 2 ^ 18)
  unfold dotHeight
  generalize max (rows - 2) 1 * 4 = dots at hdots hdotspos hdotsfew
  have hrounds := rounds_div hlength.finite hdots.finite (by rw [hdots.value_eq]; linarith)
  rw [hlength.value_eq, hdots.value_eq] at hrounds
  have hfinite := hrounds.isFinite_of_nonneg hlength.finite (by positivity)
    (by rw [hlength.value_eq]; exact div_le_self (by linarith) hdotspos)
  obtain ⟨unit, hunit, hunitvalue⟩ :=
    exists_multiple (n := 1) (t := -18) (by norm_num) (by norm_num) (by norm_num)
  rw [Int.cast_one, one_mul] at hunitvalue
  refine ⟨hfinite, ?_⟩
  rw [← hunitvalue]
  refine hrounds.le_value hfinite hunit ?_
  rw [hunitvalue, le_div_iff₀ (by linarith)]
  calc (2 : ℚ) ^ (-18 : ℤ) * dots ≤ 2 ^ (-18 : ℤ) * 2 ^ 18 :=
        mul_le_mul_of_nonneg_left hdotsfew (two_zpow_pos _).le
    _ = 1 := by norm_num
    _ ≤ (b - a : Nat) := hlengthpos

/-- The line is level, goes from the left edge of the tile to the right one, and is strictly between
the lower edge and the upper one. -/
structure FillLine.Crosses (l : FillLine) (t : Tile) : Prop where
  level : l.start.2 = l.stop.2
  left : l.start.1 = t.x.1
  right : l.stop.1 = t.x.2
  above : t.y.1 < l.start.2
  below : l.start.2 < t.y.2

theorem exists_fillLines? {t : Tile} (h : Heights t.y.1 t.y.2 a b) (hstep : step.isFinite = true)
    (hlarge : 2 ^ (-18 : ℤ) ≤ value step) :
    ∃ lines, fillLines? t step = some lines ∧ lines ≠ [] ∧ ∀ l ∈ lines, l.Crosses t := by
  obtain ⟨ys, hys, hne, hbetween⟩ := exists_fillLevels? h hstep hlarge
  refine ⟨ys.map (lineAcross t), by rw [fillLines?, hys, Option.map_some], by simpa using hne, ?_⟩
  rw [List.forall_mem_map]
  intro y hy
  obtain ⟨habove, hbelow⟩ := hbetween y hy
  exact ⟨rfl, rfl, rfl, habove, hbelow⟩

end Screen

/-- The ids of all jobs and changes were read from text. -/
structure RunData.IdsRead (d : RunData) : Prop where
  jobs : ∀ j ∈ d.jobs.getD [], ∃ text, Resource.IdSet.parse text = .ok j.resources
  changes : ∀ c ∈ d.changes.getD [], ∃ text, Resource.IdSet.parse text = .ok c.machines

namespace Gantt

open Resource

variable {roles : PowerState.Roles} {window : Window} {data : RunData} {t : Tile} {x : Float}

/-- A tile is that of a spell, where there is a log of changes, or that of a job. -/
theorem spell_or_job_of_mem_panel (ht : t ∈ (panel roles window data).tiles) :
    (∃ changes, data.changes = some changes ∧
      ∃ s ∈ PowerState.spells changes (endTime (data.jobs.getD []) changes),
        roleTile? roles window s = some t) ∨
    ∃ j ∈ data.jobs.getD [], ∃ i, t ∈ jobTiles window i j := by
  have hjob (h : t ∈ allJobTiles window (data.jobs.getD [])) :
      ∃ j ∈ data.jobs.getD [], ∃ i, t ∈ jobTiles window i j := by
    obtain ⟨⟨j, i⟩, hmem, ht⟩ := List.mem_flatMap.mp h
    exact ⟨j, List.fst_mem_of_mem_zipIdx hmem, i, ht⟩
  cases hchanges : data.changes with
  | none =>
    unfold panel at ht
    rw [hchanges] at ht
    exact .inr (hjob ht)
  | some changes =>
    rw [panel_tiles hchanges, List.mem_append, List.mem_filterMap] at ht
    exact ht.imp (fun hspell => ⟨changes, rfl, hspell⟩) hjob

theorem exists_range_of_mem_panel (hread : data.IdsRead)
    (ht : t ∈ (panel roles window data).tiles) :
    ∃ r : IdRange, r.Proper ∧ t.y = (Float.ofNat r.first, Float.ofNat r.last + 1.0) := by
  rcases spell_or_job_of_mem_panel ht with ⟨changes, hchanges, s, hs, htile⟩ | ⟨j, hj, i, htile⟩
  · obtain ⟨c, hc, hmachine⟩ := PowerState.exists_change_of_mem_spells hs
    obtain ⟨text, htext⟩ := hread.changes c (by rwa [hchanges, Option.getD_some])
    obtain ⟨r, hr, -, hlast⟩ := IdSet.mem_ids.mp hmachine
    have hfits := ((parse_spec htext).1.proper r hr).fits
    obtain ⟨role, -, htile⟩ := Option.bind_eq_some_iff.mp htile
    obtain ⟨span, -, rfl⟩ := Option.map_eq_some_iff.mp htile
    exact ⟨⟨s.machine, s.machine⟩, ⟨le_rfl, hlast.trans hfits⟩, rfl⟩
  · obtain ⟨text, htext⟩ := hread.jobs j hj
    obtain ⟨span, -, r, hr, rfl⟩ := mem_jobTiles_iff.mp htile
    exact ⟨r, (parse_spec htext).1.proper r hr, rfl⟩

theorem heights_of_mem_panel (hread : data.IdsRead) (ht : t ∈ (panel roles window data).tiles) :
    ∃ a b, Heights t.y.1 t.y.2 a b := by
  obtain ⟨r, hr, hy⟩ := exists_range_of_mem_panel hread ht
  obtain ⟨hfirst, hlast⟩ := hr.small
  have hordered := hr.ordered
  have hfits := hr.fits
  unfold maxId at hfits
  rw [hy]
  exact ⟨r.first, r.last + 1, .ofNat hfirst, .ofNat_add_one hlast, by omega, by omega⟩

theorem mem_panel_ys_iff :
    x ∈ (panel roles window data).ys ↔
      ∃ t ∈ (panel roles window data).tiles, x = t.y.1 ∨ x = t.y.2 := by
  have hseries : (panel roles window data).series = [] := rfl
  simp [Panel.ys, hseries]

theorem whole_of_mem_panel_ys (hread : data.IdsRead) (hx : x ∈ (panel roles window data).ys) :
    ∃ n, n ≤ 2 ^ 32 ∧ IsWhole x n := by
  obtain ⟨t, ht, hx⟩ := mem_panel_ys_iff.mp hx
  obtain ⟨a, b, h⟩ := heights_of_mem_panel hread ht
  rcases hx with rfl | rfl
  · exact ⟨a, h.ascend.le.trans h.fit, h.low⟩
  · exact ⟨b, h.fit, h.high⟩

/-- With a tile the range goes from the lowest edge to the highest, and is not widened. -/
theorem heights_yRange (hread : data.IdsRead) (ht : t ∈ (panel roles window data).tiles) :
    ∃ a b, Heights (panel roles window data).yRange.1 (panel roles window data).yRange.2 a b := by
  obtain ⟨a, b, h⟩ := heights_of_mem_panel hread ht
  have hlow := mem_panel_ys_iff.mpr ⟨t, ht, .inl rfl⟩
  have hhigh := mem_panel_ys_iff.mpr ⟨t, ht, .inr rfl⟩
  obtain ⟨ends, hends⟩ := exists_finiteBounds? hlow h.low.finite
  obtain ⟨⟨hlo, -⟩, ⟨hhi, -⟩, hbetween⟩ := finiteBounds?_spec hends
  obtain ⟨m, -, hm⟩ := whole_of_mem_panel_ys hread hlo
  obtain ⟨n, hnfits, hn⟩ := whole_of_mem_panel_ys hread hhi
  have hlt : ends.1 < ends.2 :=
    Number.lt_of_le_of_lt (hbetween _ hlow h.low.finite).1
      (Number.lt_of_lt_of_le ((h.low.lt_iff h.high).mpr h.ascend)
        (hbetween _ hhigh h.high.finite).2)
  have hrange : (panel roles window data).yRange = ends := by
    rw [Panel.yRange_of_some hends, if_neg ((lt_iff_not_beq (finiteBounds?_le hends)).mp hlt)]
    rfl
  rw [hrange]
  exact ⟨m, n, hm, hn, (hm.lt_iff hn).mp hlt, hnfits⟩

/-- On a screen of any height the lines of each tile of a Gantt chart come to an end. There is at
least one, and each crosses its tile from edge to edge, strictly inside. -/
theorem every_tile_is_filled (roles : PowerState.Roles) (window : Window) {data : RunData}
    (hread : data.IdsRead) {rows : Nat} (hrows : rows < 0x10000) :
    ∀ t ∈ (panel roles window data).tiles, ∃ lines,
      Screen.fillLines? t (Screen.dotHeight (panel roles window data).yRange rows) = some lines ∧
        lines ≠ [] ∧ ∀ l ∈ lines, l.Crosses t := by
  intro t ht
  obtain ⟨a, b, hrange⟩ := heights_yRange hread ht
  obtain ⟨hstep, hlarge⟩ := Screen.dotHeight_spec hrange hrows
  obtain ⟨a, b, h⟩ := heights_of_mem_panel hread ht
  exact Screen.exists_fillLines? h hstep hlarge

/-- A job on the two greatest ids. -/
def topRun : RunData :=
  { name := "top"
    jobs := some [{
      starting := some 0.0
      finish := some 10.0
      resources := ⟨[⟨4294967294, 4294967295⟩]⟩ }] }

/-- On the highest screen a step of this chart is only about sixteen times as long as the distance
of neighbouring numbers. -/
theorem topRun_filled_on_highest_screen :
    (topRun.IdsRead ∧ 65535 < 0x10000) ∧
    rangeTile 0 (0.0, 10.0) ⟨4294967294, 4294967295⟩ ∈ (panel {} {} topRun).tiles ∧
    ∃ lines,
      Screen.fillLines? (rangeTile 0 (0.0, 10.0) ⟨4294967294, 4294967295⟩)
        (Screen.dotHeight (panel {} {} topRun).yRange 65535) = some lines ∧
      lines ≠ [] ∧
      ∀ l ∈ lines, l.Crosses (rangeTile 0 (0.0, 10.0) ⟨4294967294, 4294967295⟩) := by
  have hgapped : Gapped [⟨4294967294, 4294967295⟩] :=
    ⟨List.forall_mem_singleton.mpr ⟨by decide, by decide⟩, List.pairwise_singleton _ _⟩
  have hread : topRun.IdsRead :=
    ⟨List.forall_mem_singleton.mpr ⟨_, parse_text hgapped⟩, by simp [topRun]⟩
  have htile : rangeTile 0 (0.0, 10.0) ⟨4294967294, 4294967295⟩ ∈ (panel {} {} topRun).tiles :=
    List.mem_singleton.mpr rfl
  have hrows : 65535 < 0x10000 := by decide
  exact ⟨⟨hread, hrows⟩, htile, every_tile_is_filled {} {} hread hrows _ htile⟩

end Gantt

end TracePlot
