import TracePlot.Proofs.Number.Compare

/-! The least and the greatest of several numbers. Both are among the numbers, and as long as none
is NaN all others are between them. -/

open Float.Model Float.Model.UnpackedFloat

namespace TracePlot.Number

variable {x y z : Float}

protected theorem le_refl (hx : x.isNaN = false) : x ≤ x :=
  le_iff.mpr ⟨hx, hx, le_rfl⟩

protected theorem le_of_lt (h : x < y) : x ≤ y := by
  obtain ⟨hx, hy, hlt⟩ := lt_iff.mp h
  exact le_iff.mpr ⟨hx, hy, hlt.le⟩

protected theorem lt_of_lt_of_le (h : x < y) (h' : y ≤ z) : x < z := by
  rw [lt_iff] at h ⊢
  rw [le_iff] at h'
  exact ⟨h.1, h'.2.1, by omega⟩

theorem larger_eq_or (x y : Float) : larger x y = x ∨ larger x y = y := by
  unfold larger
  split
  · exact .inr rfl
  · split
    · exact .inr rfl
    · exact .inl rfl

theorem smaller_eq_or (x y : Float) : smaller x y = x ∨ smaller x y = y := by
  unfold smaller
  split
  · exact .inr rfl
  · split
    · exact .inr rfl
    · exact .inl rfl

theorem le_larger_right (x : Float) (hy : y.isNaN = false) : y ≤ larger x y := by
  unfold larger
  -- NaN gives way, so nothing is asked of `x`.
  by_cases hx : x.isNaN = true
  · rw [if_pos hx]
    exact Number.le_refl hy
  · rw [if_neg hx]
    by_cases hlt : x < y
    · rw [if_pos hlt]
      exact Number.le_refl hy
    · rw [if_neg hlt]
      grind [lt_iff, le_iff]

theorem smaller_le_right (x : Float) (hy : y.isNaN = false) : smaller x y ≤ y := by
  unfold smaller
  by_cases hx : x.isNaN = true
  · rw [if_pos hx]
    exact Number.le_refl hy
  · rw [if_neg hx]
    by_cases hlt : y < x
    · rw [if_pos hlt]
      exact Number.le_refl hy
    · rw [if_neg hlt]
      grind [lt_iff, le_iff]

theorem le_larger_left (hx : x.isNaN = false) (hy : y.isNaN = false) : x ≤ larger x y :=
  ((larger_le_iff hx hy).mp (Number.le_refl (isNaN_larger hx hy))).1

theorem isNaN_smaller (hx : x.isNaN = false) (hy : y.isNaN = false) :
    (smaller x y).isNaN = false := by
  rcases smaller_eq_or x y with h | h <;> rw [h] <;> assumption

theorem smaller_le_left (hx : x.isNaN = false) (hy : y.isNaN = false) : smaller x y ≤ x := by
  have hnan := isNaN_smaller hx hy
  by_contra hle
  have hlt := (Number.not_le hnan hx).mp hle
  exact Number.lt_irrefl x ((lt_smaller_iff hx hy).mp hlt).1

/-- The span from `b.1` to `b.2`, widened to more numbers. -/
def widen (b : Float × Float) (xs : List Float) : Float × Float :=
  xs.foldl (fun b v => (smaller b.1 v, larger b.2 v)) b

theorem bounds?_cons (x : Float) (xs : List Float) : bounds? (x :: xs) = some (widen (x, x) xs) :=
  rfl

theorem widen_mem (b : Float × Float) (xs : List Float) :
    (widen b xs).1 ∈ b.1 :: xs ∧ (widen b xs).2 ∈ b.2 :: xs := by
  induction xs generalizing b with
  | nil => simp [widen]
  | cons v xs ih =>
    have hstep : widen b (v :: xs) = widen (smaller b.1 v, larger b.2 v) xs := rfl
    obtain ⟨hlo, hhi⟩ := ih (smaller b.1 v, larger b.2 v)
    have hsmaller := smaller_eq_or b.1 v
    have hlarger := larger_eq_or b.2 v
    rw [hstep]
    simp only [List.mem_cons] at hlo hhi ⊢
    grind

theorem widen_le {b : Float × Float} {xs : List Float} (hb : b.1.isNaN = false)
    (hb' : b.2.isNaN = false) (hxs : ∀ x ∈ xs, x.isNaN = false) :
    (widen b xs).1 ≤ b.1 ∧ b.2 ≤ (widen b xs).2 ∧
      ∀ x ∈ xs, (widen b xs).1 ≤ x ∧ x ≤ (widen b xs).2 := by
  induction xs generalizing b with
  | nil =>
    have hnil : widen b [] = b := rfl
    rw [hnil]
    exact ⟨Number.le_refl hb, Number.le_refl hb', by simp⟩
  | cons v xs ih =>
    have hstep : widen b (v :: xs) = widen (smaller b.1 v, larger b.2 v) xs := rfl
    have hv := hxs v List.mem_cons_self
    obtain ⟨hlo, hhi, hrest⟩ := ih (b := (smaller b.1 v, larger b.2 v)) (isNaN_smaller hb hv)
      (isNaN_larger hb' hv) fun x hx => hxs x (List.mem_cons_of_mem _ hx)
    dsimp only at hlo hhi
    rw [hstep]
    refine ⟨Number.le_trans hlo (smaller_le_left hb hv),
      Number.le_trans (le_larger_left hb' hv) hhi, List.forall_mem_cons.mpr ⟨?_, hrest⟩⟩
    exact ⟨Number.le_trans hlo (smaller_le_right b.1 hv),
      Number.le_trans (le_larger_right b.2 hv) hhi⟩

theorem mem_of_bounds? {xs : List Float} {b : Float × Float} (h : bounds? xs = some b) :
    b.1 ∈ xs ∧ b.2 ∈ xs := by
  cases xs with
  | nil => cases h
  | cons x xs =>
    rw [bounds?_cons, Option.some_inj] at h
    rw [← h]
    exact widen_mem (x, x) xs

theorem between_of_bounds? {xs : List Float} {b : Float × Float} (h : bounds? xs = some b)
    (hxs : ∀ x ∈ xs, x.isNaN = false) : ∀ x ∈ xs, b.1 ≤ x ∧ x ≤ b.2 := by
  cases xs with
  | nil => cases h
  | cons x xs =>
    rw [bounds?_cons, Option.some_inj] at h
    rw [List.forall_mem_cons] at hxs
    obtain ⟨hlo, hhi, hrest⟩ := widen_le (b := (x, x)) hxs.1 hxs.1 hxs.2
    dsimp only at hlo hhi
    rw [← h]
    exact List.forall_mem_cons.mpr ⟨⟨hlo, hhi⟩, hrest⟩

theorem isNaN_of_isFinite (h : x.isFinite = true) : x.isNaN = false := by
  change x.toModel.unpack.isFinite = true at h
  change x.toModel.unpack.isNaN = false
  cases hx : x.toModel.unpack <;> simp_all [UnpackedFloat.isFinite, UnpackedFloat.isNaN]

theorem isFinite_iff_position (hx : x.isNaN = false) :
    x.isFinite = true ↔ -(2047 * 2 ^ 52) < position x ∧ position x < 2047 * 2 ^ 52 := by
  have hcanonical : Canonical x.toModel.unpack := (unpack_spec x.toModel.toBits.toBitVec).1
  change x.toModel.unpack.isNaN = false at hx
  change x.toModel.unpack.isFinite = true ↔
    -(2047 * 2 ^ 52) < place x.toModel.unpack ∧ place x.toModel.unpack < 2047 * 2 ^ 52
  cases hform : x.toModel.unpack with
  | notANumber =>
    rw [hform] at hx
    cases hx
  | infinity s => cases s <;> simp [UnpackedFloat.isFinite, place, Sign.apply]
  | zero s => simp [UnpackedFloat.isFinite, place]
  | finite s m e h =>
    rw [hform] at hcanonical
    have hbounds := place_finite_bounds hcanonical
    cases s <;> simp only [UnpackedFloat.isFinite, place, Sign.apply, true_iff] <;> omega

theorem isFinite_of_between (hx : x.isFinite = true) (hz : z.isFinite = true) (hxy : x ≤ y)
    (hyz : y ≤ z) : y.isFinite = true := by
  rw [isFinite_iff_position (isNaN_of_isFinite hx)] at hx
  rw [isFinite_iff_position (isNaN_of_isFinite hz)] at hz
  rw [le_iff] at hxy hyz
  exact (isFinite_iff_position hxy.2.1).mpr (by omega)

theorem beq_iff_position (hx : x.isNaN = false) (hy : y.isNaN = false) :
    (x == y) = true ↔ position x = position y := by
  change (x.toModel.unpack.compare y.toModel.unpack == some .eq) = true ↔ _
  rw [compare_eq_position hx hy, beq_iff_eq, Option.some_inj, compare_eq_iff_eq]

theorem le_of_beq (hx : x.isNaN = false) (hy : y.isNaN = false) (h : (x == y) = true) : y ≤ x :=
  le_iff.mpr ⟨hy, hx, ((beq_iff_position hx hy).mp h).ge⟩

theorem lt_iff_not_beq (h : x ≤ y) : x < y ↔ ¬ (x == y) = true := by
  obtain ⟨hx, hy, hle⟩ := le_iff.mp h
  rw [lt_iff, beq_iff_position hx hy]
  simp only [hx, hy, true_and]
  omega

theorem lt_or_lt_of_beq_eq_false (hx : x.isNaN = false) (hy : y.isNaN = false)
    (h : (x == y) = false) : x < y ∨ y < x := by
  have hne : position x ≠ position y := by
    rw [ne_eq, ← beq_iff_position hx hy, h]
    exact Bool.false_ne_true
  rcases hne.lt_or_gt with hlt | hgt
  · exact .inl (lt_iff.mpr ⟨hx, hy, hlt⟩)
  · exact .inr (lt_iff.mpr ⟨hy, hx, hgt⟩)

end TracePlot.Number
