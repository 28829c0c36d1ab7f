import TracePlot.Proofs.Number.Widening

/-! Arithmetic on whole numbers. Sums, differences and products of whole numbers that stay below
`2 ^ 53` are exact, and so are their halves. -/

namespace TracePlot.Number

/-- A finite number whose value is the whole number `n`. -/
structure IsWhole (x : Float) (n : Nat) : Prop where
  finite : x.isFinite = true
  value_eq : value x = n

namespace IsWhole

variable {x y : Float} {m n : Nat}

theorem of_form (hform : x.toModel.unpack = wholeForm n) (hn : n < 2 ^ 53) : IsWhole x n := by
  obtain ⟨hfinite, hvalue⟩ := value_of_whole_form hform hn
  exact ⟨hfinite, hvalue⟩

theorem ofNat (hn : n < 2 ^ 53) : IsWhole (Float.ofNat n) n :=
  of_form (unpack_ofNat hn) hn

theorem ofNat_add_one (hn : n + 1 < 2 ^ 53) : IsWhole (Float.ofNat n + 1.0) (n + 1) :=
  of_form (unpack_ofNat_add_one hn) hn

theorem two : IsWhole 2.0 2 :=
  of_form rfl (by norm_num)

theorem four : IsWhole 4.0 4 :=
  of_form rfl (by norm_num)

theorem lt_iff (hx : IsWhole x m) (hy : IsWhole y n) : x < y ↔ m < n := by
  rw [lt_iff_value hx.finite hy.finite, hx.value_eq, hy.value_eq, Nat.cast_lt]

theorem of_rounds {q : ℚ} (h : Rounds q x) (hq : q = n) (hn : n < 2 ^ 53) : IsWhole x n := by
  have hexact := ofNat hn
  rw [hq, ← hexact.value_eq] at h
  obtain ⟨hfinite, hvalue⟩ := h.value_eq hexact.finite
  exact ⟨hfinite, hvalue.trans hexact.value_eq⟩

theorem add (hx : IsWhole x m) (hy : IsWhole y n) (hfits : m + n < 2 ^ 53) :
    IsWhole (x + y) (m + n) := by
  refine of_rounds (rounds_add hx.finite hy.finite) ?_ hfits
  rw [hx.value_eq, hy.value_eq, Nat.cast_add]

theorem sub (hx : IsWhole x m) (hy : IsWhole y n) (hle : n ≤ m) (hfits : m < 2 ^ 53) :
    IsWhole (x - y) (m - n) := by
  refine of_rounds (rounds_sub hx.finite hy.finite) ?_ (by omega)
  rw [hx.value_eq, hy.value_eq, Nat.cast_sub hle]

theorem mul (hx : IsWhole x m) (hy : IsWhole y n) (hfits : m * n < 2 ^ 53) :
    IsWhole (x * y) (m * n) := by
  refine of_rounds (rounds_mul hx.finite hy.finite) ?_ hfits
  rw [hx.value_eq, hy.value_eq, Nat.cast_mul]

theorem half (hx : IsWhole x n) (hfits : n < 2 ^ 53) :
    (x / 2.0).isFinite = true ∧ value (x / 2.0) = n / 2 := by
  have habs : |(n : ℤ)| ≤ 2 ^ 53 := by
    rw [Nat.abs_cast]
    exact_mod_cast hfits.le
  obtain ⟨middle, hmiddle, hvalue⟩ := exists_multiple habs (t := -1) (by norm_num) (by norm_num)
  have hmiddlevalue : value middle = n / 2 := by
    rw [hvalue, zpow_neg_one, Int.cast_natCast, div_eq_mul_inv]
  have hrounds := rounds_div hx.finite two.finite (by norm_num [two.value_eq])
  rw [hx.value_eq, two.value_eq, Nat.cast_ofNat, ← hmiddlevalue] at hrounds
  obtain ⟨hfinite, hhalf⟩ := hrounds.value_eq hmiddle
  exact ⟨hfinite, hhalf.trans hmiddlevalue⟩

end IsWhole

end TracePlot.Number
