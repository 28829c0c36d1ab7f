import TracePlot.Proofs.Number.Arithmetic
import TracePlot.Proofs.Number.Words

/-! Ranges of finite numbers, widened on both sides. Adding or subtracting one does not go beyond
the largest number, and keeps the sides apart as long as whole numbers are exact. -/

open Float.Model Float.Model.UnpackedFloat

namespace TracePlot.Number

variable {x y lo hi : Float} {q : ℚ}

section Range

def largest : ℚ :=
  (2 ^ 53 - 1) * 2 ^ (971 : ℤ)

theorem exists_largest : ∃ x : Float, x.isFinite = true ∧ value x = largest := by
  obtain ⟨x, hx, hvalue⟩ := exists_value (k := 2 ^ 53 - 1) (t := 971) (by norm_num) (by norm_num)
    (magnitude_lt_top (by norm_num) le_rfl)
  refine ⟨x, hx, hvalue.trans ?_⟩
  rw [largest]
  norm_num

theorem exists_opposite (hx : x.isFinite = true) :
    ∃ y : Float, y.isFinite = true ∧ value y = -value x := by
  obtain ⟨y, hy⟩ := exists_of_canonical
    (canonical_neg (unpack_spec x.toModel.toBits.toBitVec).1)
  refine ⟨y, ?_, ?_⟩
  · change y.toModel.unpack.isFinite = true
    rw [hy, isFinite_neg]
    exact hx
  · rw [value, hy, exact_of_neg]
    rfl

theorem Rounds.isFinite_of_abs_le (h : Rounds q x) (hq : |q| ≤ largest) : x.isFinite = true := by
  obtain ⟨top, htop, hvalue⟩ := exists_largest
  obtain ⟨bottom, hbottom, hopposite⟩ := exists_opposite htop
  obtain ⟨hlower, hupper⟩ := abs_le.mp hq
  exact h.isFinite_of_between hbottom htop (by rwa [hopposite, hvalue]) (by rwa [hvalue])

theorem one_le_largest : 1 ≤ largest := by
  have hstep : (1 : ℚ) ≤ 2 ^ (971 : ℤ) := one_le_zpow₀ (by norm_num) (by norm_num)
  exact one_le_mul_of_one_le_of_one_le (by norm_num) hstep

/-- Below the largest number there is room for one more. -/
theorem magnitude_add_one_le {m : Nat} {e : ℤ} (hm : m < 2 ^ 53) (he : e ≤ 971)
    (hinner : ¬ (e = 971 ∧ m = 2 ^ 53 - 1)) : (m : ℚ) * 2 ^ e + 1 ≤ largest := by
  have hstep : (1 : ℚ) ≤ 2 ^ (971 : ℤ) := one_le_zpow₀ (by norm_num) (by norm_num)
  have hbelow : (m : ℚ) * 2 ^ e ≤ ((2 ^ 53 - 2 : Nat) : ℚ) * 2 ^ (971 : ℤ) := by
    rcases he.lt_or_eq with he | rfl
    · exact (magnitude_lt he hm (by norm_num)).le
    · have hm' : m ≤ 2 ^ 53 - 2 := by omega
      exact mul_le_mul_of_nonneg_right (by exact_mod_cast hm') (two_zpow_pos 971).le
  calc (m : ℚ) * 2 ^ e + 1 ≤ ((2 ^ 53 - 2 : Nat) : ℚ) * 2 ^ (971 : ℤ) + 2 ^ (971 : ℤ) :=
        add_le_add hbelow hstep
    _ = largest := by
        rw [largest, ← add_one_mul]
        norm_num

theorem abs_value_add_one_le_or (hx : x.isFinite = true) :
    |value x| + 1 ≤ largest ∨
      ∃ s, x.toModel.unpack = .finite s (2 ^ 53 - 1) 971 (by norm_num) := by
  have hcanonical : Canonical x.toModel.unpack := (unpack_spec _).1
  change x.toModel.unpack.isFinite = true at hx
  unfold value
  cases hform : x.toModel.unpack with
  | notANumber => rw [hform] at hx; cases hx
  | infinity s => rw [hform] at hx; cases hx
  | zero s => exact .inl (by simpa only [exact, abs_zero, zero_add] using one_le_largest)
  | finite s m e hm =>
    rw [hform] at hcanonical
    obtain ⟨-, hgreatest, -, hfits⟩ := canonical_bounds hcanonical
    by_cases houter : e = 971 ∧ m = 2 ^ 53 - 1
    · obtain ⟨rfl, rfl⟩ := houter
      exact .inr ⟨s, rfl⟩
    · rw [abs_exact_finite]
      exact .inl (magnitude_add_one_le hfits hgreatest houter)

theorem isFinite_add_one (hx : x.isFinite = true) : (x + 1.0).isFinite = true := by
  rcases abs_value_add_one_le_or hx with hroom | ⟨s, hform⟩
  · have hrounds := rounds_add hx value_one.1
    rw [value_one.2] at hrounds
    exact hrounds.isFinite_of_abs_le ((abs_add_le _ _).trans (by rwa [abs_one]))
  · -- One is less than half a step of the largest numbers.
    change (repacked (UnpackedFloat.add Format.binary64 x.toModel.unpack
      (1.0 : Float).toModel.unpack)).isFinite = true
    rw [hform]
    cases s <;> decide +kernel

theorem isFinite_sub_one (hx : x.isFinite = true) : (x - 1.0).isFinite = true := by
  rcases abs_value_add_one_le_or hx with hroom | ⟨s, hform⟩
  · have hrounds := rounds_sub hx value_one.1
    rw [value_one.2] at hrounds
    exact hrounds.isFinite_of_abs_le ((abs_sub _ _).trans (by rwa [abs_one]))
  · change (repacked (UnpackedFloat.sub Format.binary64 x.toModel.unpack
      (1.0 : Float).toModel.unpack)).isFinite = true
    rw [hform]
    cases s <;> decide +kernel

theorem isFinite_of_isFinite_mul (h : (x * y).isFinite = true) : x.isFinite = true := by
  have hform (a b : UnpackedFloat)
      (h : (UnpackedFloat.mul Format.binary64 a b).isFinite = true) : a.isFinite = true := by
    cases a with
    | zero s => rfl
    | finite s m e hm => rfl
    | notANumber => cases b <;> cases h
    | infinity s => cases b <;> cases h
  exact hform _ _ (isFinite_repacked h)

end Range

section Units

/-- Up to `2 ^ 53` units on both sides, the multiples of a power of two are numbers of the format. -/
theorem exists_multiple {n t : ℤ} (hn : |n| ≤ 2 ^ 53) (ht : -1074 ≤ t) (ht' : t ≤ 970) :
    ∃ x : Float, x.isFinite = true ∧ value x = n * 2 ^ t := by
  have hnat : n.natAbs ≤ 2 ^ 53 := by
    rw [Int.abs_eq_natAbs] at hn
    exact_mod_cast hn
  have hfits : (n.natAbs : ℚ) * 2 ^ t < 2 ^ 1024 :=
    calc (n.natAbs : ℚ) * 2 ^ t ≤ 2 ^ 53 * 2 ^ (970 : ℤ) :=
          mul_le_mul (by exact_mod_cast hnat) (two_zpow_le ht') (two_zpow_pos t).le (by positivity)
      _ = 2 ^ 1023 := two_pow_mul_zpow (by norm_num)
      _ < 2 ^ 1024 := pow_lt_pow_right₀ (by norm_num) (by norm_num)
  obtain ⟨x, hx, hvalue⟩ := exists_value hnat ht hfits
  rcases Int.natAbs_eq n with hsign | hsign
  · exact ⟨x, hx, by rw [hvalue, hsign]; simp⟩
  · obtain ⟨y, hy, hopposite⟩ := exists_opposite hx
    exact ⟨y, hy, by rw [hopposite, hvalue, hsign]; simp⟩

theorem exists_whole {n : ℤ} (hn : |n| ≤ 2 ^ 53) :
    ∃ x : Float, x.isFinite = true ∧ value x = n := by
  obtain ⟨x, hx, hvalue⟩ := exists_multiple hn (t := 0) (by norm_num) (by norm_num)
  exact ⟨x, hx, by rwa [zpow_zero, mul_one] at hvalue⟩

/-- There is a multiple of the unit above `x` that is not above `x + y`. -/
theorem lt_add_of_unit_le {t : ℤ} (ht : -1074 ≤ t) (ht' : t ≤ 970) (hx : x.isFinite = true)
    (hy : y.isFinite = true) (hsmall : |value x| < 2 ^ 53 * 2 ^ t) (hunit : 2 ^ t ≤ value y) :
    x < x + y := by
  have hpos := two_zpow_pos t
  obtain ⟨hlower, hupper⟩ := abs_lt.mp hsmall
  rw [← neg_mul, ← lt_div_iff₀ hpos] at hlower
  rw [← div_lt_iff₀ hpos] at hupper
  have habove : value x / 2 ^ t < ((⌊value x / 2 ^ t⌋ + 1 : ℤ) : ℚ) := by
    push_cast
    exact Int.lt_floor_add_one _
  have hbelow : ((⌊value x / 2 ^ t⌋ + 1 : ℤ) : ℚ) ≤ value x / 2 ^ t + 1 := by
    push_cast
    linarith [Int.floor_le (value x / 2 ^ t)]
  generalize ⌊value x / 2 ^ t⌋ + 1 = n at habove hbelow
  have hn : |n| ≤ 2 ^ 53 := by
    have hlow : ((-2 ^ 53 : ℤ) : ℚ) < n := by
      push_cast
      linarith
    have hhigh : (n : ℚ) < ((2 ^ 53 + 1 : ℤ) : ℚ) := by
      push_cast
      linarith
    have hlow := Int.cast_lt.mp hlow
    have hhigh := Int.cast_lt.mp hhigh
    exact abs_le.mpr (by omega)
  obtain ⟨next, hnext, hvalue⟩ := exists_multiple hn ht ht'
  have hlt : x < next := by
    rw [lt_iff_value hx hnext, hvalue]
    exact (div_lt_iff₀ hpos).mp habove
  have hle : value next ≤ value x + value y := by
    rw [hvalue]
    calc (n : ℚ) * 2 ^ t ≤ (value x / 2 ^ t + 1) * 2 ^ t :=
          mul_le_mul_of_nonneg_right hbelow hpos.le
      _ = value x + 2 ^ t := by rw [add_mul, div_mul_cancel₀ _ hpos.ne', one_mul]
      _ ≤ value x + value y := by linarith
  exact Number.lt_of_lt_of_le hlt ((rounds_add hx hy).le hnext hle)

/-- A positive summand that does not lead further is lost. -/
theorem add_eq_self_of_rank_le (hx : x.isFinite = true) (hy : y.isFinite = true)
    (hpos : 0 < value y) (hrank : rank (x + y) ≤ rank x) : x + y = x := by
  have hrounds := rounds_add hx hy
  have hnan := isNaN_of_isFinite hx
  have hle : x ≤ x + y := hrounds.le hx (by linarith)
  have hge : x + y ≤ x := le_of_rank_le hrounds.1 hnan hrank
  have hsame : position (x + y) = position x := by
    rw [le_iff] at hle hge
    omega
  refine eq_of_position_eq hrounds.1 hnan (fun hzero => ?_) hsame
  -- Beside a zero the sum is the summand.
  have hvalue : value x = value 0.0 := by
    rw [← beq_iff_value hx zero_value.1, beq_iff_position hnan rfl, ← hsame, hzero]
    rfl
  rw [zero_value.2] at hvalue
  have hsum : y ≤ x := Number.le_trans (hrounds.le hy (by linarith)) hge
  rw [le_iff_value hy hx] at hsum
  linarith

theorem lt_add_one (hx : x.isFinite = true) (hsmall : |value x| < 2 ^ 53) : x < x + 1.0 := by
  refine lt_add_of_unit_le (t := 0) (by norm_num) (by norm_num) hx value_one.1 ?_ ?_
  · rwa [zpow_zero, mul_one]
  · rw [zpow_zero, value_one.2]

theorem abs_value_lt_of_step_le (hnonneg : 0 ≤ value x) (hstep : step x ≤ 1) :
    |value x| < 2 ^ 53 := by
  have hroom := (step_bounds x).2
  rw [abs_of_nonneg hnonneg]
  linarith

theorem sub_one_le (hx : x.isFinite = true) : x - 1.0 ≤ x := by
  refine (rounds_sub hx value_one.1).ge hx ?_
  rw [value_one.2]
  linarith

theorem sub_one_lt_add_one (hlo : lo.isFinite = true) (hhi : hi.isFinite = true) (hle : lo ≤ hi)
    (hsmall : |value hi| < 2 ^ 53) : lo - 1.0 < hi + 1.0 :=
  Number.lt_of_le_of_lt (Number.le_trans (sub_one_le hlo) hle) (lt_add_one hhi hsmall)

end Units

section Padding

theorem three_mul_le_largest : 3 * 2 ^ 1022 ≤ largest := by
  have hsplit : (2 : ℚ) ^ 51 * 2 ^ (971 : ℤ) = 2 ^ 1022 := two_pow_mul_zpow (by norm_num)
  rw [largest, ← hsplit, ← mul_assoc]
  exact mul_le_mul_of_nonneg_right (by norm_num) (two_zpow_pos 971).le

theorem exists_twice : ∃ x : Float, x.isFinite = true ∧ value x = 2 * 2 ^ 1022 := by
  obtain ⟨x, hx, hvalue⟩ := exists_value (k := 2 ^ 52) (t := 971) (by norm_num) (by norm_num)
    (magnitude_lt_top (by norm_num) le_rfl)
  refine ⟨x, hx, hvalue.trans ?_⟩
  rw [← pow_succ', Nat.cast_pow, Nat.cast_ofNat, two_pow_mul_zpow (j := 1023) (by norm_num)]

theorem twentieth_bounds :
    (0.05 : Float).isFinite = true ∧ 0 ≤ value 0.05 ∧ value 0.05 ≤ 1 := by
  have hfinite : (0.05 : Float).isFinite = true := by decide +kernel
  have hlower : (0.0 : Float) ≤ 0.05 := by decide +kernel
  have hupper : (0.05 : Float) ≤ 1.0 := by decide +kernel
  rw [le_iff_value zero_value.1 hfinite, zero_value.2] at hlower
  rw [le_iff_value hfinite value_one.1, value_one.2] at hupper
  exact ⟨hfinite, hlower, hupper⟩

variable (hlo : lo.isFinite = true) (hhi : hi.isFinite = true) (hlt : lo < hi)

include hlo hhi hlt

theorem sub_lt_add_of_nonneg {pad : Float} (hpad : pad.isFinite = true)
    (hnonneg : 0 ≤ value pad) : lo - pad < hi + pad := by
  have hbelow : lo - pad ≤ lo := (rounds_sub hlo hpad).ge hlo (by linarith)
  have habove : hi ≤ hi + pad := (rounds_add hhi hpad).le hhi (by linarith)
  exact Number.lt_of_le_of_lt hbelow (Number.lt_of_lt_of_le hlt habove)

theorem length_nonneg (hlength : (hi - lo).isFinite = true) : 0 ≤ value (hi - lo) := by
  rw [lt_iff_value hlo hhi] at hlt
  exact (rounds_sub hhi hlo).nonneg hlength (by linarith)

theorem twentieth_nonneg (hpad : ((hi - lo) * 0.05).isFinite = true) :
    0 ≤ value ((hi - lo) * 0.05) := by
  obtain ⟨hfinite, hnonneg, -⟩ := twentieth_bounds
  have hlength := isFinite_of_isFinite_mul hpad
  have hproduct := mul_nonneg (length_nonneg hlo hhi hlt hlength) hnonneg
  exact (rounds_mul hlength hfinite).nonneg hpad hproduct

/-- Numbers that are not among the very largest have room for a twentieth of their range. -/
theorem isFinite_padded (hsmall : |value lo| < 2 ^ 1022) (hsmall' : |value hi| < 2 ^ 1022) :
    (lo - (hi - lo) * 0.05).isFinite = true ∧ (hi + (hi - lo) * 0.05).isFinite = true := by
  have hpos : (0 : ℚ) < 2 ^ 1022 := by positivity
  have htop := three_mul_le_largest
  obtain ⟨twice, htwice, hvalue⟩ := exists_twice
  generalize (2 : ℚ) ^ 1022 = bound at hsmall hsmall' hpos htop hvalue
  have hsum : |value hi - value lo| ≤ |value hi| + |value lo| := abs_sub _ _
  have hrounds := rounds_sub hhi hlo
  have hlength : (hi - lo).isFinite = true := hrounds.isFinite_of_abs_le (by linarith)
  have hlengthle := hrounds.value_le hlength htwice (by linarith [le_abs_self (value hi - value lo)])
  -- A twentieth of the length is not longer than the length.
  obtain ⟨hfinite, hnonneg, hone⟩ := twentieth_bounds
  have hlengthnonneg := length_nonneg hlo hhi hlt hlength
  have hproduct := rounds_mul hlength hfinite
  have hle := mul_le_of_le_one_right hlengthnonneg hone
  have hpad := hproduct.isFinite_of_nonneg hlength (mul_nonneg hlengthnonneg hnonneg) hle
  have habs : |value ((hi - lo) * 0.05)| ≤ 2 * bound := by
    rw [abs_of_nonneg (twentieth_nonneg hlo hhi hlt hpad), ← hvalue]
    exact (hproduct.value_le hpad hlength hle).trans hlengthle
  constructor
  · exact (rounds_sub hlo hpad).isFinite_of_abs_le ((abs_sub _ _).trans (by linarith))
  · exact (rounds_add hhi hpad).isFinite_of_abs_le ((abs_add_le _ _).trans (by linarith))

end Padding

end TracePlot.Number
