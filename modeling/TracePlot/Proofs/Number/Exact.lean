import TracePlot.Proofs.Number.Bounds
import TracePlot.Proofs.Number.Whole

/-! The exact values of numbers of the format. Finite numbers compare as their values do, and a
whole mantissa of few enough digits times a power of two is the value of a number. -/

open Float.Model Float.Model.UnpackedFloat

namespace TracePlot.Number

def withSign : Sign → ℚ → ℚ
  | .negative, q => -q
  | .positive, q => q

def exact : UnpackedFloat → ℚ
  | .finite s m e _ => withSign s (m * 2 ^ e)
  | _ => 0

theorem canonical_bounds {s : Sign} {n : Nat} {f : Int} {h : 0 < n}
    (hc : Canonical (.finite s n f h)) :
    -1074 ≤ f ∧ f ≤ 971 ∧ (f = -1074 ∨ 2 ^ 52 ≤ n) ∧ n < 2 ^ 53 := by
  cases hc <;> omega

theorem two_zpow_pos (e : ℤ) : (0 : ℚ) < 2 ^ e := by
  positivity

theorem two_zpow_le {e f : ℤ} (h : e ≤ f) : (2 : ℚ) ^ e ≤ 2 ^ f :=
  zpow_le_zpow_right₀ (by norm_num) h

theorem two_zpow_succ (e : ℤ) : (2 : ℚ) ^ (e + 1) = 2 * 2 ^ e := by
  rw [zpow_add_one₀ (by norm_num), mul_comm]

theorem two_pow_mul_zpow {i j : Nat} {e : ℤ} (h : i + e = j) :
    (2 : ℚ) ^ i * 2 ^ e = 2 ^ j := by
  rw [← zpow_natCast, ← zpow_natCast, ← zpow_add₀ (by norm_num), h]

section Magnitude

variable {m n : Nat} {e f : ℤ}

/-- Numbers with all their digits at a larger exponent are larger. -/
theorem magnitude_lt (hef : e < f) (hm : m < 2 ^ 53) (hn : 2 ^ 52 ≤ n) :
    (m : ℚ) * 2 ^ e < n * 2 ^ f := by
  have hm' : (m : ℚ) < 2 ^ 53 := by exact_mod_cast hm
  have hn' : (2 : ℚ) ^ 52 ≤ n := by exact_mod_cast hn
  calc (m : ℚ) * 2 ^ e < 2 ^ 53 * 2 ^ e := mul_lt_mul_of_pos_right hm' (two_zpow_pos e)
    _ = 2 ^ 52 * 2 ^ (e + 1) := by rw [two_zpow_succ]; ring
    _ ≤ n * 2 ^ f := mul_le_mul hn' (two_zpow_le hef) (two_zpow_pos _).le (by positivity)

theorem magnitude_le_iff {s t : Sign} {hm : 0 < m} {hn : 0 < n}
    (ha : Canonical (.finite s m e hm)) (hb : Canonical (.finite t n f hn)) :
    (m : ℚ) * 2 ^ e ≤ n * 2 ^ f ↔ (e + 1074) * 2 ^ 52 + (m : ℤ) ≤ (f + 1074) * 2 ^ 52 + n := by
  obtain ⟨heleast, -, hmlong, hmfits⟩ := canonical_bounds ha
  obtain ⟨hfleast, -, hnlong, hnfits⟩ := canonical_bounds hb
  rcases lt_trichotomy e f with hef | rfl | hef
  · exact iff_of_true (magnitude_lt hef hmfits (by omega)).le (by omega)
  · rw [mul_le_mul_iff_left₀ (two_zpow_pos e), Nat.cast_le]
    omega
  · exact iff_of_false (not_le.mpr (magnitude_lt hef hnfits (by omega))) (by omega)

end Magnitude

section Order

variable {a b : UnpackedFloat}

theorem exact_pos {m : Nat} {e : ℤ} (h : 0 < m) : 0 < exact (.finite .positive m e h) := by
  rw [exact, withSign]
  positivity

theorem exact_neg {m : Nat} {e : ℤ} (h : 0 < m) : exact (.finite .negative m e h) < 0 := by
  rw [exact, withSign, neg_lt_zero]
  positivity

theorem place_le_iff (ha : Canonical a) (hb : Canonical b) (hfa : a.isFinite = true)
    (hfb : b.isFinite = true) : place a ≤ place b ↔ exact a ≤ exact b := by
  cases a with
  | notANumber => cases hfa
  | infinity s => cases hfa
  | zero s =>
    cases b with
    | notANumber => cases hfb
    | infinity t => cases hfb
    | zero t => simp [place, exact]
    | finite t n f hn =>
      have hplace := place_finite_bounds hb
      cases t with
      | negative =>
        refine iff_of_false ?_ (not_le.mpr (exact_neg hn))
        simp only [place, Sign.apply]
        omega
      | positive =>
        refine iff_of_true ?_ (exact_pos hn).le
        simp only [place, Sign.apply]
        omega
  | finite s m e hm =>
    have hplace := place_finite_bounds ha
    cases b with
    | notANumber => cases hfb
    | infinity t => cases hfb
    | zero t =>
      cases s with
      | negative =>
        refine iff_of_true ?_ (exact_neg hm).le
        simp only [place, Sign.apply]
        omega
      | positive =>
        refine iff_of_false ?_ (not_le.mpr (exact_pos hm))
        simp only [place, Sign.apply]
        omega
    | finite t n f hn =>
      have hplace' := place_finite_bounds hb
      cases s <;> cases t
      · simp only [place, exact, Sign.apply, withSign, neg_le_neg_iff]
        exact (magnitude_le_iff hb ha).symm
      · refine iff_of_true ?_ ((exact_neg hm).trans (exact_pos hn)).le
        simp only [place, Sign.apply]
        omega
      · refine iff_of_false ?_ (not_le.mpr ((exact_neg hn).trans (exact_pos hm)))
        simp only [place, Sign.apply]
        omega
      · exact (magnitude_le_iff ha hb).symm

end Order

section Packed

variable {s : Sign} {m : Nat} {e : Int} (h : 0 < m)

theorem unpack_packedInfinity (s : Sign) :
    unpack Format.binary64 (packedInfinity Format.binary64 s) = .infinity s := by
  cases s <;> rfl

theorem unpack_pack_zero (s : Sign) :
    unpack Format.binary64 (UnpackedFloat.pack Format.binary64 (.zero s)) = .zero s := by
  cases s <;> rfl

theorem unpack_pack_subnormal (hm : m < 2 ^ 52) :
    unpack Format.binary64 (UnpackedFloat.pack Format.binary64 (.finite s m (-1074) h)) =
      .finite s m (-1074) h := by
  have hlog : m.log2 < 52 := (Nat.log2_lt h.ne').mpr hm
  have hpack : UnpackedFloat.pack Format.binary64 (.finite s m (-1074) h) =
      packComponents Format.binary64 s 0#11 (BitVec.ofNat 52 m) := by
    rw [UnpackedFloat.pack]
    have hfull : ¬ m.log2 + 1 = Format.binary64.mantissaBits := by
      change ¬ m.log2 + 1 = 53
      omega
    rw [if_neg (by decide), if_neg hfull]
  have htoNat : (BitVec.ofNat 52 m).toNat = m := by
    rw [BitVec.toNat_ofNat]
    omega
  have hne : BitVec.ofNat 52 m ≠ 0#52 := by
    rw [ne_eq, ← BitVec.toNat_inj, htoNat]
    simpa using h.ne'
  rw [hpack, UnpackedFloat.unpack]
  simp only [unpackMantissa_packComponents, unpackExponent_packComponents,
    unpackSign_packComponents, Sign.ofBitVec_toBitVec, hne, htoNat]
  rfl

theorem pack_overflow (he : 972 ≤ e) :
    UnpackedFloat.pack Format.binary64 (.finite s m e h) = packedInfinity Format.binary64 s := by
  have hbiased : 2 ^ Format.binary64.exponentBits ≤ (e + Format.binary64.exponentBias +
      Format.binary64.mantissaBitsWithoutImplicit).toNat + 1 := by
    change 2 ^ 11 ≤ (e + 1023 + 52).toNat + 1
    omega
  rw [UnpackedFloat.pack, if_pos hbiased]

theorem place_pack_finite (hleast : -1074 ≤ e) (hlong : e = -1074 ∨ 2 ^ 52 ≤ m)
    (hfits : m < 2 ^ 53) :
    (unpack Format.binary64 (UnpackedFloat.pack Format.binary64 (.finite s m e h))).isNaN = false ∧
      place (unpack Format.binary64 (UnpackedFloat.pack Format.binary64 (.finite s m e h))) =
        s.apply (min ((e + 1074) * 2 ^ 52 + m) (2047 * 2 ^ 52)) := by
  by_cases he : e ≤ 971
  · have hsame : unpack Format.binary64 (UnpackedFloat.pack Format.binary64 (.finite s m e h)) =
        .finite s m e h := by
      by_cases hnormal : 2 ^ 52 ≤ m
      · exact unpack_pack_normal s m e h hnormal hfits hleast he
      · have he := hlong.resolve_right hnormal
        subst he
        exact unpack_pack_subnormal h (by omega)
    rw [hsame, min_eq_left (by omega)]
    exact ⟨rfl, rfl⟩
  · rw [pack_overflow h (by omega), unpack_packedInfinity, min_eq_right (by omega)]
    exact ⟨rfl, rfl⟩

end Packed

def repacked (a : UnpackedFloat) : UnpackedFloat :=
  unpack Format.binary64 (UnpackedFloat.pack Format.binary64 a)

theorem repacked_of_canonical {a : UnpackedFloat} (ha : Canonical a) : repacked a = a := by
  cases ha with
  | notANumber => rfl
  | infinity s => exact unpack_packedInfinity s
  | zero s => exact unpack_pack_zero s
  | subnormal s m h hm => exact unpack_pack_subnormal h hm
  | normal s m e h hlo hhi helo hehi => exact unpack_pack_normal s m e h hlo hhi helo hehi

theorem exists_of_canonical {a : UnpackedFloat} (ha : Canonical a) :
    ∃ x : Float, x.toModel.unpack = a :=
  ⟨⟨Float.Model.pack a⟩, repacked_of_canonical ha⟩

/-- The exact value of a finite number. -/
def value (x : Float) : ℚ :=
  exact x.toModel.unpack

section Value

variable {x y : Float}

theorem le_iff_value (hx : x.isFinite = true) (hy : y.isFinite = true) :
    x ≤ y ↔ value x ≤ value y := by
  rw [le_iff]
  simp only [isNaN_of_isFinite hx, isNaN_of_isFinite hy, true_and]
  exact place_le_iff (unpack_spec _).1 (unpack_spec _).1 hx hy

theorem lt_iff_value (hx : x.isFinite = true) (hy : y.isFinite = true) :
    x < y ↔ value x < value y := by
  rw [← Number.not_le (isNaN_of_isFinite hy) (isNaN_of_isFinite hx), le_iff_value hy hx, not_le]

theorem beq_iff_value (hx : x.isFinite = true) (hy : y.isFinite = true) :
    (x == y) = true ↔ value x = value y := by
  have hxy := place_le_iff (unpack_spec x.toModel.toBits.toBitVec).1
    (unpack_spec y.toModel.toBits.toBitVec).1 hx hy
  have hyx := place_le_iff (unpack_spec y.toModel.toBits.toBitVec).1
    (unpack_spec x.toModel.toBits.toBitVec).1 hy hx
  rw [beq_iff_position (isNaN_of_isFinite hx) (isNaN_of_isFinite hy), le_antisymm_iff,
    le_antisymm_iff]
  exact and_congr hxy hyx

theorem value_ofNat {n : Nat} (hn : n < 2 ^ 53) :
    (Float.ofNat n).isFinite = true ∧ value (Float.ofNat n) = n := by
  have hform := unpack_ofNat hn
  change (Float.ofNat n).toModel.unpack.isFinite = true ∧ exact (Float.ofNat n).toModel.unpack = n
  rw [hform]
  by_cases h : 0 < n
  · rw [wholeForm_of_pos h]
    refine ⟨rfl, ?_⟩
    rw [exact, withSign, zero_sub]
    push_cast
    rw [zpow_neg, zpow_natCast, mul_assoc, mul_inv_cancel₀ (by positivity), mul_one]
  · obtain rfl : n = 0 := by omega
    exact ⟨rfl, rfl⟩

theorem value_of_whole_form {n : Nat} (hform : x.toModel.unpack = wholeForm n) (hn : n < 2 ^ 53) :
    x.isFinite = true ∧ value x = n := by
  have hwhole := value_ofNat hn
  change (Float.ofNat n).toModel.unpack.isFinite = true ∧ exact (Float.ofNat n).toModel.unpack = n
    at hwhole
  rwa [unpack_ofNat hn, ← hform] at hwhole

theorem magnitude_lt_top {m : Nat} {e : ℤ} (hm : m < 2 ^ 53) (he : e ≤ 971) :
    (m : ℚ) * 2 ^ e < 2 ^ 1024 := by
  have hm' : (m : ℚ) < 2 ^ 53 := by exact_mod_cast hm
  calc (m : ℚ) * 2 ^ e < 2 ^ 53 * 2 ^ e := mul_lt_mul_of_pos_right hm' (two_zpow_pos e)
    _ ≤ 2 ^ 53 * 2 ^ (971 : ℤ) := mul_le_mul_of_nonneg_left (two_zpow_le he) (by positivity)
    _ = 2 ^ 1024 := two_pow_mul_zpow (by norm_num)

theorem abs_exact_finite {s : Sign} {m : Nat} {e : ℤ} (h : 0 < m) :
    |exact (.finite s m e h)| = m * 2 ^ e := by
  cases s <;> simp [exact, withSign, abs_of_pos (two_zpow_pos e)]

theorem abs_exact_lt {a : UnpackedFloat} (ha : Canonical a) : |exact a| < 2 ^ 1024 := by
  cases a with
  | notANumber => simp [exact]
  | infinity s => simp [exact]
  | zero s => simp [exact]
  | finite s m e h =>
    obtain ⟨-, hgreatest, -, hfits⟩ := canonical_bounds ha
    rw [abs_exact_finite]
    exact magnitude_lt_top hfits hgreatest

theorem abs_value_lt (x : Float) : |value x| < 2 ^ 1024 :=
  abs_exact_lt (unpack_spec _).1

/-- The exponent of the last digit of a form. -/
def grade : UnpackedFloat → ℤ
  | .finite _ _ e _ => e
  | _ => -1074

/-- How far the next numbers of the same length are apart. -/
def step (x : Float) : ℚ :=
  2 ^ grade x.toModel.unpack

theorem step_bounds (x : Float) :
    -1074 ≤ grade x.toModel.unpack ∧ value x < 2 ^ 53 * step x := by
  have hcanonical : Canonical x.toModel.unpack := (unpack_spec _).1
  unfold value step
  cases hform : x.toModel.unpack with
  | notANumber => exact ⟨le_rfl, by simp only [exact]; positivity⟩
  | infinity s => exact ⟨le_rfl, by simp only [exact]; positivity⟩
  | zero s => exact ⟨le_rfl, by simp only [exact]; positivity⟩
  | finite s m e h =>
    rw [hform] at hcanonical
    obtain ⟨hleast, -, -, hfits⟩ := canonical_bounds hcanonical
    refine ⟨hleast, ?_⟩
    cases s with
    | negative => exact (exact_neg h).trans (by positivity)
    | positive =>
      have hfits : (m : ℚ) < 2 ^ 53 := by exact_mod_cast hfits
      exact mul_lt_mul_of_pos_right hfits (two_zpow_pos e)

/-- A mantissa of few enough digits is widened until it has all digits of the format or the least
exponent. -/
theorem exists_canonical {k : Nat} {t : ℤ} (hpos : 0 < k) (hk : k < 2 ^ 53) (ht : -1074 ≤ t)
    (hfits : (k : ℚ) * 2 ^ t < 2 ^ 1024) :
    ∃ (m : Nat) (e : ℤ) (hm : 0 < m), Canonical (.finite .positive m e hm) ∧
      (m : ℚ) * 2 ^ e = k * 2 ^ t := by
  have hsame (j : Nat) : ((k * 2 ^ j : Nat) : ℚ) * 2 ^ (t - j) = k * 2 ^ t := by
    rw [zpow_sub₀ (by norm_num), zpow_natCast]
    push_cast
    field_simp
  have hlog : k.log2 < 53 := (Nat.log2_lt hpos.ne').mpr hk
  by_cases hroom : (52 - k.log2 : Nat) ≤ t + 1074
  · obtain ⟨hlo, hhi⟩ := whole_bounds hpos hk
    have hvalue := hsame (52 - k.log2)
    have hexponent : t - (52 - k.log2 : Nat) < 972 := by
      by_contra hlarge
      have htop : (2 : ℚ) ^ 52 * 2 ^ (972 : ℤ) ≤
          (k * 2 ^ (52 - k.log2) : Nat) * 2 ^ (t - (52 - k.log2 : Nat)) := by
        refine mul_le_mul (by exact_mod_cast hlo) (two_zpow_le (by omega)) (by positivity) ?_
        positivity
      rw [hvalue, two_pow_mul_zpow (j := 1024) (by norm_num)] at htop
      exact hfits.not_ge htop
    exact ⟨_, _, by positivity, .normal _ _ _ _ hlo hhi (by omega) (by omega), hvalue⟩
  · have hvalue := hsame (t + 1074).toNat
    have hexponent : t - ((t + 1074).toNat : Nat) = -1074 := by omega
    have hshort : k * 2 ^ (t + 1074).toNat < 2 ^ 52 :=
      calc k * 2 ^ (t + 1074).toNat < 2 ^ (k.log2 + 1) * 2 ^ (t + 1074).toNat :=
            Nat.mul_lt_mul_of_pos_right Nat.lt_log2_self (by positivity)
        _ = 2 ^ (k.log2 + 1 + (t + 1074).toNat) := (pow_add _ _ _).symm
        _ ≤ 2 ^ 52 := Nat.pow_le_pow_right (by omega) (by omega)
    rw [hexponent] at hvalue
    exact ⟨_, _, by positivity, .subnormal _ _ _ hshort, hvalue⟩

theorem exists_value {k : Nat} {t : ℤ} (hk : k ≤ 2 ^ 53) (ht : -1074 ≤ t)
    (hfits : (k : ℚ) * 2 ^ t < 2 ^ 1024) :
    ∃ x : Float, x.isFinite = true ∧ value x = k * 2 ^ t := by
  have hform {m : Nat} {e : ℤ} {hm : 0 < m} (hc : Canonical (.finite .positive m e hm)) :
      ∃ x : Float, x.isFinite = true ∧ value x = m * 2 ^ e := by
    obtain ⟨x, hx⟩ := exists_of_canonical hc
    refine ⟨x, ?_, ?_⟩
    · change x.toModel.unpack.isFinite = true
      rw [hx]
      rfl
    · rw [value, hx, exact, withSign]
  rcases Nat.eq_zero_or_pos k with rfl | hpos
  · exact ⟨0.0, rfl, by simp [value]; rfl⟩
  · rcases hk.lt_or_eq with hlt | rfl
    · obtain ⟨m, e, hm, hc, hvalue⟩ := exists_canonical hpos hlt ht hfits
      rw [← hvalue]
      exact hform hc
    · have hcarried : ((2 ^ 53 : Nat) : ℚ) * 2 ^ t = (2 ^ 52 : Nat) * 2 ^ (t + 1) := by
        rw [two_zpow_succ]
        push_cast
        ring
      rw [hcarried] at hfits ⊢
      obtain ⟨m, e, hm, hc, hvalue⟩ :=
        exists_canonical (by positivity) (by norm_num) (by omega) hfits
      rw [← hvalue]
      exact hform hc

end Value

end TracePlot.Number
