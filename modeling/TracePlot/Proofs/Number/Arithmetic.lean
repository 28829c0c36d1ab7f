import TracePlot.Proofs.Number.Rounding

/-! Arithmetic on finite numbers. Sums, differences, products and quotients are rounded from their
exact values, which bounds what is lost by one step of the format. -/

open Float.Model Float.Model.UnpackedFloat

namespace TracePlot.Number

section Operations

variable {a b : UnpackedFloat}

theorem formOf_add (ha : Canonical a) (hb : Canonical b) (hfa : a.isFinite = true)
    (hfb : b.isFinite = true) :
    FormOf (exact a + exact b) (UnpackedFloat.add Format.binary64 a b) := by
  cases a with
  | notANumber => cases hfa
  | infinity s => cases hfa
  | zero s =>
    have hzero : exact (.zero s) = 0 := rfl
    rw [hzero, zero_add]
    cases b with
    | notANumber => cases hfb
    | infinity t => cases hfb
    | zero t => cases s <;> cases t <;> exact formOf_zero _
    | finite t n f hn => exact formOf_canonical hb rfl
  | finite s m e hm =>
    cases b with
    | notANumber => cases hfb
    | infinity t => cases hfb
    | zero t =>
      have hzero : exact (.zero t) = 0 := rfl
      rw [hzero, add_zero]
      exact formOf_canonical ha rfl
    | finite t n f hn =>
      have hform := formOf_normalize (s.apply (m * 2 ^ (e - min e f).toNat : Nat) +
        t.apply (n * 2 ^ (f - min e f).toNat : Nat)) (min e f) .positive
      have hlower {s : Sign} {m : Nat} {e d : ℤ} (hd : d ≤ e) :
          ((s.apply (m * 2 ^ (e - d).toNat : Nat) : ℤ) : ℚ) * 2 ^ d = withSign s (m * 2 ^ e) := by
        have hsplit : (2 : ℚ) ^ e = 2 ^ (e - d).toNat * 2 ^ d := by
          rw [← zpow_natCast, ← zpow_add₀ (by norm_num)]
          congr 1
          omega
        rw [hsplit]
        cases s <;> simp [Sign.apply, withSign] <;> ring
      rw [Int.cast_add, add_mul, hlower (min_le_left e f), hlower (min_le_right e f)] at hform
      simpa only [exact, UnpackedFloat.add, decreaseExponent, Nat.shiftLeft_eq] using hform

theorem model_sub_eq (a b : UnpackedFloat) :
    UnpackedFloat.sub Format.binary64 a b = UnpackedFloat.add Format.binary64 a b.neg := by
  cases a with
  | notANumber => rfl
  | infinity s => cases b <;> rfl
  | zero s => cases b <;> rfl
  | finite s m e hm =>
    cases b with
    | notANumber => rfl
    | infinity t => rfl
    | zero t => rfl
    | finite t n f hn =>
      cases t <;>
        simp [UnpackedFloat.sub, UnpackedFloat.add, UnpackedFloat.neg, Sign.apply, sub_eq_add_neg]

theorem formOf_sub (ha : Canonical a) (hb : Canonical b) (hfa : a.isFinite = true)
    (hfb : b.isFinite = true) :
    FormOf (exact a - exact b) (UnpackedFloat.sub Format.binary64 a b) := by
  rw [model_sub_eq, sub_eq_add_neg, ← exact_of_neg]
  exact formOf_add ha (canonical_neg hb) hfa (by rwa [isFinite_neg])

theorem withSign_mul (s t : Sign) (p q : ℚ) :
    withSign (s * t) (p * q) = withSign s p * withSign t q := by
  cases s <;> cases t <;> simp [withSign]

theorem withSign_div (s t : Sign) (p q : ℚ) :
    withSign (s / t) (p / q) = withSign s p / withSign t q := by
  cases s <;> cases t
  · exact (neg_div_neg_eq p q).symm
  · exact (neg_div q p).symm
  · exact (div_neg p).symm
  · rfl

theorem formOf_mul (ha : Canonical a) (hb : Canonical b) (hfa : a.isFinite = true)
    (hfb : b.isFinite = true) :
    FormOf (exact a * exact b) (UnpackedFloat.mul Format.binary64 a b) := by
  cases a with
  | notANumber => cases hfa
  | infinity s => cases hfa
  | zero s =>
    have hzero : exact (.zero s) = 0 := rfl
    rw [hzero, zero_mul]
    cases b with
    | notANumber => cases hfb
    | infinity t => cases hfb
    | zero t => exact formOf_zero _
    | finite t n f hn => exact formOf_zero _
  | finite s m e hm =>
    cases b with
    | notANumber => cases hfb
    | infinity t => cases hfb
    | zero t =>
      have hzero : exact (.zero t) = 0 := rfl
      rw [hzero, mul_zero]
      exact formOf_zero _
    | finite t n f hn =>
      obtain ⟨heleast, -, hmlong, -⟩ := canonical_bounds ha
      obtain ⟨hfleast, -, hnlong, -⟩ := canonical_bounds hb
      have he : e + f ≤ target (m * n) (e + f) := by
        have hlong : e + f ≤ -1074 ∨ 2 ^ 52 ≤ m * n := by
          rcases hmlong with hm' | hm'
          · rcases hnlong with hn' | hn'
            · exact .inl (by omega)
            · exact .inr (hn'.trans (Nat.le_mul_of_pos_left n hm))
          · exact .inr (hm'.trans (Nat.le_mul_of_pos_right m hn))
        exact le_target hlong
      have hsame : exact (.finite s m e hm) * exact (.finite t n f hn) =
          withSign (s * t) ((m * n : Nat) * 2 ^ (e + f)) := by
        rw [exact, exact, ← withSign_mul, zpow_add₀ (by norm_num)]
        push_cast
        ring_nf
      rw [hsame]
      exact formOf_roundWithAccuracy (s * t) he (reads_exact _)

/-- Dividing leaves a mantissa of enough digits, or the least exponent. -/
theorem quotient_long {m n : Nat} {e f : ℤ} (hm : 0 < m) (hn : 0 < n) {g : ℤ}
    (hg : g = min (e - f) (max (m.log2 + 1 + e - (n.log2 + 1 + f) - 53) (-1074))) :
    g ≤ -1074 ∨ 2 ^ 52 ≤ m * 2 ^ (e - f - g).toNat / n := by
  by_cases hleast : g ≤ -1074
  · exact .inl hleast
  · right
    have hlog : n.log2 + 53 ≤ m.log2 + (e - f - g).toNat := by omega
    rw [Nat.le_div_iff_mul_le hn]
    calc 2 ^ 52 * n ≤ 2 ^ 52 * 2 ^ (n.log2 + 1) := Nat.mul_le_mul_left _ Nat.lt_log2_self.le
      _ = 2 ^ (n.log2 + 53) := by rw [← pow_add]; congr 1; omega
      _ ≤ 2 ^ (m.log2 + (e - f - g).toNat) := Nat.pow_le_pow_right (by omega) hlog
      _ = 2 ^ m.log2 * 2 ^ (e - f - g).toNat := pow_add _ _ _
      _ ≤ m * 2 ^ (e - f - g).toNat := Nat.mul_le_mul_right _ (Nat.log2_self_le hm.ne')

theorem reads_quotient (m : Nat) {n : Nat} (hn : 0 < n) :
    Reads (.ofMantissaAndAccuracy (m / n) (accuracyOfFraction (m % n) n)) (m / n) := by
  have hn' : (0 : ℚ) < n := by exact_mod_cast hn
  have hsplit : (m : ℚ) = n * (m / n : Nat) + (m % n : Nat) := by
    exact_mod_cast (Nat.div_add_mod m n).symm
  have hmod : ((m % n : Nat) : ℚ) < n := by exact_mod_cast Nat.mod_lt m hn
  have hle : ((m / n : Nat) : ℚ) ≤ m / n := Nat.cast_div_le
  refine ⟨?_, ?_, fun hq => ?_⟩
  · rwa [mantissa_ofMantissaAndAccuracy]
  · rw [mantissa_ofMantissaAndAccuracy, div_lt_iff₀ hn']
    linarith
  · rw [mantissa_ofMantissaAndAccuracy, div_eq_iff hn'.ne'] at hq
    have hrest : ((m % n : Nat) : ℚ) = 0 := by linarith
    have hrest : m % n = 0 := by exact_mod_cast hrest
    rw [hrest]
    rfl

theorem formOf_div (ha : Canonical a) (hb : Canonical b) (hfa : a.isFinite = true)
    (hfb : b.isFinite = true) (hne : exact b ≠ 0) :
    FormOf (exact a / exact b) (UnpackedFloat.div Format.binary64 a b) := by
  cases b with
  | notANumber => cases hfb
  | infinity t => cases hfb
  | zero t => exact absurd rfl hne
  | finite t n f hn =>
    cases a with
    | notANumber => cases hfa
    | infinity s => cases hfa
    | zero s =>
      have hzero : exact (.zero s) = 0 := rfl
      rw [hzero, zero_div]
      exact formOf_zero _
    | finite s m e hm =>
      let g := min (e - f) (max (m.log2 + 1 + e - (n.log2 + 1 + f) - 53) (-1074))
      have hlong := quotient_long (e := e) (f := f) hm hn rfl
      have hreads := reads_quotient (m * 2 ^ (e - f - g).toNat) hn
      have hsame : exact (.finite s m e hm) / exact (.finite t n f hn) =
          withSign (s / t) ((m * 2 ^ (e - f - g).toNat : Nat) / n * 2 ^ g) := by
        have hsplit : (2 : ℚ) ^ e = 2 ^ (e - f - g).toNat * 2 ^ g * 2 ^ f := by
          have hg : g ≤ e - f := min_le_left _ _
          rw [← zpow_natCast, ← zpow_add₀ (by norm_num), ← zpow_add₀ (by norm_num)]
          congr 1
          omega
        rw [exact, exact, ← withSign_div, hsplit]
        congr 1
        push_cast
        field_simp
      have hdiv : UnpackedFloat.div Format.binary64 (.finite s m e hm) (.finite t n f hn) =
          roundWithAccuracy Format.binary64 (s / t) (m * 2 ^ (e - f - g).toNat / n) g
            (accuracyOfFraction (m * 2 ^ (e - f - g).toNat % n) n) := by
        rw [← Nat.shiftLeft_eq]
        rfl
      rw [hsame, hdiv]
      exact formOf_roundWithAccuracy (s / t) (le_target hlong) hreads

end Operations

/-- The number is next to `q`: the finite numbers are on the same sides of it as of `q`, and it is
finite only if `q` is in range. -/
def Rounds (q : ℚ) (x : Float) : Prop :=
  x.isNaN = false ∧ RoundsTo q (position x)

section Results

variable {x y : Float} {q : ℚ}

theorem rounds_add (hx : x.isFinite = true) (hy : y.isFinite = true) :
    Rounds (value x + value y) (x + y) :=
  formOf_add (unpack_spec _).1 (unpack_spec _).1 hx hy

theorem rounds_sub (hx : x.isFinite = true) (hy : y.isFinite = true) :
    Rounds (value x - value y) (x - y) :=
  formOf_sub (unpack_spec _).1 (unpack_spec _).1 hx hy

theorem rounds_mul (hx : x.isFinite = true) (hy : y.isFinite = true) :
    Rounds (value x * value y) (x * y) :=
  formOf_mul (unpack_spec _).1 (unpack_spec _).1 hx hy

theorem rounds_div (hx : x.isFinite = true) (hy : y.isFinite = true) (hne : value y ≠ 0) :
    Rounds (value x / value y) (x / y) :=
  formOf_div (unpack_spec _).1 (unpack_spec _).1 hx hy hne

theorem Rounds.le (h : Rounds q x) (hy : y.isFinite = true) (hle : value y ≤ q) : y ≤ x :=
  le_iff.mpr ⟨isNaN_of_isFinite hy, h.1, h.2.le_of_le _ (unpack_spec _).1 hy hle⟩

theorem Rounds.ge (h : Rounds q x) (hy : y.isFinite = true) (hge : q ≤ value y) : x ≤ y :=
  le_iff.mpr ⟨h.1, isNaN_of_isFinite hy, h.2.ge_of_ge _ (unpack_spec _).1 hy hge⟩

theorem Rounds.abs_lt_top (h : Rounds q x) (hx : x.isFinite = true) : |q| < 2 ^ 1024 :=
  h.2.in_range (abs_lt.mpr ((isFinite_iff_position h.1).mp hx))

theorem Rounds.value_le (h : Rounds q x) (hx : x.isFinite = true) (hy : y.isFinite = true)
    (hle : q ≤ value y) : value x ≤ value y :=
  (le_iff_value hx hy).mp (h.ge hy hle)

theorem Rounds.le_value (h : Rounds q x) (hx : x.isFinite = true) (hy : y.isFinite = true)
    (hle : value y ≤ q) : value y ≤ value x :=
  (le_iff_value hy hx).mp (h.le hy hle)

theorem Rounds.isFinite_of_between {z : Float} (h : Rounds q x) (hy : y.isFinite = true)
    (hz : z.isFinite = true) (hyq : value y ≤ q) (hqz : q ≤ value z) : x.isFinite = true :=
  Number.isFinite_of_between hy hz (h.le hy hyq) (h.ge hz hqz)

theorem Rounds.value_eq (h : Rounds (value y) x) (hy : y.isFinite = true) :
    x.isFinite = true ∧ value x = value y := by
  have hx : x.isFinite = true := h.isFinite_of_between hy hy le_rfl le_rfl
  exact ⟨hx, le_antisymm (h.value_le hx hy le_rfl) (h.le_value hx hy le_rfl)⟩

/-- A finite result is off by at most one step of the format at an exponent that has room for the
exact one. -/
theorem Rounds.error (h : Rounds q x) (hx : x.isFinite = true) (hq : 0 ≤ q) {t : ℤ}
    (ht : -1074 ≤ t) (hfits : q < 2 ^ 53 * 2 ^ t) : |value x - q| ≤ 2 ^ t := by
  have htop : q < 2 ^ 53 * 2 ^ (971 : ℤ) := by
    rw [two_pow_mul_zpow (j := 1024) (by norm_num)]
    exact (le_abs_self q).trans_lt (h.abs_lt_top hx)
  -- No number of the format has a larger exponent than 971.
  wlog hgreatest : t ≤ 971 generalizing t
  · exact (this (by norm_num) htop le_rfl).trans (two_zpow_le (by omega))
  have hpos := two_zpow_pos t
  let k := ⌊q / 2 ^ t⌋₊
  have hbelow : k * 2 ^ t ≤ q := (le_div_iff₀ hpos).mp (Nat.floor_le (div_nonneg hq hpos.le))
  have habove : q < (k + 1 : Nat) * 2 ^ t := by
    rw [← div_lt_iff₀ hpos]
    exact_mod_cast Nat.lt_floor_add_one (q / 2 ^ t)
  have hk : k < 2 ^ 53 := by
    refine Nat.floor_lt (div_nonneg hq hpos.le) |>.mpr ?_
    rw [div_lt_iff₀ hpos]
    exact_mod_cast hfits
  have hlower : k * 2 ^ t ≤ value x := by
    obtain ⟨y, hy, hvalue⟩ := exists_value hk.le ht (magnitude_lt_top hk hgreatest)
    rw [← hvalue] at hbelow ⊢
    exact h.le_value hx hy hbelow
  have hupper : value x ≤ (k + 1 : Nat) * 2 ^ t := by
    by_cases hin : ((k + 1 : Nat) : ℚ) * 2 ^ t < 2 ^ 1024
    · obtain ⟨y, hy, hvalue⟩ := exists_value hk ht hin
      rw [← hvalue] at habove ⊢
      exact h.value_le hx hy habove.le
    · exact ((le_abs_self _).trans_lt (abs_value_lt x)).le.trans (not_lt.mp hin)
  push_cast at habove hupper
  rw [abs_le]
  constructor <;> linarith

theorem zero_value : (0.0 : Float).isFinite = true ∧ value 0.0 = 0 :=
  ⟨rfl, rfl⟩

theorem Rounds.nonneg (h : Rounds q x) (hx : x.isFinite = true) (hq : 0 ≤ q) : 0 ≤ value x := by
  have hle := h.le_value hx zero_value.1 (by rwa [zero_value.2])
  rwa [zero_value.2] at hle

theorem Rounds.isFinite_of_nonneg (h : Rounds q x) (hy : y.isFinite = true) (hq : 0 ≤ q)
    (hle : q ≤ value y) : x.isFinite = true :=
  h.isFinite_of_between zero_value.1 hy (by rwa [zero_value.2]) hle

theorem rounds_self (hx : x.isFinite = true) : Rounds (value x) x := by
  have hcanonical : Canonical x.toModel.unpack := (unpack_spec _).1
  have hform := formOf_canonical hcanonical hx
  rwa [FormOf, repacked_of_canonical hcanonical] at hform

theorem rounds_ofNat (n : Nat) : Rounds n (Float.ofNat n) := by
  by_cases hn : n < 2 ^ 53
  · obtain ⟨hfinite, hvalue⟩ := value_ofNat hn
    rw [← hvalue]
    exact rounds_self hfinite
  · -- Larger numbers are rounded from a mantissa that is longer than the format has room for.
    have hread : Float.ofNat n = ⟨Float.Model.ofScientific n 0⟩ := by
      change Float.ofScientific n false 0 = _
      rw [Float.ofScientific, dif_neg fun h => hn h.1]
      rfl
    have hmul (m k : Nat) (e f : ℤ) (hm : 0 < m) (hk : 0 < k) :
        UnpackedFloat.mul Format.binary64 (.finite .positive m e hm) (.finite .positive k f hk) =
          roundWithAccuracy Format.binary64 .positive (m * k) (e + f) .exact := rfl
    have hwidth : Format.binary64.mantissaBits = 53 := rfl
    have hmodel : UnpackedFloat.ofScientific Format.binary64 n 0 =
        roundWithAccuracy Format.binary64 .positive (n * 2 ^ 53) (-53) .exact := by
      rw [UnpackedFloat.ofScientific, dif_neg (by omega), if_neg (by norm_num),
        if_neg (by norm_num), if_pos le_rfl, hmul]
      simp only [Int.toNat_zero, pow_zero, mul_one, add_zero, Nat.shiftLeft_eq, hwidth]
      rfl
    have hlong : 2 ^ 52 ≤ n * 2 ^ 53 := by omega
    have hround := formOf_roundWithAccuracy .positive (le_target (e := -53) (.inr hlong))
      (reads_exact (n * 2 ^ 53))
    have hsame : withSign .positive ((n * 2 ^ 53 : Nat) * 2 ^ (-53 : ℤ)) = n := by
      rw [withSign, Nat.cast_mul, mul_assoc]
      norm_num
    rw [hsame, ← hmodel] at hround
    rw [hread]
    exact hround

theorem ofNat_le_ofNat_of_le {a b : Nat} (ha : a < 2 ^ 53) (h : a ≤ b) :
    Float.ofNat a ≤ Float.ofNat b := by
  obtain ⟨hfinite, hvalue⟩ := value_ofNat ha
  refine (rounds_ofNat b).le hfinite ?_
  rw [hvalue]
  exact_mod_cast h

/-- Ids too large to be exact do not come to lie in a range of exact ones. -/
theorem ofNat_between_iff {a b : Nat} (hab : a ≤ b) (hb : b + 1 < 2 ^ 53) (n : Nat) :
    Float.ofNat a ≤ Float.ofNat n ∧ Float.ofNat n < Float.ofNat b + 1.0 ↔ a ≤ n ∧ n ≤ b := by
  by_cases hn : n < 2 ^ 53
  · rw [ofNat_le_ofNat (by omega) hn, ofNat_lt_ofNat_add_one hn hb]
  · have hlarge : Float.ofNat (b + 1) ≤ Float.ofNat n := ofNat_le_ofNat_of_le hb (by omega)
    constructor
    · rintro ⟨-, hlt⟩
      have hlt := (ofNat_lt_ofNat_add_one hb hb).mp (Number.lt_of_le_of_lt hlarge hlt)
      omega
    · rintro ⟨-, hle⟩
      omega

theorem unpack_of_value_eq_zero (hx : x.isFinite = true) (hzero : value x = 0) :
    ∃ s, x.toModel.unpack = .zero s := by
  change x.toModel.unpack.isFinite = true at hx
  rw [value] at hzero
  cases hform : x.toModel.unpack with
  | notANumber => rw [hform] at hx; cases hx
  | infinity s => rw [hform] at hx; cases hx
  | zero s => exact ⟨s, rfl⟩
  | finite s m e h =>
    rw [hform] at hzero
    cases s with
    | negative => exact absurd hzero (exact_neg h).ne
    | positive => exact absurd hzero (exact_pos h).ne'

/-- Zero divided by a positive number is zero. -/
theorem rounds_zero_div (hx : x.isFinite = true) (hzero : value x = 0) (hy : 0.0 < y) :
    Rounds 0 (x / y) := by
  obtain ⟨-, hnan, hplace⟩ := lt_iff.mp hy
  change y.toModel.unpack.isNaN = false at hnan
  change 0 < place y.toModel.unpack at hplace
  change FormOf 0 (UnpackedFloat.div Format.binary64 x.toModel.unpack y.toModel.unpack)
  obtain ⟨s, hs⟩ := unpack_of_value_eq_zero hx hzero
  rw [hs]
  cases hform : y.toModel.unpack with
  | notANumber => rw [hform] at hnan; cases hnan
  | infinity t => exact formOf_zero _
  | zero t => rw [hform] at hplace; cases hplace
  | finite t n f hn => exact formOf_zero _

theorem isFinite_repacked {a : UnpackedFloat} (h : (repacked a).isFinite = true) :
    a.isFinite = true := by
  cases a with
  | zero s => rfl
  | finite s m e hm => rfl
  | notANumber => exact absurd h (by decide)
  | infinity s => exact absurd h (by cases s <;> decide)

theorem isFinite_of_isFinite_div (h : (x / y).isFinite = true) : x.isFinite = true := by
  have hform (a b : UnpackedFloat)
      (h : (UnpackedFloat.div Format.binary64 a b).isFinite = true) : a.isFinite = true := by
    cases a with
    | zero s => rfl
    | finite s m e hm => rfl
    | notANumber => cases b <;> cases h
    | infinity s => cases b <;> cases h
  exact hform _ _ (isFinite_repacked h)

theorem isFinite_of_isFinite_add (h : (x + y).isFinite = true) : y.isFinite = true := by
  have hform (a b : UnpackedFloat)
      (h : (UnpackedFloat.add Format.binary64 a b).isFinite = true) : b.isFinite = true := by
    cases b with
    | zero s => rfl
    | finite s m e hm => rfl
    | notANumber => cases a <;> cases h
    | infinity s =>
      cases a with
      | infinity t => cases s <;> cases t <;> cases h
      | _ => cases h
  exact hform _ _ (isFinite_repacked h)

theorem value_one : (1.0 : Float).isFinite = true ∧ value 1.0 = 1 := by
  have hone := value_of_whole_form (x := 1.0) (n := 1) rfl (by norm_num)
  rwa [Nat.cast_one] at hone

/-- Adding one to a finite number does not make it smaller. -/
theorem le_add_one (hx : x.isFinite = true) : x ≤ x + 1.0 := by
  refine (rounds_add hx value_one.1).le hx ?_
  rw [value_one.2]
  linarith

end Results

end TracePlot.Number
