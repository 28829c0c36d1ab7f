import TracePlot.Proofs.Number.Exact

/-! Rounding to a number of the format keeps the order to the numbers of the format. A number that
is not above the exact result of an operation is not above the rounded one, whatever is lost. -/

open Float.Model Float.Model.UnpackedFloat

namespace TracePlot.Number

/-- The mantissa is the whole part of `q`, and no digit follows it when `q` is whole. -/
structure Reads (em : ExtendedMantissa) (q : ℚ) : Prop where
  le : em.mantissa ≤ q
  lt : q < em.mantissa + 1
  whole : q = em.mantissa → em.roundBit = false

section Reads

variable {em : ExtendedMantissa} {q : ℚ}

theorem reads_exact (m : Nat) : Reads (.ofMantissaAndAccuracy m .exact) m where
  le := le_rfl
  lt := lt_add_one _
  whole _ := rfl

theorem Reads.shiftRightOne (h : Reads em q) : Reads em.shiftRightOne (q / 2) := by
  have hle := h.le
  have hlt := h.lt
  have hsplit : (em.mantissa : ℚ) = 2 * (em.mantissa / 2 : Nat) + (em.mantissa % 2 : Nat) := by
    exact_mod_cast (Nat.div_add_mod em.mantissa 2).symm
  have hmod : ((em.mantissa % 2 : Nat) : ℚ) ≤ 1 := by
    exact_mod_cast Nat.le_of_lt_succ (Nat.mod_lt em.mantissa (by norm_num))
  have hmod' : (0 : ℚ) ≤ (em.mantissa % 2 : Nat) := by positivity
  refine ⟨?_, ?_, fun hq => ?_⟩
  · simp only [ExtendedMantissa.shiftRightOne]
    linarith
  · simp only [ExtendedMantissa.shiftRightOne]
    linarith
  · simp only [ExtendedMantissa.shiftRightOne] at hq ⊢
    have hzero : ((em.mantissa % 2 : Nat) : ℚ) = 0 := by linarith
    have heven : em.mantissa % 2 = 0 := by exact_mod_cast hzero
    simp [heven]

theorem Reads.shiftRight (h : Reads em q) (i : Nat) : Reads (em >>> i) (q / 2 ^ i) := by
  change Reads (i.repeat ExtendedMantissa.shiftRightOne em) _
  induction i with
  | zero => simpa [Nat.repeat] using h
  | succ i ih =>
    rw [Nat.repeat, pow_succ, ← div_div]
    exact ih.shiftRightOne

/-- The whole numbers on either side of `q` stay on their sides of the rounded mantissa. -/
theorem Reads.rounded (h : Reads em q) (k : Nat) :
    ((k : ℚ) ≤ q → k ≤ em.roundedMantissa) ∧ (q ≤ k → em.roundedMantissa ≤ k) := by
  have hle := h.le
  have hlt := h.lt
  have hwhole := h.whole
  have hbounds : em.mantissa ≤ em.roundedMantissa ∧
      (em.roundedMantissa = em.mantissa ∨ em.roundBit = true ∧
        em.roundedMantissa ≤ em.mantissa + 1) := by
    obtain ⟨m, half, rest⟩ := em
    cases half with
    | false => cases rest <;> exact ⟨le_rfl, .inl rfl⟩
    | true =>
      refine ⟨?_, .inr ⟨rfl, ?_⟩⟩
      all_goals
        cases rest <;> simp only [ExtendedMantissa.roundedMantissa, ExtendedMantissa.accuracy,
          Accuracy.roundToNearestEven] <;> omega
  constructor
  · intro hk
    have hfloor : (k : ℚ) < (em.mantissa + 1 : Nat) := by
      push_cast
      linarith
    have hfloor : k < em.mantissa + 1 := by exact_mod_cast hfloor
    omega
  · intro hk
    have hceil : (em.mantissa : ℚ) ≤ k := hle.trans hk
    have hceil : em.mantissa ≤ k := by exact_mod_cast hceil
    rcases hbounds.2 with hsame | ⟨hhalf, hnext⟩
    · omega
    · -- A digit after the mantissa means that `q` lies above it.
      have hne : em.mantissa ≠ k := by
        rintro rfl
        rw [hwhole (le_antisymm hk hle)] at hhalf
        cases hhalf
      omega

end Reads

theorem mantissa_shiftRight (em : ExtendedMantissa) (i : Nat) :
    (em >>> i).mantissa = em.mantissa / 2 ^ i := by
  change (i.repeat ExtendedMantissa.shiftRightOne em).mantissa = _
  induction i with
  | zero => simp [Nat.repeat]
  | succ i ih =>
    rw [Nat.repeat, ExtendedMantissa.shiftRightOne, ih, Nat.div_div_eq_div_mul, pow_succ]

/-- The exponent at which a number of the format has room for the leading digits. -/
def target (m : Nat) (e : ℤ) : ℤ :=
  max (m.log2 + 1 + e - 53) (-1074)

/-- Rounding the size `q` at the exponent `t`, where it has all digits of the format unless the
exponent is the least, gives the mantissa `r`. -/
structure RoundedTo (q : ℚ) (t : ℤ) (r : Nat) : Prop where
  least : -1074 ≤ t
  le_of_le : ∀ k : Nat, k * 2 ^ t ≤ q → k ≤ r
  ge_of_ge : ∀ k : Nat, q ≤ k * 2 ^ t → r ≤ k
  full : t = -1074 ∨ 2 ^ 52 * 2 ^ t ≤ q
  fits : q < 2 ^ 53 * 2 ^ t

/-- The form of a mantissa after rounding. A carry into a further digit moves the exponent. -/
inductive HasForm (s : Sign) (t : ℤ) : Nat → UnpackedFloat → Prop
  | zero (ht : t = -1074) : HasForm s t 0 (.zero s)
  | kept {r : Nat} (h : 0 < r) (hlo : t = -1074 ∨ 2 ^ 52 ≤ r) (hhi : r < 2 ^ 53) :
      HasForm s t r (.finite s r t h)
  | carried : HasForm s t (2 ^ 53) (.finite s (2 ^ 52) (t + 1) (by positivity))

section Shift

variable {m r : Nat} {e t : ℤ} {q : ℚ}

theorem shiftToTargetExponent_eq (m : Nat) (e : ℤ) (acc : Accuracy) :
    shiftToTargetExponent Format.binary64 m e acc =
      (ExtendedMantissa.ofMantissaAndAccuracy m acc >>> (target m e - e).toNat,
        e + (target m e - e).toNat) :=
  rfl

theorem shift_of_fits (hleast : -1074 ≤ t) (hr : r < 2 ^ 53) :
    shiftToTargetExponent Format.binary64 r t .exact =
      (ExtendedMantissa.ofMantissaAndAccuracy r .exact, t) := by
  have hlog : r.log2 < 53 := by
    by_cases hzero : r = 0
    · simp [hzero]
    · exact (Nat.log2_lt hzero).mpr hr
  have hk : (target r t - t).toNat = 0 := by
    unfold target
    omega
  rw [shiftToTargetExponent_eq, hk]
  exact congrArg (Prod.mk _) (add_zero t)

theorem shift_of_carry (hleast : -1074 ≤ t) :
    shiftToTargetExponent Format.binary64 (2 ^ 53) t .exact =
      (ExtendedMantissa.ofMantissaAndAccuracy (2 ^ 52) .exact, t + 1) := by
  have hlog : (2 ^ 53 : Nat).log2 = 53 := Nat.log2_two_pow
  have hk : (target (2 ^ 53) t - t).toNat = 1 := by
    unfold target
    omega
  rw [shiftToTargetExponent_eq, hk]
  rfl

theorem target_mul_two_pow (hm : 0 < m) (e : ℤ) (j : Nat) :
    target (m * 2 ^ j) (e - j) = target m e := by
  unfold target
  rw [log2_mul_two_pow hm]
  push_cast
  congr 1
  ring

theorem le_target (h : e ≤ -1074 ∨ 2 ^ 52 ≤ m) : e ≤ target m e := by
  unfold target
  rcases h with h | h
  · omega
  · have hlog : 52 ≤ m.log2 := (Nat.le_log2 (by omega)).mpr h
    omega

/-- At its target exponent a mantissa has all digits of the format and no more. -/
theorem shifted_bounds (he : e ≤ target m e) :
    (target m e = -1074 ∨ 2 ^ 52 ≤ m / 2 ^ (target m e - e).toNat) ∧
      m / 2 ^ (target m e - e).toNat < 2 ^ 53 := by
  have hhi : m < 2 ^ (m.log2 + 1) := Nat.lt_log2_self
  constructor
  · by_cases hleast : target m e = -1074
    · exact .inl hleast
    · have hm : m ≠ 0 := by
        rintro rfl
        have hlog : Nat.log2 0 = 0 := rfl
        unfold target at *
        omega
      have hk : (target m e - e).toNat + 52 = m.log2 := by
        unfold target at *
        omega
      right
      rw [Nat.le_div_iff_mul_le (by positivity), ← pow_add, add_comm, hk]
      exact Nat.log2_self_le hm
  · have hk : m.log2 + 1 ≤ (target m e - e).toNat + 53 := by
      unfold target at *
      omega
    rw [Nat.div_lt_iff_lt_mul (by positivity), ← pow_add, add_comm]
    exact hhi.trans_le (Nat.pow_le_pow_right (by omega) hk)

theorem mantissa_ofMantissaAndAccuracy (m : Nat) (acc : Accuracy) :
    (ExtendedMantissa.ofMantissaAndAccuracy m acc).mantissa = m := by
  cases acc with
  | exact => rfl
  | inexact o => cases o <;> rfl

theorem roundedTo_target {acc : Accuracy} (he : e ≤ target m e)
    (h : Reads (.ofMantissaAndAccuracy m acc) q) :
    RoundedTo (q * 2 ^ e) (target m e) (ExtendedMantissa.ofMantissaAndAccuracy m acc >>>
      (target m e - e).toNat).roundedMantissa := by
  obtain ⟨hfull, hfits⟩ := shifted_bounds he
  have hshift := mantissa_shiftRight (.ofMantissaAndAccuracy m acc) (target m e - e).toNat
  have hreads := h.shiftRight (target m e - e).toNat
  rw [mantissa_ofMantissaAndAccuracy] at hshift
  have hscale : q * 2 ^ e = q / 2 ^ (target m e - e).toNat * 2 ^ target m e := by
    have hsplit : (2 : ℚ) ^ target m e = 2 ^ (target m e - e).toNat * 2 ^ e := by
      rw [← zpow_natCast, ← zpow_add₀ (by norm_num)]
      congr 1
      omega
    rw [hsplit]
    field_simp
  have hpos := two_zpow_pos (target m e)
  have hle := hreads.le
  have hlt := hreads.lt
  rw [hshift] at hle hlt
  rw [hscale]
  refine ⟨le_max_right _ _, fun k hk => ?_, fun k hk => ?_, ?_, ?_⟩
  · exact (hreads.rounded k).1 (le_of_mul_le_mul_right hk hpos)
  · exact (hreads.rounded k).2 (le_of_mul_le_mul_right hk hpos)
  · refine hfull.imp_right fun hlong => mul_le_mul_of_nonneg_right ?_ hpos.le
    exact le_trans (by exact_mod_cast hlong) hle
  · refine mul_lt_mul_of_pos_right (hlt.trans_le ?_) hpos
    exact_mod_cast hfits

theorem roundWithAccuracy_hasForm (s : Sign) {acc : Accuracy} (he : e ≤ target m e)
    (h : Reads (.ofMantissaAndAccuracy m acc) q) :
    ∃ t r, RoundedTo (q * 2 ^ e) t r ∧
      HasForm s t r (roundWithAccuracy Format.binary64 s m e acc) := by
  have hrounded := roundedTo_target he h
  have hexponent : e + (target m e - e).toNat = target m e := by omega
  refine ⟨_, _, hrounded, ?_⟩
  unfold roundWithAccuracy
  rw [shiftToTargetExponent_eq, hexponent]
  dsimp only
  generalize (ExtendedMantissa.ofMantissaAndAccuracy m acc >>>
    (target m e - e).toNat).roundedMantissa = r at hrounded ⊢
  generalize target m e = t at hrounded ⊢
  obtain ⟨hleast, hlower, hupper, hfull, hfits⟩ := hrounded
  have hr : r ≤ 2 ^ 53 := hupper (2 ^ 53) (by exact_mod_cast hfits.le)
  have hlong : t = -1074 ∨ 2 ^ 52 ≤ r :=
    hfull.imp_right fun hfull => hlower (2 ^ 52) (by exact_mod_cast hfull)
  by_cases hcarry : r = 2 ^ 53
  · subst hcarry
    rw [shift_of_carry hleast]
    exact .carried
  · rw [shift_of_fits hleast (by omega)]
    by_cases hzero : r = 0
    · subst hzero
      exact .zero (by omega)
    · have hkept : HasForm s t r (.finite s r t (Nat.pos_of_ne_zero hzero)) :=
        .kept _ hlong (by omega)
      simpa [ExtendedMantissa.ofMantissaAndAccuracy, hzero] using hkept

end Shift

section Order

variable {s : Sign} {n r : Nat} {f t : ℤ} {q : ℚ} {hn : 0 < n}

/-- A number of the format that is not above the size is not above the rounded one. -/
theorem RoundedTo.le_magnitude (h : RoundedTo q t r) (hc : Canonical (.finite s n f hn))
    (hle : n * 2 ^ f ≤ q) : (f + 1074) * 2 ^ 52 + (n : ℤ) ≤ (t + 1074) * 2 ^ 52 + r := by
  obtain ⟨hleast, -, hlong, hfits⟩ := canonical_bounds hc
  have hleast' := h.least
  rcases lt_trichotomy f t with hft | rfl | hft
  · -- At the larger exponent all digits are in use.
    have hfull := h.le_of_le (2 ^ 52) (by exact_mod_cast h.full.resolve_left (by omega))
    omega
  · have hn := h.le_of_le n hle
    omega
  · -- A number with all its digits at a larger exponent would be above the size.
    have hlong : (2 : ℚ) ^ 52 ≤ n := by exact_mod_cast hlong.resolve_left (by omega)
    have hlarge : (2 : ℚ) ^ 53 * 2 ^ t ≤ n * 2 ^ f :=
      calc (2 : ℚ) ^ 53 * 2 ^ t = 2 ^ 52 * 2 ^ (t + 1) := by rw [two_zpow_succ]; ring
        _ ≤ (n : ℚ) * 2 ^ f :=
          mul_le_mul hlong (two_zpow_le hft) (two_zpow_pos _).le (by positivity)
    exact absurd (hlarge.trans hle) (not_le.mpr h.fits)

theorem RoundedTo.magnitude_le (h : RoundedTo q t r) (hc : Canonical (.finite s n f hn))
    (hle : q ≤ n * 2 ^ f) : (t + 1074) * 2 ^ 52 + (r : ℤ) ≤ (f + 1074) * 2 ^ 52 + n := by
  obtain ⟨hleast, -, hlong, hfits⟩ := canonical_bounds hc
  have hleast' := h.least
  rcases lt_trichotomy f t with hft | rfl | hft
  · have hfull := h.full.resolve_left (by omega)
    have hsmall : (n : ℚ) * 2 ^ f < 2 ^ 52 * 2 ^ t := by
      exact_mod_cast magnitude_lt hft hfits le_rfl
    exact absurd (hfull.trans hle) (not_le.mpr hsmall)
  · have hn := h.ge_of_ge n hle
    omega
  · have hr := h.ge_of_ge (2 ^ 53) (by exact_mod_cast h.fits.le)
    have hlong := hlong.resolve_left (by omega)
    omega

end Order

/-- The place is next to `q`: the numbers of the format are on the same sides of it as of `q`, and
it is that of a finite number only if `q` is in range. -/
structure RoundsTo (q : ℚ) (p : ℤ) : Prop where
  le_of_le : ∀ b, Canonical b → b.isFinite = true → exact b ≤ q → place b ≤ p
  ge_of_ge : ∀ b, Canonical b → b.isFinite = true → q ≤ exact b → p ≤ place b
  in_range : |p| < 2047 * 2 ^ 52 → |q| < 2 ^ 1024

section Signs

variable {a b : UnpackedFloat}

theorem canonical_neg (h : Canonical b) : Canonical b.neg := by
  cases h with
  | notANumber => exact .notANumber
  | infinity s => exact .infinity _
  | zero s => exact .zero _
  | subnormal s m h hm => exact .subnormal _ m h hm
  | normal s m e h hlo hhi helo hehi => exact .normal _ m e h hlo hhi helo hehi

theorem place_neg (b : UnpackedFloat) : place b.neg = -place b := by
  cases b with
  | notANumber => rfl
  | infinity s => cases s <;> rfl
  | zero s => rfl
  | finite s m e h => cases s <;> simp [UnpackedFloat.neg, place, Sign.apply]

theorem exact_of_neg (b : UnpackedFloat) : exact b.neg = -exact b := by
  cases b with
  | notANumber => simp [UnpackedFloat.neg, exact]
  | infinity s => simp [UnpackedFloat.neg, exact]
  | zero s => simp [UnpackedFloat.neg, exact]
  | finite s m e h => cases s <;> simp [UnpackedFloat.neg, exact, withSign]

theorem isFinite_neg (b : UnpackedFloat) : b.neg.isFinite = b.isFinite := by
  cases b <;> rfl

theorem RoundsTo.neg {q : ℚ} {p : ℤ} (h : RoundsTo q p) : RoundsTo (-q) (-p) where
  le_of_le b hb hfinite hle := by
    have hge := h.ge_of_ge b.neg (canonical_neg hb) (by rwa [isFinite_neg])
      (by rw [exact_of_neg]; linarith)
    rw [place_neg] at hge
    omega
  ge_of_ge b hb hfinite hle := by
    have hge := h.le_of_le b.neg (canonical_neg hb) (by rwa [isFinite_neg])
      (by rw [exact_of_neg]; linarith)
    rw [place_neg] at hge
    omega
  in_range := by
    rw [abs_neg, abs_neg]
    exact h.in_range

end Signs

theorem RoundedTo.roundsTo {q : ℚ} {t : ℤ} {r : Nat} (h : RoundedTo q t r) (hq : 0 ≤ q) :
    RoundsTo q (min ((t + 1074) * 2 ^ 52 + r) (2047 * 2 ^ 52)) := by
  have hleast := h.least
  refine ⟨fun b hb hfinite hle => ?_, fun b hb hfinite hle => ?_, fun hlt => ?_⟩
  · cases b with
    | notANumber => cases hfinite
    | infinity s => cases hfinite
    | zero s =>
      simp only [place]
      omega
    | finite s n f hn =>
      have hbounds := place_finite_bounds hb
      cases s with
      | negative =>
        simp only [place, Sign.apply]
        omega
      | positive => exact le_min (h.le_magnitude hb hle) hbounds.2.le
  · cases b with
    | notANumber => cases hfinite
    | infinity s => cases hfinite
    | zero s =>
      have hr : r ≤ 0 := h.ge_of_ge 0 (by simpa [exact] using hle)
      have ht : t = -1074 := by
        refine h.full.resolve_right fun hfull => ?_
        have hpos := two_zpow_pos t
        have hzero : q ≤ 0 := hle
        linarith
      simp only [place]
      omega
    | finite s n f hn =>
      cases s with
      | negative => exact absurd (hq.trans hle) (not_le.mpr (exact_neg hn))
      | positive => exact (min_le_left _ _).trans (h.magnitude_le hb hle)
  · have hlt := (abs_lt.mp hlt).2
    have ht : t ≤ 971 := by
      rcases h.full with ht | hfull
      · omega
      · have hr := h.le_of_le (2 ^ 52) (by exact_mod_cast hfull)
        omega
    rw [abs_of_nonneg hq]
    calc q < 2 ^ 53 * 2 ^ t := h.fits
      _ ≤ 2 ^ 53 * 2 ^ (971 : ℤ) := mul_le_mul_of_nonneg_left (two_zpow_le ht) (by positivity)
      _ = 2 ^ 1024 := two_pow_mul_zpow (by norm_num)

theorem HasForm.place_repacked {s : Sign} {t : ℤ} {r : Nat} {a : UnpackedFloat}
    (h : HasForm s t r a) (hleast : -1074 ≤ t) :
    (repacked a).isNaN = false ∧
      place (repacked a) = s.apply (min ((t + 1074) * 2 ^ 52 + r) (2047 * 2 ^ 52)) := by
  cases h with
  | zero ht =>
    subst ht
    cases s <;> exact ⟨rfl, rfl⟩
  | kept h hlong hfits => exact place_pack_finite h hleast hlong hfits
  | carried =>
    obtain ⟨hnan, hplace⟩ := place_pack_finite (s := s) (m := 2 ^ 52) (e := t + 1) (by positivity)
      (by omega) (.inr le_rfl) (by norm_num)
    refine ⟨hnan, hplace.trans ?_⟩
    congr 2
    push_cast
    ring

/-- The form is no NaN and, once packed, next to `q`. -/
def FormOf (q : ℚ) (a : UnpackedFloat) : Prop :=
  (repacked a).isNaN = false ∧ RoundsTo q (place (repacked a))

section Forms

variable {s : Sign} {m : Nat} {e : ℤ} {q : ℚ}

theorem formOf_roundWithAccuracy (s : Sign) {acc : Accuracy} (he : e ≤ target m e)
    (h : Reads (.ofMantissaAndAccuracy m acc) q) :
    FormOf (withSign s (q * 2 ^ e)) (roundWithAccuracy Format.binary64 s m e acc) := by
  have hq : 0 ≤ q := le_trans (by positivity) h.le
  obtain ⟨t, r, hrounded, hform⟩ := roundWithAccuracy_hasForm s he h
  have hrounds := hrounded.roundsTo (mul_nonneg hq (two_zpow_pos e).le)
  obtain ⟨hnan, hplace⟩ := hform.place_repacked hrounded.least
  refine ⟨hnan, ?_⟩
  rw [hplace]
  cases s with
  | negative => exact hrounds.neg
  | positive => exact hrounds

theorem formOf_round (s : Sign) (hm : 0 < m) (e : ℤ) :
    FormOf (withSign s (m * 2 ^ e)) (round Format.binary64 s m e) := by
  have htarget := target_mul_two_pow hm e (e - target m e).toNat
  have he : e - (e - target m e).toNat ≤
      target (m * 2 ^ (e - target m e).toNat) (e - (e - target m e).toNat) := by
    omega
  have hround : round Format.binary64 s m e = roundWithAccuracy Format.binary64 s
      (m <<< (e - target m e).toNat) (e - (e - target m e).toNat) .exact := rfl
  have hsame : ((m * 2 ^ (e - target m e).toNat : Nat) : ℚ) * 2 ^ (e - (e - target m e).toNat) =
      m * 2 ^ e := by
    rw [zpow_sub₀ (by norm_num), zpow_natCast]
    push_cast
    field_simp
  rw [hround, Nat.shiftLeft_eq, ← hsame]
  exact formOf_roundWithAccuracy s he (reads_exact _)

theorem formOf_canonical {a : UnpackedFloat} (ha : Canonical a) (hfinite : a.isFinite = true) :
    FormOf (exact a) a := by
  have hnan : a.isNaN = false := by
    cases a <;> first | rfl | cases hfinite
  unfold FormOf
  rw [repacked_of_canonical ha]
  exact ⟨hnan, fun b hb hb' => (place_le_iff hb ha hb' hfinite).mpr,
    fun b hb hb' => (place_le_iff ha hb hfinite hb').mpr, fun _ => abs_exact_lt ha⟩

theorem formOf_zero (s : Sign) : FormOf 0 (.zero s) :=
  formOf_canonical (.zero s) rfl

theorem formOf_normalize (k e : ℤ) (z : Sign) :
    FormOf (k * 2 ^ e) (UnpackedFloat.normalize Format.binary64 k e z) := by
  unfold UnpackedFloat.normalize
  rcases lt_trichotomy k 0 with hk | rfl | hk
  · rw [compare_lt_iff_lt.mpr hk]
    have hsame : (k : ℚ) * 2 ^ e = withSign .negative ((-k).toNat * 2 ^ e) := by
      have hcast : (((-k).toNat : ℤ) : ℚ) = -k := by
        rw [Int.toNat_of_nonneg (by omega)]
        push_cast
        rfl
      rw [withSign, ← Int.cast_natCast, hcast]
      ring
    rw [hsame]
    exact formOf_round .negative (by omega) e
  · rw [compare_eq_iff_eq.mpr rfl, Int.cast_zero, zero_mul]
    exact formOf_zero z
  · rw [compare_gt_iff_gt.mpr hk]
    have hsame : (k : ℚ) * 2 ^ e = withSign .positive (k.toNat * 2 ^ e) := by
      have hcast : ((k.toNat : ℤ) : ℚ) = k := by
        rw [Int.toNat_of_nonneg hk.le]
      rw [withSign, ← Int.cast_natCast, hcast]
    rw [hsame]
    exact formOf_round .positive (by omega) e

end Forms

end TracePlot.Number
