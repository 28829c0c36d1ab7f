import Mathlib
import TracePlot.Number.Order

/-! Comparing binary64 numbers by integers. Every number other than NaN has a place among all
numbers of the format, and numbers compare as their places do. -/

open Float.Model Float.Model.UnpackedFloat

namespace TracePlot.Number

/-- The forms that words are taken apart into. -/
inductive Canonical : UnpackedFloat → Prop
  | notANumber : Canonical .notANumber
  | infinity (s : Sign) : Canonical (.infinity s)
  | zero (s : Sign) : Canonical (.zero s)
  | subnormal (s : Sign) (m : Nat) (h : 0 < m) (hm : m < 2 ^ 52) :
      Canonical (.finite s m (-1074) h)
  | normal (s : Sign) (m : Nat) (e : Int) (h : 0 < m) (hlo : 2 ^ 52 ≤ m) (hhi : m < 2 ^ 53)
      (helo : -1074 ≤ e) (hehi : e ≤ 971) : Canonical (.finite s m e h)

/-- The place of a form. Both zeros are at the origin and the infinities at the ends. -/
def place : UnpackedFloat → Int
  | .notANumber => 0
  | .infinity s => s.apply (2047 * 2 ^ 52)
  | .zero _ => 0
  | .finite s m e _ => s.apply ((e + 1074) * 2 ^ 52 + m)

section Fields

variable (w : BitVec Format.binary64.numBits)

theorem mantissa_toNat : (unpackMantissa w).toNat = w.toNat % 2 ^ 52 := by
  simp [unpackMantissa]

theorem exponent_toNat : (unpackExponent w).toNat = w.toNat / 2 ^ 52 % 2 ^ 11 := by
  simp [unpackExponent, Nat.shiftRight_eq_div_pow]

theorem sign_toNat : (unpackSign w).toNat = w.toNat / 2 ^ 63 := by
  have hw : w.toNat < 2 ^ 64 := w.isLt
  simp [unpackSign, Nat.shiftRight_eq_div_pow]
  omega

theorem exponent_eq_iff (v : BitVec 11) :
    unpackExponent w = v ↔ w.toNat / 2 ^ 52 % 2 ^ 11 = v.toNat := by
  rw [← BitVec.toNat_inj, exponent_toNat]

theorem mantissa_eq_zero_iff : unpackMantissa w = 0#52 ↔ w.toNat % 2 ^ 52 = 0 := by
  rw [← BitVec.toNat_inj, mantissa_toNat]
  rfl

theorem implicit_toNat : (1#1 ++ unpackMantissa w).toNat = 2 ^ 52 + w.toNat % 2 ^ 52 := by
  rw [BitVec.toNat_append, ← Nat.shiftLeft_add_eq_or_of_lt (BitVec.isLt _), mantissa_toNat]
  simp [Nat.shiftLeft_eq]

theorem sign_apply (n : Int) :
    (Sign.ofBitVec (unpackSign w)).apply n = if w.toNat < 2 ^ 63 then n else -n := by
  have hs := sign_toNat w
  by_cases h : w.toNat < 2 ^ 63
  · have hz : unpackSign w = 0#1 := by
      rw [← BitVec.toNat_inj, hs, Nat.div_eq_of_lt h]
      rfl
    simp only [Sign.ofBitVec, hz, if_true, h, Sign.apply]
  · have hz : unpackSign w ≠ 0#1 := by
      rw [ne_eq, ← BitVec.toNat_inj, hs]
      simp
      omega
    simp only [Sign.ofBitVec, hz, h, Sign.apply, if_false]

/-- A word gives a canonical form, whose place is the magnitude of the word with its sign. -/
theorem unpack_spec :
    Canonical (unpack Format.binary64 w) ∧
      ((unpack Format.binary64 w).isNaN = false → place (unpack Format.binary64 w) =
        if w.toNat < 2 ^ 63 then (w.toNat : Int) else 2 ^ 63 - w.toNat) := by
  have hw : w.toNat < 2 ^ 64 := w.isLt
  have he := exponent_toNat w
  have hm := mantissa_toNat w
  have hn := implicit_toNat w
  have htop := exponent_eq_iff w (-1#11)
  have hbottom := exponent_eq_iff w 0#11
  have hzero := mantissa_eq_zero_iff w
  simp only [BitVec.neg_one_eq_allOnes, BitVec.toNat_allOnes, BitVec.toNat_zero] at htop hbottom
  rw [UnpackedFloat.unpack]
  split
  · next h2047 =>
    have hE := htop.mp h2047
    split
    · next hf =>
      have hF := hzero.mp hf
      refine ⟨.infinity _, fun _ => ?_⟩
      simp only [place, sign_apply]
      omega
    · exact ⟨.notANumber, fun h => by simp [UnpackedFloat.isNaN] at h⟩
  · next h2047 =>
    have hE := htop.not.mp h2047
    split
    · next h0 =>
      have hZ := hbottom.mp h0
      split
      · next hf =>
        have hF := hzero.mp hf
        refine ⟨.zero _, fun _ => ?_⟩
        simp only [place]
        omega
      · next hf =>
        have hleast : ((unpackExponent w).toNat : Int) -
            (Format.binary64.exponentBias + Format.binary64.mantissaBitsWithoutImplicit) + 1 =
              -1074 := by
          change ((unpackExponent w).toNat : Int) - 1075 + 1 = -1074
          omega
        simp only [hleast]
        refine ⟨.subnormal _ _ _ (by omega), fun _ => ?_⟩
        simp only [place, sign_apply]
        omega
    · next h0 =>
      have hZ := hbottom.not.mp h0
      have hbias : ((unpackExponent w).toNat : Int) -
          (Format.binary64.exponentBias + Format.binary64.mantissaBitsWithoutImplicit) =
            (unpackExponent w).toNat - 1075 := rfl
      simp only [hbias]
      refine ⟨.normal _ _ _ _ (by omega) (by omega) (by omega) (by omega), fun _ => ?_⟩
      simp only [place, sign_apply]
      omega

end Fields

theorem place_finite_bounds {s : Sign} {m : Nat} {e : Int} {h : 0 < m}
    (hc : Canonical (.finite s m e h)) :
    0 < (e + 1074) * 2 ^ 52 + (m : Int) ∧ (e + 1074) * 2 ^ 52 + (m : Int) < 2047 * 2 ^ 52 := by
  cases hc <;> omega

/-- Exponents weigh more than mantissas, and both are parts of one integer. -/
theorem compare_magnitudes {s₁ s₂ : Sign} {m₁ m₂ : Nat} {e₁ e₂ : Int} {h₁ : 0 < m₁} {h₂ : 0 < m₂}
    (hc₁ : Canonical (.finite s₁ m₁ e₁ h₁)) (hc₂ : Canonical (.finite s₂ m₂ e₂ h₂)) :
    (compare e₁ e₂).then (compare m₁ m₂) =
      compare ((e₁ + 1074) * 2 ^ 52 + (m₁ : Int)) ((e₂ + 1074) * 2 ^ 52 + (m₂ : Int)) := by
  rcases lt_trichotomy e₁ e₂ with he | rfl | he
  · rw [compare_lt_iff_lt.mpr he, Ordering.lt_then, eq_comm, compare_lt_iff_lt]
    cases hc₁ <;> cases hc₂ <;> omega
  · rw [compare_eq_iff_eq.mpr rfl, Ordering.eq_then]
    rcases lt_trichotomy m₁ m₂ with hm | rfl | hm
    · rw [compare_lt_iff_lt.mpr hm, eq_comm, compare_lt_iff_lt]
      omega
    · simp
    · rw [compare_gt_iff_gt.mpr hm, eq_comm, compare_gt_iff_gt]
      omega
  · rw [compare_gt_iff_gt.mpr he, Ordering.gt_then, eq_comm, compare_gt_iff_gt]
    cases hc₁ <;> cases hc₂ <;> omega

theorem compare_neg_neg (x y : Int) : compare (-x) (-y) = (compare x y).swap := by
  rw [Std.OrientedOrd.eq_swap (a := x) (b := y), Ordering.swap_swap]
  rcases lt_trichotomy x y with h | rfl | h
  · rw [compare_gt_iff_gt.mpr (neg_lt_neg h), compare_gt_iff_gt.mpr h]
  · rw [compare_eq_iff_eq.mpr rfl, compare_eq_iff_eq.mpr rfl]
  · rw [compare_lt_iff_lt.mpr (neg_lt_neg h), compare_lt_iff_lt.mpr h]

theorem compare_eq_place {a b : UnpackedFloat} (ha : Canonical a) (hb : Canonical b)
    (hna : a.isNaN = false) (hnb : b.isNaN = false) :
    a.compare b = some (compare (place a) (place b)) := by
  have hlt {x y : Int} (h : x < y) : some Ordering.lt = some (compare x y) := by
    rw [compare_lt_iff_lt.mpr h]
  have hgt {x y : Int} (h : y < x) : some Ordering.gt = some (compare x y) := by
    rw [compare_gt_iff_gt.mpr h]
  cases a with
  | notANumber => simp [UnpackedFloat.isNaN] at hna
  | infinity s =>
    cases b with
    | notANumber => simp [UnpackedFloat.isNaN] at hnb
    | infinity t => cases s <;> cases t <;> rfl
    | zero t => cases s <;> rfl
    | finite t m e h =>
      have hp := place_finite_bounds hb
      cases s with
      | negative => cases t <;> exact hlt (by simp only [place, Sign.apply]; omega)
      | positive => cases t <;> exact hgt (by simp only [place, Sign.apply]; omega)
  | zero s =>
    cases b with
    | notANumber => simp [UnpackedFloat.isNaN] at hnb
    | infinity t => cases t <;> rfl
    | zero t => rfl
    | finite t m e h =>
      have hp := place_finite_bounds hb
      cases t with
      | negative => exact hgt (by simp only [place, Sign.apply]; omega)
      | positive => exact hlt (by simp only [place, Sign.apply]; omega)
  | finite s m e h =>
    have hp := place_finite_bounds ha
    cases b with
    | notANumber => simp [UnpackedFloat.isNaN] at hnb
    | infinity t =>
      cases t with
      | negative => cases s <;> exact hgt (by simp only [place, Sign.apply]; omega)
      | positive => cases s <;> exact hlt (by simp only [place, Sign.apply]; omega)
    | zero t =>
      cases s with
      | negative => exact hlt (by simp only [place, Sign.apply]; omega)
      | positive => exact hgt (by simp only [place, Sign.apply]; omega)
    | finite t m' e' h' =>
      have hq := place_finite_bounds hb
      have hc := compare_magnitudes ha hb
      cases s <;> cases t
      · rw [place, place, Sign.apply, Sign.apply, compare_neg_neg, ← hc]
        rfl
      · exact hlt (by simp only [place, Sign.apply]; omega)
      · exact hgt (by simp only [place, Sign.apply]; omega)
      · rw [place, place, Sign.apply, Sign.apply, ← hc]
        rfl

theorem compare_nan {a b : UnpackedFloat} (h : a.isNaN = true ∨ b.isNaN = true) :
    a.compare b = none := by
  cases a <;> cases b <;> simp_all [UnpackedFloat.isNaN, UnpackedFloat.compare]

/-- The place of a number among all numbers of the format. -/
def position (x : Float) : Int :=
  place x.toModel.unpack

theorem compare_eq_position {x y : Float} (hx : x.isNaN = false) (hy : y.isNaN = false) :
    x.toModel.unpack.compare y.toModel.unpack = some (compare (position x) (position y)) :=
  compare_eq_place (unpack_spec _).1 (unpack_spec _).1 hx hy

theorem lt_iff_compare (x y : Float) :
    x < y ↔ x.toModel.unpack.compare y.toModel.unpack = some .lt := by
  change decide ((x.toModel.unpack.compare y.toModel.unpack == some .lt) = true) = true ↔ _
  simp

theorem le_iff_compare (x y : Float) :
    x ≤ y ↔ (x.toModel.unpack.compare y.toModel.unpack).any (·.isLE) = true := by
  change decide ((x.toModel.unpack.compare y.toModel.unpack).any (·.isLE) = true) = true ↔ _
  simp

theorem lt_iff {x y : Float} :
    x < y ↔ x.isNaN = false ∧ y.isNaN = false ∧ position x < position y := by
  rw [lt_iff_compare]
  cases hx : x.isNaN with
  | true => simp [compare_nan (.inl hx)]
  | false =>
    cases hy : y.isNaN with
    | true => simp [compare_nan (.inr hy)]
    | false => simp [compare_eq_position hx hy, compare_lt_iff_lt]

theorem le_iff {x y : Float} :
    x ≤ y ↔ x.isNaN = false ∧ y.isNaN = false ∧ position x ≤ position y := by
  rw [le_iff_compare]
  cases hx : x.isNaN with
  | true => simp [compare_nan (.inl hx)]
  | false =>
    cases hy : y.isNaN with
    | true => simp [compare_nan (.inr hy)]
    | false => simp [compare_eq_position hx hy, Std.isLE_compare]

protected theorem le_trans {x y z : Float} (h : x ≤ y) (h' : y ≤ z) : x ≤ z := by
  rw [le_iff] at h h' ⊢
  exact ⟨h.1, h'.2.1, by omega⟩

protected theorem lt_of_le_of_lt {x y z : Float} (h : x ≤ y) (h' : y < z) : x < z := by
  rw [lt_iff] at h' ⊢
  rw [le_iff] at h
  exact ⟨h.1, h'.2.1, by omega⟩

protected theorem lt_irrefl (x : Float) : ¬ x < x := by
  rw [lt_iff]
  omega

protected theorem not_le {x y : Float} (hx : x.isNaN = false) (hy : y.isNaN = false) :
    ¬ x ≤ y ↔ y < x := by
  rw [lt_iff, le_iff]
  simp only [hx, hy, true_and, Int.not_le]

theorem not_le_of_lt {x y : Float} (h : x < y) : ¬ y ≤ x := by
  rw [lt_iff] at h
  rw [le_iff]
  omega

theorem isNaN_right_of_le {x y : Float} (h : x ≤ y) : y.isNaN = false :=
  (le_iff.mp h).2.1

theorem toBits_inj {x y : Float} (h : x.toBits = y.toBits) : x = y := by
  obtain ⟨⟨xbits, hx⟩⟩ := x
  obtain ⟨⟨ybits, hy⟩⟩ := y
  obtain rfl : xbits = ybits := h
  rfl

/-- Only the zeros share a place. -/
theorem eq_of_position_eq {x y : Float} (hx : x.isNaN = false) (hy : y.isNaN = false)
    (hne : position x ≠ 0) (h : position x = position y) : x = y := by
  have px : position x = _ := (unpack_spec x.toModel.toBits.toBitVec).2 hx
  have py : position y = _ := (unpack_spec y.toModel.toBits.toBitVec).2 hy
  have hword : x.toModel.toBits.toBitVec.toNat = y.toModel.toBits.toBitVec.toNat := by
    split at px <;> split at py <;> omega
  exact toBits_inj (UInt64.toNat_inj.mp hword)

section Larger

variable {x y : Float} (hx : x.isNaN = false) (hy : y.isNaN = false)

include hx hy

theorem larger_le_iff {z : Float} : larger x y ≤ z ↔ x ≤ z ∧ y ≤ z := by
  simp only [larger, hx, Bool.false_eq_true, if_false]
  split <;> grind [lt_iff, le_iff]

theorem lt_larger_iff {z : Float} : z < larger x y ↔ z < x ∨ z < y := by
  simp only [larger, hx, Bool.false_eq_true, if_false]
  split <;> grind [lt_iff]

theorem lt_smaller_iff {z : Float} : z < smaller x y ↔ z < x ∧ z < y := by
  simp only [smaller, hx, Bool.false_eq_true, if_false]
  split <;> grind [lt_iff]

theorem isNaN_larger : (larger x y).isNaN = false := by
  simp only [larger, hx, Bool.false_eq_true, if_false]
  split
  · exact hy
  · exact hx

end Larger

theorem lt_foldl_larger_iff {x z : Float} {ys : List Float} (hx : x.isNaN = false)
    (hys : ∀ y ∈ ys, y.isNaN = false) :
    z < ys.foldl larger x ↔ z < x ∨ ∃ y ∈ ys, z < y := by
  induction ys generalizing x with
  | nil => simp
  | cons y ys ih =>
    have hy := hys y (by simp)
    rw [List.foldl_cons, ih (isNaN_larger hx hy) fun v hv => hys v (by simp [hv]),
      lt_larger_iff hx hy]
    simp [or_assoc]

theorem place_ge {a : UnpackedFloat} (h : Canonical a) : -(2047 * 2 ^ 52) ≤ place a := by
  cases a with
  | notANumber => simp [place]
  | infinity s => cases s <;> simp [place, Sign.apply]
  | zero s => simp [place]
  | finite s m e hm =>
    have hbounds := place_finite_bounds h
    cases s <;> simp only [place, Sign.apply] <;> omega

theorem not_lt_bottom (x : Float) : ¬ x < -(1.0 / 0.0) := by
  intro h
  have hbottom : position (-(1.0 / 0.0)) = -(2047 * 2 ^ 52) := by decide
  have hge : -(2047 * 2 ^ 52) ≤ position x := place_ge (unpack_spec _).1
  have hlt := (lt_iff.mp h).2.2
  omega

end TracePlot.Number
