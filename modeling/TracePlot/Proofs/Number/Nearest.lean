import TracePlot.Number.Binary
import TracePlot.Proofs.Number.Arithmetic

/-! Numbers taken apart, and the whole numbers next to them. Taking a number apart gives its exact
value, and the nearest whole number in a range is half a unit off at most as long as the range
holds it. -/

open Float.Model Float.Model.UnpackedFloat

namespace TracePlot.Number

def isMinus : Sign → Bool
  | .negative => true
  | .positive => false

def partsOf : UnpackedFloat → Parts
  | .notANumber => .nan
  | .infinity s => .infinite (isMinus s)
  | .zero s => .finite (isMinus s) 0 (-1074)
  | .finite s m e _ => .finite (isMinus s) m e

section Parts

theorem isMinus_ofBitVec (w : BitVec Format.binary64.numBits) :
    isMinus (Sign.ofBitVec (unpackSign w)) = (w.toNat / 0x8000000000000000 == 1) := by
  have hsign := sign_toNat w
  by_cases h : unpackSign w = 0#1
  · rw [h] at hsign
    have hzero : w.toNat / 0x8000000000000000 = 0 := hsign.symm
    simp [Sign.ofBitVec, h, isMinus, hzero]
  · have hone : unpackSign w = 1#1 := by
      have hlt := (unpackSign w).isLt
      rw [← BitVec.toNat_inj] at h ⊢
      simp at h ⊢
      omega
    rw [hone] at hsign
    have hzero : w.toNat / 0x8000000000000000 = 1 := hsign.symm
    simp [Sign.ofBitVec, hone, isMinus, hzero]

theorem parts_eq (x : Float) : parts x = partsOf x.toModel.unpack := by
  have hword : x.toBits.toNat = x.toModel.toBits.toBitVec.toNat := rfl
  change _ = partsOf (unpack Format.binary64 x.toModel.toBits.toBitVec)
  unfold parts
  rw [hword]
  generalize x.toModel.toBits.toBitVec = w
  have he := exponent_toNat w
  have hm := mantissa_toNat w
  have hn := implicit_toNat w
  have htop := exponent_eq_iff w (-1#11)
  have hbottom := exponent_eq_iff w 0#11
  have hzero := mantissa_eq_zero_iff w
  simp only [BitVec.neg_one_eq_allOnes, BitVec.toNat_allOnes, BitVec.toNat_zero, Nat.reducePow,
    Nat.reduceSub] at he hm hn htop hbottom hzero
  rw [UnpackedFloat.unpack]
  dsimp only
  rw [← isMinus_ofBitVec, BitVec.neg_one_eq_allOnes]
  by_cases h2047 : w.toNat / 0x10000000000000 % 2048 = 2047
  · rw [if_pos h2047, if_pos (htop.mpr h2047)]
    by_cases h0 : w.toNat % 0x10000000000000 = 0
    · rw [if_pos h0, if_pos (hzero.mpr h0), partsOf]
    · rw [if_neg h0, if_neg (hzero.not.mpr h0), partsOf]
  · rw [if_neg h2047, if_neg (htop.not.mpr h2047)]
    by_cases hleast : w.toNat / 0x10000000000000 % 2048 = 0
    · rw [if_pos hleast, if_pos (hbottom.mpr hleast)]
      by_cases h0 : w.toNat % 0x10000000000000 = 0
      · rw [dif_pos (hzero.mpr h0), partsOf, h0]
      · rw [dif_neg (hzero.not.mpr h0), partsOf, hm, he, hleast]
        rfl
    · rw [if_neg hleast, if_neg (hbottom.not.mpr hleast), partsOf, hn, he, Nat.add_comm]
      rfl

theorem parts_of_isFinite {x : Float} (hx : x.isFinite = true) :
    ∃ negative m e, parts x = .finite negative m e ∧
      value x = if negative then -(m * 2 ^ e : ℚ) else m * 2 ^ e := by
  change x.toModel.unpack.isFinite = true at hx
  rw [parts_eq, value]
  cases hform : x.toModel.unpack with
  | notANumber => rw [hform] at hx; cases hx
  | infinity s => rw [hform] at hx; cases hx
  | zero s => exact ⟨_, _, _, rfl, by simp [exact]⟩
  | finite s m e h => exact ⟨_, _, _, rfl, by cases s <;> simp [exact, withSign, isMinus]⟩

end Parts

section Nearest

theorem divHalfUp_bounds (n : Nat) {d : Nat} (hd : 0 < d) :
    (divHalfUp n d : ℚ) ≤ n / d + 1 / 2 ∧ (n / d + 1 / 2 : ℚ) < divHalfUp n d + 1 := by
  have hd' : (0 : ℚ) < 2 * d := by positivity
  have hfraction : (n / d + 1 / 2 : ℚ) = (2 * n + d : Nat) / (2 * d : Nat) := by
    push_cast
    field_simp
  have hlt : 2 * n + d < ((2 * n + d) / (2 * d) + 1) * (2 * d) :=
    (Nat.div_lt_iff_lt_mul (by positivity)).mp (Nat.lt_succ_self _)
  rw [hfraction, divHalfUp]
  refine ⟨Nat.cast_div_le, ?_⟩
  rw [div_lt_iff₀ (by exact_mod_cast hd')]
  exact_mod_cast hlt

theorem fractionOf_spec (m : Nat) (e : ℤ) :
    0 < (fractionOf m e).2 ∧ ((fractionOf m e).1 / (fractionOf m e).2 : ℚ) = m * 2 ^ e := by
  unfold fractionOf
  by_cases he : 0 ≤ e
  · rw [if_pos he]
    have hsame : (2 : ℚ) ^ e = 2 ^ e.toNat := by
      rw [← zpow_natCast, Int.toNat_of_nonneg he]
    exact ⟨one_pos, by simp [hsame]⟩
  · rw [if_neg he]
    have hsame : (2 : ℚ) ^ e = (2 ^ (-e).toNat)⁻¹ := by
      rw [← zpow_natCast, ← zpow_neg, Int.toNat_of_nonneg (by omega), neg_neg]
    exact ⟨Nat.pow_pos two_pos, by simp [hsame, div_eq_mul_inv]⟩

/-- The whole number within half a unit, a half going up. -/
def HalfUp (q : ℚ) (n : Nat) : Prop :=
  (n : ℚ) ≤ q + 1 / 2 ∧ q + 1 / 2 < n + 1

theorem nearest_of_isFinite {x : Float} (hx : x.isFinite = true) (hnonneg : 0 ≤ value x)
    (hi : Nat) : ∃ n, HalfUp (value x) n ∧ nearest 0 hi x = (min n hi : Nat) := by
  obtain ⟨negative, m, e, hparts, hvalue⟩ := parts_of_isFinite hx
  obtain ⟨hd, hfraction⟩ := fractionOf_spec m e
  have hbounds := divHalfUp_bounds (fractionOf m e).1 hd
  rw [hfraction] at hbounds
  have hclamp (n : Nat) : clampInt 0 hi n = (min n hi : Nat) := by
    unfold clampInt
    rw [if_neg (by omega)]
    split <;> omega
  simp only [nearest, roundWith, hparts]
  cases negative with
  | false =>
    rw [hvalue] at hnonneg ⊢
    exact ⟨_, hbounds, hclamp _⟩
  | true =>
    -- Only zero has a minus sign here.
    rw [if_pos rfl] at hvalue
    have hpos : (0 : ℚ) ≤ m * 2 ^ e := by positivity
    have hzero : (m * 2 ^ e : ℚ) = 0 := by linarith
    rw [hzero] at hvalue hbounds
    rw [neg_zero] at hvalue
    have hnone : divHalfUp (fractionOf m e).1 (fractionOf m e).2 = 0 := by
      have hlt : (divHalfUp (fractionOf m e).1 (fractionOf m e).2 : ℚ) < (1 : Nat) := by
        push_cast
        linarith
      exact Nat.lt_one_iff.mp (Nat.cast_lt.mp hlt)
    rw [hvalue, hnone]
    exact ⟨0, by norm_num [HalfUp], hclamp 0⟩

theorem nearest_le {lo hi : ℤ} (hlo : lo ≤ hi) (hzero : 0 ≤ hi) (x : Float) :
    nearest lo hi x ≤ hi := by
  have hclamp (n : ℤ) : clampInt lo hi n ≤ hi := by
    unfold clampInt
    split
    · exact hlo
    · split <;> omega
  unfold nearest roundWith
  cases parts x with
  | nan => exact hzero
  | infinite negative => cases negative <;> simp [hlo]
  | finite negative m e => exact hclamp _

section HalfUp

variable {q : ℚ} {n k : Nat} (h : HalfUp q n)

include h

theorem HalfUp.le_of_le (hle : q ≤ k) : n ≤ k := by
  have hlt : (n : ℚ) < (k + 1 : Nat) := by
    push_cast
    linarith [h.1]
  exact Nat.lt_succ_iff.mp (Nat.cast_lt.mp hlt)

theorem HalfUp.ge_of_ge (hge : k ≤ q) : k ≤ n := by
  have hlt : (k : ℚ) < (n + 1 : Nat) := by
    push_cast
    linarith [h.2]
  exact Nat.lt_succ_iff.mp (Nat.cast_lt.mp hlt)

theorem HalfUp.of_whole (hk : q = k) : n = k :=
  le_antisymm (h.le_of_le hk.le) (h.ge_of_ge hk.ge)

end HalfUp

end Nearest

end TracePlot.Number
