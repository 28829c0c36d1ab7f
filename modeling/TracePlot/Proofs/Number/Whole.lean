import TracePlot.Proofs.Number.Compare

/-! Whole numbers below `2 ^ 53` are numbers of the format: converting them, comparing them and
adding one to them is exact. -/

open Float.Model Float.Model.UnpackedFloat

namespace TracePlot.Number

theorem shiftRight_mul_two_pow (m i : Nat) :
    ExtendedMantissa.ofMantissaAndAccuracy (m * 2 ^ i) .exact >>> i =
      ExtendedMantissa.ofMantissaAndAccuracy m .exact := by
  change i.repeat ExtendedMantissa.shiftRightOne _ = _
  induction i generalizing m with
  | zero => simp [Nat.repeat]
  | succ i ih =>
    rw [Nat.repeat, show m * 2 ^ (i + 1) = 2 * m * 2 ^ i by ring, ih]
    simp [ExtendedMantissa.ofMantissaAndAccuracy, ExtendedMantissa.shiftRightOne]

theorem log2_mul_two_pow {m : Nat} (h : 0 < m) (i : Nat) : (m * 2 ^ i).log2 = m.log2 + i := by
  induction i with
  | zero => simp
  | succ i ih =>
    rw [show m * 2 ^ (i + 1) = 2 * (m * 2 ^ i) by ring, Nat.log2_two_mul (by positivity), ih]
    omega

theorem targetExponent_eq {s : Sign} {m : Nat} {e : Int} {h : 0 < m}
    (hc : Canonical (.finite s m e h)) (i : Nat) :
    Format.binary64.targetExponent (totalExponent (m * 2 ^ i) (e - i)) = e := by
  have hmax : Format.binary64.targetExponent (totalExponent (m * 2 ^ i) (e - i)) =
      max ((m * 2 ^ i).log2 + 1 + (e - i) - 53) (-1074) := rfl
  rw [hmax, log2_mul_two_pow h]
  cases hc with
  | subnormal s m h hm =>
    have := (Nat.log2_lt h.ne').mpr hm
    push_cast
    omega
  | normal s m e h hlo hhi helo hehi =>
    have := (Nat.log2_lt h.ne').mpr hhi
    have := (Nat.le_log2 h.ne').mpr hlo
    push_cast
    omega

/-- A mantissa that only lost zeros at its end is not rounded. -/
theorem roundWithAccuracy_exact {s : Sign} {m : Nat} {e : Int} {h : 0 < m}
    (hc : Canonical (.finite s m e h)) (i : Nat) :
    roundWithAccuracy Format.binary64 s (m * 2 ^ i) (e - i) .exact = .finite s m e h := by
  have hshift (i : Nat) : shiftToTargetExponent Format.binary64 (m * 2 ^ i) (e - i) .exact =
      (ExtendedMantissa.ofMantissaAndAccuracy m .exact, e) := by
    rw [shiftToTargetExponent, targetExponent_eq hc]
    simp only [shiftToExponent, show (e - (e - (i : Int))).toNat = i by omega,
      shiftRight_mul_two_pow]
    simp
  have hround : (ExtendedMantissa.ofMantissaAndAccuracy m .exact).roundedMantissa = m := rfl
  have hlast := hshift 0
  simp only [pow_zero, mul_one, Nat.cast_zero, sub_zero] at hlast
  unfold roundWithAccuracy
  simp only [hshift i, hround, hlast]
  simp [ExtendedMantissa.ofMantissaAndAccuracy, h.ne']

theorem round_exact {s : Sign} {m : Nat} {e : Int} {h : 0 < m}
    (hc : Canonical (.finite s m e h)) (i : Nat) :
    round Format.binary64 s (m * 2 ^ i) (e - i) = .finite s m e h := by
  rw [UnpackedFloat.round, targetExponent_eq hc]
  simp only [decreaseExponent, show (e - (i : Int) - e).toNat = 0 by omega]
  simpa using roundWithAccuracy_exact hc i

theorem round_widen {s : Sign} {m : Nat} {e : Int} (j : Nat) (hm : 0 < m)
    (hc : Canonical (.finite s (m * 2 ^ j) (e - j) (by positivity))) :
    round Format.binary64 s m e = .finite s (m * 2 ^ j) (e - j) (by positivity) := by
  have ht : Format.binary64.targetExponent (totalExponent m e) = e - j := by
    have hsame : totalExponent (m * 2 ^ j) (e - j) = totalExponent m e := by
      simp only [totalExponent, log2_mul_two_pow hm]
      omega
    simpa [hsame] using targetExponent_eq hc 0
  rw [UnpackedFloat.round, ht]
  simp only [decreaseExponent, Nat.shiftLeft_eq, show (e - (e - (j : Int))).toNat = j by omega]
  simpa using roundWithAccuracy_exact hc 0

theorem unpack_pack_normal (s : Sign) (m : Nat) (e : Int) (h : 0 < m) (hlo : 2 ^ 52 ≤ m)
    (hhi : m < 2 ^ 53) (helo : -1074 ≤ e) (hehi : e ≤ 971) :
    unpack Format.binary64 (UnpackedFloat.pack Format.binary64 (.finite s m e h)) =
      .finite s m e h := by
  have hlog : m.log2 = 52 := (Nat.log2_eq_iff h.ne').mpr ⟨hlo, hhi⟩
  have hpack : UnpackedFloat.pack Format.binary64 (.finite s m e h) =
      packComponents Format.binary64 s (BitVec.ofNat 11 (e + 1075).toNat) (BitVec.ofNat 52 m) := by
    have hbiased : (e + Format.binary64.exponentBias +
        Format.binary64.mantissaBitsWithoutImplicit).toNat = (e + 1075).toNat := by
      change (e + 1023 + 52).toNat = _
      omega
    rw [UnpackedFloat.pack]
    simp only [hlog, hbiased]
    rw [if_neg (by omega), if_pos (show 52 + 1 = Format.binary64.mantissaBits from rfl)]
  have he : (BitVec.ofNat 11 (e + 1075).toNat).toNat = (e + 1075).toNat := by
    rw [BitVec.toNat_ofNat]
    omega
  have htop : BitVec.ofNat 11 (e + 1075).toNat ≠ -1#11 := by
    rw [ne_eq, ← BitVec.toNat_inj, he]
    simp only [BitVec.neg_one_eq_allOnes, BitVec.toNat_allOnes]
    omega
  have hbottom : BitVec.ofNat 11 (e + 1075).toNat ≠ 0#11 := by
    rw [ne_eq, ← BitVec.toNat_inj, he]
    simp only [BitVec.toNat_zero]
    omega
  have hm : (1#1 ++ BitVec.ofNat 52 m).toNat = m := by
    rw [BitVec.toNat_append, ← Nat.shiftLeft_add_eq_or_of_lt (BitVec.isLt _), BitVec.toNat_ofNat]
    simp [Nat.shiftLeft_eq]
    omega
  have hexp : ((e + 1075).toNat : Int) -
      (Format.binary64.exponentBias + Format.binary64.mantissaBitsWithoutImplicit) = e := by
    change ((e + 1075).toNat : Int) - 1075 = e
    omega
  rw [hpack, UnpackedFloat.unpack]
  simp only [unpackMantissa_packComponents, unpackExponent_packComponents,
    unpackSign_packComponents, Sign.ofBitVec_toBitVec, if_neg htop, if_neg hbottom, hm, he, hexp]

theorem whole_bounds {n : Nat} (h : 0 < n) (hn : n < 2 ^ 53) :
    2 ^ 52 ≤ n * 2 ^ (52 - n.log2) ∧ n * 2 ^ (52 - n.log2) < 2 ^ 53 := by
  have hlog : n.log2 < 53 := (Nat.log2_lt h.ne').mpr hn
  have hlo : 2 ^ n.log2 ≤ n := Nat.log2_self_le h.ne'
  have hhi : n < 2 ^ (n.log2 + 1) := Nat.lt_log2_self
  constructor
  · calc 2 ^ 52 = 2 ^ n.log2 * 2 ^ (52 - n.log2) := by rw [← pow_add]; congr 1; omega
      _ ≤ n * 2 ^ (52 - n.log2) := Nat.mul_le_mul_right _ hlo
  · calc n * 2 ^ (52 - n.log2) < 2 ^ (n.log2 + 1) * 2 ^ (52 - n.log2) :=
          Nat.mul_lt_mul_of_pos_right hhi (by positivity)
      _ = 2 ^ 53 := by rw [← pow_add]; congr 1; omega

theorem whole_canonical {n : Nat} (h : 0 < n) (hn : n < 2 ^ 53) (s : Sign) :
    Canonical (.finite s (n * 2 ^ (52 - n.log2)) (0 - (52 - n.log2 : Nat)) (by positivity)) :=
  have hb := whole_bounds h hn
  .normal _ _ _ _ hb.1 hb.2 (by omega) (by omega)

/-- A whole number of the format, its mantissa widened to all digits. -/
def wholeForm (n : Nat) : UnpackedFloat :=
  if h : 0 < n then
    .finite .positive (n * 2 ^ (52 - n.log2)) (0 - (52 - n.log2 : Nat)) (by positivity)
  else .zero .positive

theorem unpack_pack_whole {n : Nat} (hn : n < 2 ^ 53) :
    unpack Format.binary64 (UnpackedFloat.pack Format.binary64 (wholeForm n)) = wholeForm n := by
  unfold wholeForm
  split
  · next h =>
    have hb := whole_bounds h hn
    exact unpack_pack_normal _ _ _ _ hb.1 hb.2 (by omega) (by omega)
  · rfl

theorem ofNat_form {n : Nat} (hn : n < 2 ^ 53) :
    UnpackedFloat.ofNat Format.binary64 n = wholeForm n := by
  unfold UnpackedFloat.ofNat UnpackedFloat.ofInt UnpackedFloat.normalize wholeForm
  by_cases h : 0 < n
  · have hg : compare (n : Int) 0 = .gt := compare_gt_iff_gt.mpr (by omega)
    simp only [hg, h, dif_pos, Int.toNat_natCast]
    exact round_widen _ h (whole_canonical h hn _)
  · have hz : n = 0 := by omega
    subst hz
    rfl

theorem unpack_ofNat {n : Nat} (hn : n < 2 ^ 53) :
    (Float.ofNat n).toModel.unpack = wholeForm n := by
  have hone : (Float.ofBits 0x3FF0000000000000).toModel.unpack =
      .finite .positive (2 ^ 52) (-52) (by positivity) := by rfl
  have hword : n.toUInt64.toFloat.toModel.unpack = wholeForm n := by
    have hto : n.toUInt64.toNat = n := by simp; omega
    change unpack Format.binary64 (UnpackedFloat.pack Format.binary64
      (UnpackedFloat.ofNat Format.binary64 n.toUInt64.toNat)) = _
    rw [hto, ofNat_form hn, unpack_pack_whole hn]
  have hmul : Float.ofNat n = n.toUInt64.toFloat * Float.ofBits 0x3FF0000000000000 := by
    change Float.ofScientific n false 0 = _
    rw [Float.ofScientific, dif_pos ⟨hn, by decide⟩]
    rfl
  rw [hmul]
  change unpack Format.binary64 (UnpackedFloat.pack Format.binary64
    (UnpackedFloat.mul Format.binary64 n.toUInt64.toFloat.toModel.unpack
      (Float.ofBits 0x3FF0000000000000).toModel.unpack)) = _
  rw [hword, hone]
  by_cases h : 0 < n
  · have hexact := roundWithAccuracy_exact (whole_canonical h hn (.positive * .positive)) 52
    have hform : wholeForm n = .finite .positive (n * 2 ^ (52 - n.log2)) (0 - (52 - n.log2 : Nat))
        (by positivity) := by rw [wholeForm, dif_pos h]
    have hmul : UnpackedFloat.mul Format.binary64 (wholeForm n)
        (.finite .positive (2 ^ 52) (-52) (by positivity)) = wholeForm n := by
      rw [hform]
      exact hexact
    rw [hmul, unpack_pack_whole hn]
  · have hz : n = 0 := by omega
    subst hz
    rfl

theorem wholeForm_of_pos {n : Nat} (h : 0 < n) : wholeForm n =
    .finite .positive (n * 2 ^ (52 - n.log2)) (0 - (52 - n.log2 : Nat)) (by positivity) := by
  rw [wholeForm, dif_pos h]

theorem whole_shift {n : Nat} (hn : n.log2 < 53) :
    n * 2 ^ (52 - n.log2) * 2 ^ n.log2 = n * 2 ^ 52 := by
  rw [mul_assoc, ← pow_add]
  congr 2
  omega

theorem add_one_form {n : Nat} (hn : n + 1 < 2 ^ 53) :
    UnpackedFloat.add Format.binary64 (wholeForm n) (wholeForm 1) = wholeForm (n + 1) := by
  by_cases h : 0 < n
  · have hlog : n.log2 < 53 := (Nat.log2_lt h.ne').mpr (by omega)
    have hlog' : (n + 1).log2 < 53 := (Nat.log2_lt (by omega)).mpr hn
    have hmin : min (0 - ((52 - n.log2 : Nat) : Int)) (-52) = -52 := by omega
    have hround := round_exact (whole_canonical (by omega : 0 < n + 1) hn .positive) (n + 1).log2
    have hexponent : 0 - ((52 - (n + 1).log2 : Nat) : Int) - ((n + 1).log2 : Nat) = -52 := by
      omega
    rw [whole_shift hlog', hexponent] at hround
    have hsum : Sign.apply .positive (((n * 2 ^ (52 - n.log2)) <<<
        (0 - ((52 - n.log2 : Nat) : Int) - -52).toNat : Nat) : Int) +
          Sign.apply .positive ((2 ^ 52 <<< (-52 - -52 : Int).toNat : Nat) : Int) =
        ((n + 1) * 2 ^ 52 : Nat) := by
      rw [show (0 - ((52 - n.log2 : Nat) : Int) - -52).toNat = n.log2 by omega, Nat.shiftLeft_eq,
        whole_shift hlog]
      simp [Sign.apply]
      ring
    have hg : compare (((n + 1) * 2 ^ 52 : Nat) : Int) 0 = .gt :=
      compare_gt_iff_gt.mpr (by positivity)
    rw [wholeForm_of_pos h, wholeForm_of_pos (by omega : 0 < n + 1),
      show wholeForm 1 = .finite .positive (2 ^ 52) (-52) (by positivity) from rfl,
      UnpackedFloat.add]
    simp only [hmin, decreaseExponent, hsum, UnpackedFloat.normalize, hg, Int.toNat_natCast, hround]
  · have hz : n = 0 := by omega
    subst hz
    rfl

theorem unpack_ofNat_add_one {n : Nat} (hn : n + 1 < 2 ^ 53) :
    (Float.ofNat n + 1.0).toModel.unpack = wholeForm (n + 1) := by
  have hone : (1.0 : Float).toModel.unpack = wholeForm 1 := by rfl
  change unpack Format.binary64 (UnpackedFloat.pack Format.binary64
    (UnpackedFloat.add Format.binary64 (Float.ofNat n).toModel.unpack
      (1.0 : Float).toModel.unpack)) = _
  rw [unpack_ofNat (by omega), hone, add_one_form hn, unpack_pack_whole hn]

theorem place_whole_lt {a b : Nat} (hab : a < b) (hb : b < 2 ^ 53) :
    place (wholeForm a) < place (wholeForm b) := by
  have hb0 : 0 < b := by omega
  have hbound := whole_bounds hb0 hb
  have hlogb : b.log2 < 53 := (Nat.log2_lt hb0.ne').mpr hb
  rw [wholeForm_of_pos hb0]
  by_cases ha0 : 0 < a
  · have hbound' := whole_bounds ha0 (by omega)
    have hle : a.log2 ≤ b.log2 :=
      (Nat.le_log2 hb0.ne').mpr ((Nat.log2_self_le ha0.ne').trans hab.le)
    rw [wholeForm_of_pos ha0]
    simp only [place, Sign.apply]
    by_cases he : a.log2 = b.log2
    · have hmul : a * 2 ^ (52 - b.log2) < b * 2 ^ (52 - b.log2) :=
        Nat.mul_lt_mul_of_pos_right hab (by positivity)
      rw [he]
      omega
    · omega
  · have hz : a = 0 := by omega
    subst hz
    change 0 < _
    simp only [place, Sign.apply]
    omega

theorem place_whole_le_iff {a b : Nat} (ha : a < 2 ^ 53) (hb : b < 2 ^ 53) :
    place (wholeForm a) ≤ place (wholeForm b) ↔ a ≤ b := by
  constructor
  · intro h
    by_contra hlt
    have := place_whole_lt (Nat.lt_of_not_le hlt) ha
    omega
  · intro h
    rcases h.lt_or_eq with hlt | rfl
    · exact (place_whole_lt hlt hb).le
    · exact le_rfl

theorem isNaN_whole (n : Nat) : (wholeForm n).isNaN = false := by
  unfold wholeForm
  split <;> rfl

theorem ofNat_le_ofNat {a b : Nat} (ha : a < 2 ^ 53) (hb : b < 2 ^ 53) :
    Float.ofNat a ≤ Float.ofNat b ↔ a ≤ b := by
  have hna : (Float.ofNat a).toModel.unpack.isNaN = false := by
    rw [unpack_ofNat ha, isNaN_whole]
  have hnb : (Float.ofNat b).toModel.unpack.isNaN = false := by
    rw [unpack_ofNat hb, isNaN_whole]
  rw [le_iff, position, position, unpack_ofNat ha, unpack_ofNat hb, place_whole_le_iff ha hb]
  exact ⟨fun h => h.2.2, fun h => ⟨hna, hnb, h⟩⟩

theorem ofNat_lt_ofNat_add_one {a b : Nat} (ha : a < 2 ^ 53) (hb : b + 1 < 2 ^ 53) :
    Float.ofNat a < Float.ofNat b + 1.0 ↔ a ≤ b := by
  have hna : (Float.ofNat a).toModel.unpack.isNaN = false := by
    rw [unpack_ofNat ha, isNaN_whole]
  have hnb : (Float.ofNat b + 1.0).toModel.unpack.isNaN = false := by
    rw [unpack_ofNat_add_one hb, isNaN_whole]
  have hle := place_whole_le_iff hb ha
  rw [lt_iff, position, position, unpack_ofNat ha, unpack_ofNat_add_one hb]
  constructor
  · intro h
    omega
  · intro h
    exact ⟨hna, hnb, by omega⟩

theorem ofNat_add_one_lt_ofNat {a b : Nat} (ha : a + 1 < 2 ^ 53) (hb : b < 2 ^ 53) :
    Float.ofNat a + 1.0 < Float.ofNat b ↔ a + 1 < b := by
  have hna : (Float.ofNat a + 1.0).toModel.unpack.isNaN = false := by
    rw [unpack_ofNat_add_one ha, isNaN_whole]
  have hnb : (Float.ofNat b).toModel.unpack.isNaN = false := by
    rw [unpack_ofNat hb, isNaN_whole]
  have hle := place_whole_le_iff hb ha
  rw [lt_iff, position, position, unpack_ofNat_add_one ha, unpack_ofNat hb]
  constructor
  · intro h
    omega
  · intro h
    exact ⟨hna, hnb, by omega⟩

end TracePlot.Number
