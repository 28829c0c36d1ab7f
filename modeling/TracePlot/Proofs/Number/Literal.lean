import TracePlot.Number.Literal
import TracePlot.Proofs.Number.Arithmetic

/-! Numbers that are read from digits alone have no minus sign. -/

open Float.Model Float.Model.UnpackedFloat

namespace TracePlot.Number

/-- The form has no minus sign. -/
def Unsigned : UnpackedFloat → Prop
  | .notANumber => True
  | .infinity s => s = .positive
  | .zero s => s = .positive
  | .finite s _ _ _ => s = .positive

section Unsigned

variable {a b : UnpackedFloat}

theorem Unsigned.exact_nonneg (h : Unsigned a) : 0 ≤ exact a := by
  cases a with
  | notANumber => exact le_rfl
  | infinity s => exact le_rfl
  | zero s => exact le_rfl
  | finite s m e hm =>
    obtain rfl : s = .positive := h
    exact (exact_pos hm).le

theorem unsigned_roundWithAccuracy (m : Nat) (e : ℤ) (acc : Accuracy) :
    Unsigned (roundWithAccuracy Format.binary64 .positive m e acc) := by
  unfold roundWithAccuracy
  dsimp only
  split
  · rfl
  · rfl

theorem Unsigned.mul (ha : Unsigned a) (hb : Unsigned b) :
    Unsigned (UnpackedFloat.mul Format.binary64 a b) := by
  cases a <;> cases b <;> simp only [Unsigned] at ha hb <;> subst_vars <;>
    first | rfl | trivial | exact unsigned_roundWithAccuracy _ _ _

theorem Unsigned.div (ha : Unsigned a) (hb : Unsigned b) :
    Unsigned (UnpackedFloat.div Format.binary64 a b) := by
  cases a <;> cases b <;> simp only [Unsigned] at ha hb <;> subst_vars <;>
    first | rfl | trivial | exact unsigned_roundWithAccuracy _ _ _

theorem unsigned_unpack_packComponents (e : BitVec 11) (m : BitVec 52) :
    Unsigned (unpack Format.binary64 (packComponents Format.binary64 .positive e m)) := by
  have hsign : Sign.ofBitVec (unpackSign (packComponents Format.binary64 .positive e m)) =
      .positive := by
    rw [unpackSign_packComponents, Sign.ofBitVec_toBitVec]
  unfold UnpackedFloat.unpack
  dsimp only
  split
  · split
    · exact hsign
    · trivial
  · split
    · split
      · exact hsign
      · exact hsign
    · exact hsign

theorem Unsigned.repacked (h : Unsigned a) : Unsigned (repacked a) := by
  cases a with
  | notANumber => trivial
  | infinity s =>
    obtain rfl : s = .positive := h
    rfl
  | zero s =>
    obtain rfl : s = .positive := h
    rfl
  | finite s m e hm =>
    obtain rfl : s = .positive := h
    unfold Number.repacked UnpackedFloat.pack
    dsimp only
    split
    · rw [unpack_packedInfinity]
      rfl
    · split
      · exact unsigned_unpack_packComponents _ _
      · exact unsigned_unpack_packComponents _ _

end Unsigned

theorem unsigned_ofNat (n : Nat) : Unsigned (UnpackedFloat.ofNat Format.binary64 n) := by
  unfold UnpackedFloat.ofNat UnpackedFloat.ofInt UnpackedFloat.normalize
  rcases Nat.eq_zero_or_pos n with rfl | hpos
  · rfl
  · rw [compare_gt_iff_gt.mpr (by exact_mod_cast hpos)]
    exact unsigned_roundWithAccuracy _ _ _

theorem unsigned_power {x : Float} (hx : x ∈ Float.exactlyRepresentablePowersOfTen) :
    Unsigned x.toModel.unpack := by
  simp only [Float.exactlyRepresentablePowersOfTen, List.mem_toArray, List.mem_cons,
    List.not_mem_nil, or_false] at hx
  rcases hx with rfl | rfl | rfl | rfl | rfl | rfl | rfl | rfl | rfl | rfl | rfl | rfl | rfl |
    rfl | rfl | rfl | rfl | rfl | rfl | rfl | rfl | rfl | rfl
  all_goals rfl

theorem unsigned_model_ofScientific (m : Nat) (e : ℤ) :
    Unsigned (UnpackedFloat.ofScientific Format.binary64 m e) := by
  unfold UnpackedFloat.ofScientific
  split
  · rfl
  · split
    · rfl
    · split
      · rfl
      · split
        · exact Unsigned.mul rfl rfl
        · exact Unsigned.div rfl rfl

theorem unsigned_ofScientific (m : Nat) (s : Bool) (e : Nat) :
    Unsigned (Float.ofScientific m s e).toModel.unpack := by
  have hword : Unsigned m.toUInt64.toFloat.toModel.unpack := (unsigned_ofNat _).repacked
  unfold Float.ofScientific
  split
  · next h =>
    have hpower := unsigned_power (Array.getElem_mem (Nat.lt_succ_of_le h.2))
    dsimp only
    split
    · exact (hword.div hpower).repacked
    · exact (hword.mul hpower).repacked
  · exact (unsigned_model_ofScientific m _).repacked

theorem value_ofDecimal_nonneg (digits : Nat) (exponent : ℤ) :
    0 ≤ value (ofDecimal digits exponent) := by
  refine Unsigned.exact_nonneg ?_
  unfold ofDecimal
  dsimp only
  split
  · rfl
  · split
    · rfl
    · split
      · rfl
      · split
        · exact unsigned_ofScientific _ _ _
        · exact unsigned_ofScientific _ _ _

end TracePlot.Number
