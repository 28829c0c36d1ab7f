import TracePlot.Proofs.Number.Exact

/-! The total order of words. It tells all words apart, also those of both zeros and those of NaNs,
and where no word is a NaN it goes with the order of the numbers. -/

open Float.Model

namespace TracePlot.Number

variable {u v w : UInt64} {x y : Float}

theorem wordRankLE_trans (h : wordRankLE u v = true) (h' : wordRankLE v w = true) :
    wordRankLE u w = true := by
  simp only [wordRankLE, decide_eq_true_eq] at h h' ⊢
  omega

theorem wordRankLE_total (v w : UInt64) : (wordRankLE v w || wordRankLE w v) = true := by
  simp only [wordRankLE, Bool.or_eq_true, decide_eq_true_eq]
  omega

theorem wordRank_inj (h : wordRank v = wordRank w) : v = w := by
  unfold wordRank at h
  rw [← UInt64.toNat_inj]
  split at h <;> split at h <;> omega

theorem eq_of_wordRankLE (h : wordRankLE v w = true) (h' : wordRankLE w v = true) : v = w := by
  simp only [wordRankLE, decide_eq_true_eq] at h h'
  exact wordRank_inj (le_antisymm h h')

theorem position_ofBits (h : (Float.ofBits w).isNaN = false) :
    position (Float.ofBits w) =
      if w.toNat < 2 ^ 63 then (w.toNat : Int) else 2 ^ 63 - w.toNat := by
  obtain ⟨hcanonical, hplace⟩ := unpack_spec w.toBitVec
  have hsame : (Float.ofBits w).toModel.unpack =
      UnpackedFloat.unpack Format.binary64 w.toBitVec :=
    repacked_of_canonical hcanonical
  change (Float.ofBits w).toModel.unpack.isNaN = false at h
  rw [hsame] at h
  rw [position, hsame]
  exact hplace h

theorem le_of_wordRankLE (hv : (Float.ofBits v).isNaN = false)
    (hw : (Float.ofBits w).isNaN = false) (h : wordRankLE v w = true) :
    Float.ofBits v ≤ Float.ofBits w := by
  have hrank : wordRank v ≤ wordRank w := of_decide_eq_true h
  refine le_iff.mpr ⟨hv, hw, ?_⟩
  rw [position_ofBits hv, position_ofBits hw]
  unfold wordRank at hrank
  split at hrank <;> split at hrank <;> split <;> split <;> omega

theorem le_of_rank_le (hx : x.isNaN = false) (hy : y.isNaN = false) (h : rank x ≤ rank y) :
    x ≤ y := by
  rw [← Float.ofBits_toBits x, ← Float.ofBits_toBits y]
  refine le_of_wordRankLE ?_ ?_ (decide_eq_true h)
  · rwa [Float.ofBits_toBits]
  · rwa [Float.ofBits_toBits]

theorem rank_lt_of_lt (h : x < y) : rank x < rank y := by
  by_contra hrank
  have hle : y ≤ x := le_of_rank_le (lt_iff.mp h).2.1 (lt_iff.mp h).1 (not_lt.mp hrank)
  exact not_le_of_lt h hle

end TracePlot.Number
