import TracePlot.Proofs.Resource.Grammar

/-! The one text of an id set: reading the text of a set gives the set back, and texts of the same
ids are read to sets of the same text. -/

namespace TracePlot.Resource

theorem isBlank_of_isDigit {c : Char} (h : c.isDigit = true) : Text.isBlank c = false := by
  have hcode : 48 ≤ c.toNat ∧ c.toNat ≤ 57 := by
    simpa [Char.isDigit, UInt32.le_iff_toNat_le] using h
  simp [Text.isBlank, Text.blankRanges]
  omega

theorem isId_toDigits {n : Nat} (h : n ≤ maxId) : IsId (Nat.toDigits 10 n) n :=
  ⟨Nat.toDigits 10 n, .inl rfl, Nat.toDigits_ne_nil,
    fun _ hc => Nat.isDigit_of_mem_toDigits (by decide) (by decide) hc,
    Nat.ofDigitChars_ten_toDigits, h⟩

theorem not_blank_of_mem_toDigits {n : Nat} {c : Char} (h : c ∈ Nat.toDigits 10 n) :
    Text.isBlank c = false :=
  isBlank_of_isDigit (Nat.isDigit_of_mem_toDigits (by decide) (by decide) h)

theorem toList_rangeText (r : IdRange) : (IdSet.rangeText r).toList =
    if r.first = r.last then Nat.toDigits 10 r.first
    else Nat.toDigits 10 r.first ++ '-' :: Nat.toDigits 10 r.last := by
  unfold IdSet.rangeText
  split <;> simp [Nat.toString_eq_repr, Nat.toList_repr]

theorem isRange_rangeText {r : IdRange} (h : r.Proper) : IsRange (IdSet.rangeText r).toList r := by
  have hlast := isId_toDigits h.fits
  have hfirst := isId_toDigits (Nat.le_trans h.ordered h.fits)
  rw [toList_rangeText]
  split
  · next hsame => exact .inl ⟨hfirst, hsame.symm⟩
  · exact .inr ⟨_, _, rfl, hfirst, hlast, h.ordered⟩

theorem rangeText_is_word (r : IdRange) : (IdSet.rangeText r).toList ≠ [] ∧
    ∀ c ∈ (IdSet.rangeText r).toList, Text.isBlank c = false := by
  have hdash : Text.isBlank '-' = false := by decide
  rw [toList_rangeText]
  split
  · exact ⟨Nat.toDigits_ne_nil, fun c hc => not_blank_of_mem_toDigits hc⟩
  · refine ⟨by simp, fun c hc => ?_⟩
    rcases List.mem_append.mp hc with hc | hc
    · exact not_blank_of_mem_toDigits hc
    · rcases List.mem_cons.mp hc with rfl | hc
      · exact hdash
      · exact not_blank_of_mem_toDigits hc

theorem tokens_text (s : IdSet) :
    Text.tokens s.text.toList = s.ranges.map fun r => (IdSet.rangeText r).toList := by
  have hwords : ∀ v ∈ s.ranges.map fun r => (IdSet.rangeText r).toList,
      v ≠ [] ∧ ∀ c ∈ v, Text.isBlank c = false := by
    intro v hv
    obtain ⟨r, -, rfl⟩ := List.mem_map.mp hv
    exact rangeText_is_word r
  have htext : s.text.toList =
      [' '].intercalate (s.ranges.map fun r => (IdSet.rangeText r).toList) := by
    rw [IdSet.text, String.toList_intercalate, List.map_map]
    rfl
  rw [htext, Text.tokens_intercalate hwords]

theorem parse_text_eq_ofRanges {s : IdSet} (h : ∀ r ∈ s.ranges, r.Proper) :
    IdSet.parse s.text = .ok (IdSet.ofRanges s.ranges) := by
  have hread : (Text.tokens s.text.toList).mapM readRange = .ok s.ranges := by
    rw [tokens_text, mapM_eq_ok_iff, List.forall₂_map_left_iff, List.forall₂_same]
    exact fun r hr => readRange_eq_ok_iff.mpr (isRange_rangeText (h r hr))
  rw [IdSet.parse, IdSet.parseChars, hread]
  rfl

theorem IdSet.eq_of_holds_iff {s s' : IdSet} (hs : Gapped s.ranges) (hs' : Gapped s'.ranges)
    (h : ∀ n, Holds s.ranges n ↔ Holds s'.ranges n) : s = s' := by
  have hranges := hs.eq_of_holds_iff hs' h
  cases s
  cases s'
  exact congrArg IdSet.mk hranges

theorem parse_text {s : IdSet} (h : Gapped s.ranges) : IdSet.parse s.text = .ok s := by
  -- What is read has gaps and the same ids, so it is `s`; joining need not be looked at again.
  obtain ⟨hgapped, hholds⟩ := IdSet.ofRanges_spec h.proper
  rw [parse_text_eq_ofRanges h.proper, IdSet.eq_of_holds_iff hgapped h hholds]

/-- Texts of the same ids, and no others, are read to the same set, and no two sets have the same
text. -/
theorem text_is_canonical {t t' : String} {s s' : IdSet} (h : IdSet.parse t = .ok s)
    (h' : IdSet.parse t' = .ok s') :
    IdSet.parse s.text = .ok s ∧ ((∀ n, Denotes t n ↔ Denotes t' n) ↔ s = s') ∧
      (s = s' ↔ s.text = s'.text) := by
  obtain ⟨hgapped, hdenote⟩ := parse_spec h
  obtain ⟨hgapped', hdenote'⟩ := parse_spec h'
  refine ⟨parse_text hgapped, ⟨fun hsame => ?_, ?_⟩, ⟨fun hsame => by rw [hsame], fun htext => ?_⟩⟩
  · refine IdSet.eq_of_holds_iff hgapped hgapped' fun n => ?_
    rw [hdenote, hdenote', hsame]
  · rintro rfl n
    rw [← hdenote, ← hdenote']
  · have hread := parse_text hgapped
    rw [htext, parse_text hgapped'] at hread
    cases hread
    rfl

theorem canonical_to_greatest_id :
    (IdSet.parse "4294967295 7 5-6 4294967294" = .ok ⟨[⟨5, 7⟩, ⟨4294967294, 4294967295⟩]⟩ ∧
      IdSet.parse "5-7 4294967294-4294967295" = .ok ⟨[⟨5, 7⟩, ⟨4294967294, 4294967295⟩]⟩) ∧
    ∀ n, Denotes "4294967295 7 5-6 4294967294" n ↔ Denotes "5-7 4294967294-4294967295" n := by
  have hjoined := parse_to_greatest_id
  have hplain : IdSet.parse "5-7 4294967294-4294967295" =
      .ok ⟨[⟨5, 7⟩, ⟨4294967294, 4294967295⟩]⟩ := by
    have htext : IdSet.text ⟨[⟨5, 7⟩, ⟨4294967294, 4294967295⟩]⟩ =
        "5-7 4294967294-4294967295" := by
      decide
    rw [← htext]
    exact parse_text (parse_spec hjoined).1
  exact ⟨⟨hjoined, hplain⟩, (text_is_canonical hjoined hplain).2.1.mpr rfl⟩

end TracePlot.Resource
