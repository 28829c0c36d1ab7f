import TracePlot.Proofs.Resource.Grammar

/-! The texts of id sets that are refused, and the fault that is reported: that of the first token
that is neither an id nor two ascending ids joined by a dash. -/

namespace TracePlot.Resource

/-- A token of two ids joined by a dash, the larger one first. -/
def IsReversed (w : List Char) : Prop :=
  ∃ before after a b, w = before ++ '-' :: after ∧ IsId before a ∧ IsId after b ∧ b < a

/-- The fault of a token that is no range, which names the whole token. -/
inductive Refused (w : List Char) : IdSet.Fault → Prop
  | reversed (h : IsReversed w) : Refused w (.reversed (String.ofList w))
  | invalid (hrange : ¬ ∃ r, IsRange w r) (hreversed : ¬ IsReversed w) :
      Refused w (.invalid (String.ofList w))

variable {w : List Char} {fault : IdSet.Fault}

theorem readRange_of_reversed (h : IsReversed w) :
    readRange w = .error (.reversed (String.ofList w)) := by
  obtain ⟨before, after, a, b, rfl, ha, hb, hlt⟩ := h
  unfold readRange
  rw [Text.cutAt?_append ha.dash_not_mem]
  dsimp only
  rw [readId?_eq_some_iff.mpr ha, readId?_eq_some_iff.mpr hb]
  exact if_pos hlt

theorem readRange_eq_error (h : readRange w = .error fault) :
    (IsReversed w ∧ fault = .reversed (String.ofList w)) ∨ fault = .invalid (String.ofList w) := by
  unfold readRange at h
  split at h
  · split at h
    · cases h
    · cases h
      exact .inr rfl
  · next before after hcut =>
    split at h
    · next first last hfirst hlast =>
      split at h
      · next hlt =>
        cases h
        exact .inl ⟨⟨before, after, first, last, Text.cutAt?_eq_some hcut,
          readId?_eq_some_iff.mp hfirst, readId?_eq_some_iff.mp hlast, hlt⟩, rfl⟩
      · cases h
    · cases h
      exact .inr rfl

theorem readRange_fails_iff : (∃ fault, readRange w = .error fault) ↔ ¬ ∃ r, IsRange w r := by
  simp only [← readRange_eq_ok_iff]
  cases readRange w <;> simp

theorem readRange_eq_error_iff : readRange w = .error fault ↔ Refused w fault := by
  constructor
  · intro h
    have hrange := readRange_fails_iff.mp ⟨fault, h⟩
    by_cases hreversed : IsReversed w
    · rw [readRange_of_reversed hreversed] at h
      cases h
      exact .reversed hreversed
    · rcases readRange_eq_error h with ⟨hrev, -⟩ | rfl
      · exact absurd hrev hreversed
      · exact .invalid hrange hreversed
  · rintro (hreversed | ⟨hrange, hreversed⟩)
    · exact readRange_of_reversed hreversed
    · obtain ⟨fault, h⟩ := readRange_fails_iff.mpr hrange
      rcases readRange_eq_error h with ⟨hrev, -⟩ | rfl
      · exact absurd hrev hreversed
      · exact h

theorem isFirst_tokens_iff {p : List Char → Prop} {cs : List Char} :
    IsFirst p (Text.tokens cs) w ↔ Text.IsFirstToken p cs w := by
  constructor
  · rintro ⟨ws, rest, htokens, hw, hnone⟩
    obtain ⟨before, htoken, rfl⟩ := Text.exists_tokens_eq_append_iff.mp ⟨rest, htokens⟩
    exact ⟨before, htoken, hw, fun v hv => hnone v (Text.mem_tokens_iff.mpr hv)⟩
  · rintro ⟨before, htoken, hw, hnone⟩
    obtain ⟨rest, htokens⟩ := Text.exists_tokens_eq_append_iff.mpr ⟨before, htoken, rfl⟩
    exact ⟨_, rest, htokens, hw, fun v hv => hnone v (Text.mem_tokens_iff.mp hv)⟩

theorem exists_parse_iff {text : String} :
    (∃ s, IdSet.parse text = .ok s) ↔
      ∃ ranges, (Text.tokens text.toList).mapM readRange = .ok ranges := by
  unfold IdSet.parse IdSet.parseChars
  cases (Text.tokens text.toList).mapM readRange <;> simp [Except.map]

/-- A text is read just when each of its tokens is a range. Otherwise the fault is that of the first
token which is none. -/
theorem text_read_iff_tokens_are_ranges (text : String) :
    ((∃ s, IdSet.parse text = .ok s) ↔
      ∀ w, Text.IsToken text.toList w → ∃ r, IsRange w r) ∧
    (∀ fault, IdSet.parse text = .error fault ↔
      ∃ w, Text.IsFirstToken (fun w => ¬ ∃ r, IsRange w r) text.toList w ∧ Refused w fault) ∧
    (∀ token, (IdSet.Fault.reversed token).message = "reversed interval '" ++ token ++ "'") ∧
    ∀ token, (IdSet.Fault.invalid token).message =
      "invalid resource interval '" ++ token ++ "'" := by
  refine ⟨?_, fun fault => ?_, fun _ => rfl, fun _ => rfl⟩
  · simp only [exists_parse_iff, exists_mapM_iff, Text.mem_tokens_iff, readRange_eq_ok_iff]
  · rw [IdSet.parse, IdSet.parseChars, map_eq_error_iff, mapM_eq_error_iff]
    simp only [readRange_fails_iff]
    simp only [isFirst_tokens_iff, readRange_eq_error_iff]

-- A token is split at its first dash, and a second one is no part of an id.
example : IdSet.parse "0-3 +5-2 x" = .error (.reversed "+5-2") := by decide

example : IdSet.parse "0-3 5--2" = .error (.invalid "5--2") := by decide

end TracePlot.Resource
