import TracePlot.Proofs.Number.Digits
import TracePlot.Proofs.Resource.Ranges
import TracePlot.Proofs.Success
import TracePlot.Proofs.Text.Tokens

/-! What the text of an id set denotes, said by the form of its tokens, and that reading a text
gives the set of ids that it denotes. -/

namespace TracePlot.Resource

/-- An id as text: digits of its value, after a plus sign or not. -/
def IsId (cs : List Char) (n : Nat) : Prop :=
  ∃ digits, (cs = digits ∨ cs = '+' :: digits) ∧ digits ≠ [] ∧
    (∀ c ∈ digits, c.isDigit = true) ∧ Nat.ofDigitChars 10 digits 0 = n ∧ n ≤ maxId

/-- A token that is a range as text: an id, or two ascending ids joined by a dash. -/
def IsRange (w : List Char) (r : IdRange) : Prop :=
  (IsId w r.first ∧ r.last = r.first) ∨
    ∃ before after, w = before ++ '-' :: after ∧ IsId before r.first ∧ IsId after r.last ∧
      r.first ≤ r.last

/-- The token is the id or a range around it. -/
def TokenDenotes (w : List Char) (n : Nat) : Prop :=
  IsId w n ∨ ∃ before after a b, w = before ++ '-' :: after ∧ IsId before a ∧ IsId after b ∧
    a ≤ n ∧ n ≤ b

/-- One of the tokens of the text denotes the id. -/
def Denotes (text : String) (n : Nat) : Prop :=
  ∃ w, Text.IsToken text.toList w ∧ TokenDenotes w n

theorem readId?_eq_some_iff {cs : List Char} {n : Nat} : readId? cs = some n ↔ IsId cs n := by
  have hdigits (digits : List Char) :
      (if (digits.isEmpty || !digits.all Number.isDigit) = true then none
      else if Number.natOfDigits digits ≤ maxId then some (Number.natOfDigits digits) else none) =
        some n ↔ digits ≠ [] ∧ (∀ c ∈ digits, c.isDigit = true) ∧
          Nat.ofDigitChars 10 digits 0 = n ∧ n ≤ maxId := by
    rw [Number.natOfDigits_eq]
    by_cases hne : digits = []
    · simp [hne]
    by_cases hall : ∀ c ∈ digits, c.isDigit = true
    · have hgood : (digits.isEmpty || !digits.all Number.isDigit) = false := by
        simpa [hne, Number.isDigit_eq] using hall
      rw [hgood, if_neg (by simp)]
      split
      · next hfit =>
        simp only [Option.some.injEq]
        exact ⟨fun h => ⟨hne, hall, h, h ▸ hfit⟩, fun h => h.2.2.1⟩
      · next hfit => exact ⟨nofun, fun h => absurd (h.2.2.1 ▸ h.2.2.2) hfit⟩
    · have hbad : (digits.isEmpty || !digits.all Number.isDigit) = true := by
        simpa [hne, Number.isDigit_eq] using hall
      rw [hbad, if_pos rfl]
      exact ⟨nofun, fun h => absurd h.2.1 hall⟩
  unfold readId? IsId
  split
  · next rest =>
    refine (hdigits rest).trans ⟨fun h => ⟨rest, .inr rfl, h⟩, ?_⟩
    rintro ⟨digits, rfl | heq, h⟩
    · have hplus : '+'.isDigit = true := h.2.1 '+' (by simp)
      exact absurd hplus (by decide)
    · cases heq
      exact h
  · next hplus =>
    refine (hdigits cs).trans ⟨fun h => ⟨cs, .inl rfl, h⟩, ?_⟩
    rintro ⟨digits, rfl | rfl, h⟩
    · exact h
    · exact absurd rfl (hplus digits)

theorem IsId.le_maxId {cs : List Char} {n : Nat} (h : IsId cs n) : n ≤ maxId := by
  obtain ⟨digits, -, -, -, -, hfit⟩ := h
  exact hfit

theorem IsId.dash_not_mem {cs : List Char} {n : Nat} (h : IsId cs n) : '-' ∉ cs := by
  obtain ⟨digits, hcs, -, hall, -⟩ := h
  have hdash : '-' ∉ digits := fun hd => absurd (hall '-' hd) (by decide)
  rcases hcs with rfl | rfl
  · exact hdash
  · simpa using hdash

theorem readRange_eq_ok_iff {w : List Char} {r : IdRange} : readRange w = .ok r ↔ IsRange w r := by
  unfold readRange
  constructor
  · intro h
    split at h
    · split at h
      · next id hid =>
        cases h
        exact .inl ⟨readId?_eq_some_iff.mp hid, rfl⟩
      · cases h
    · next before after hcut =>
      split at h
      · next first last hfirst hlast =>
        split at h
        · cases h
        · next hle =>
          cases h
          exact .inr ⟨before, after, Text.cutAt?_eq_some hcut, readId?_eq_some_iff.mp hfirst,
            readId?_eq_some_iff.mp hlast, Nat.le_of_not_lt hle⟩
      · cases h
  · rintro (⟨hid, hlast⟩ | ⟨before, after, rfl, hfirst, hlast, hle⟩)
    · rw [Text.cutAt?_eq_none hid.dash_not_mem, readId?_eq_some_iff.mpr hid]
      cases r
      simp_all
    · rw [Text.cutAt?_append hfirst.dash_not_mem]
      dsimp only
      rw [readId?_eq_some_iff.mpr hfirst, readId?_eq_some_iff.mpr hlast]
      exact if_neg (Nat.not_lt.mpr hle)

theorem IsRange.proper {w : List Char} {r : IdRange} (h : IsRange w r) : r.Proper := by
  rcases h with ⟨hid, hlast⟩ | ⟨before, after, -, -, hlast, hle⟩
  · exact ⟨hlast ▸ Nat.le_refl _, hlast ▸ hid.le_maxId⟩
  · exact ⟨hle, hlast.le_maxId⟩

theorem IsRange.denotes_iff {w : List Char} {r : IdRange} (h : IsRange w r) {n : Nat} :
    TokenDenotes w n ↔ r.first ≤ n ∧ n ≤ r.last := by
  constructor
  · rintro (hid | ⟨before, after, a, b, hw, ha, hb, hbounds⟩)
    · have hsame : readRange w = .ok ⟨n, n⟩ := readRange_eq_ok_iff.mpr (.inl ⟨hid, rfl⟩)
      rw [readRange_eq_ok_iff.mpr h] at hsame
      cases hsame
      exact ⟨Nat.le_refl _, Nat.le_refl _⟩
    · have hsame : readRange w = .ok ⟨a, b⟩ := readRange_eq_ok_iff.mpr
        (.inr ⟨before, after, hw, ha, hb, Nat.le_trans hbounds.1 hbounds.2⟩)
      rw [readRange_eq_ok_iff.mpr h] at hsame
      cases hsame
      exact hbounds
  · rintro ⟨hlo, hhi⟩
    rcases h with ⟨hid, hlast⟩ | ⟨before, after, hw, ha, hb, -⟩
    · have hn : n = r.first := by omega
      exact .inl (hn ▸ hid)
    · exact .inr ⟨before, after, _, _, hw, ha, hb, hlo, hhi⟩

theorem ranges_of_tokens {ws : List (List Char)} {ranges : List IdRange}
    (h : List.Forall₂ IsRange ws ranges) :
    (∀ r ∈ ranges, r.Proper) ∧ ∀ n, Holds ranges n ↔ ∃ w ∈ ws, TokenDenotes w n := by
  induction h with
  | nil => simp [Holds]
  | cons hw _ ih =>
    obtain ⟨hproper, hholds⟩ := ih
    refine ⟨List.forall_mem_cons.mpr ⟨hw.proper, hproper⟩, fun n => ?_⟩
    rw [holds_cons, hholds, ← hw.denotes_iff]
    simp

/-- A text that can be read gives a set with gaps that holds the ids the text denotes. -/
theorem parse_spec {text : String} {s : IdSet} (h : IdSet.parse text = .ok s) :
    Gapped s.ranges ∧ ∀ n, Holds s.ranges n ↔ Denotes text n := by
  unfold IdSet.parse IdSet.parseChars at h
  cases hread : (Text.tokens text.toList).mapM readRange with
  | error e =>
    rw [hread] at h
    cases h
  | ok ranges =>
    rw [hread] at h
    cases h
    have htokens := (mapM_eq_ok_iff.mp hread).imp fun _ _ => readRange_eq_ok_iff.mp
    obtain ⟨hproper, hdenote⟩ := ranges_of_tokens htokens
    obtain ⟨hgapped, hholds⟩ := IdSet.ofRanges_spec hproper
    refine ⟨hgapped, fun n => ?_⟩
    rw [hholds, hdenote, Denotes]
    simp only [Text.mem_tokens_iff]

/-- A set that was read has proper ranges with gaps, and lists the ids of its text, ascending. -/
theorem parsed_ids_are_those_denoted {text : String} {s : IdSet} (h : IdSet.parse text = .ok s) :
    (∀ r ∈ s.ranges, r.first ≤ r.last ∧ r.last ≤ maxId) ∧
      (s.ranges.Pairwise fun a b => a.last + 1 < b.first) ∧
      (∀ n, n ∈ s.ids ↔ Denotes text n) ∧ s.ids.Pairwise (· < ·) := by
  obtain ⟨hgapped, hdenote⟩ := parse_spec h
  refine ⟨fun r hr => ?_, hgapped.gaps, fun n => ?_, IdSet.ids_ascending hgapped⟩
  · have hr := hgapped.proper r hr
    exact ⟨hr.ordered, hr.fits⟩
  · rw [IdSet.mem_ids, hdenote]

theorem parse_to_greatest_id : IdSet.parse "4294967295 7 5-6 4294967294" =
    .ok ⟨[⟨5, 7⟩, ⟨4294967294, 4294967295⟩]⟩ := by
  have hread : (Text.tokens "4294967295 7 5-6 4294967294".toList).mapM readRange =
      .ok [⟨4294967295, 4294967295⟩, ⟨7, 7⟩, ⟨5, 6⟩, ⟨4294967294, 4294967294⟩] := by
    rfl
  have hsort : [⟨4294967295, 4294967295⟩, ⟨7, 7⟩, ⟨5, 6⟩, ⟨4294967294, 4294967294⟩].mergeSort
      IdRange.le =
        [⟨5, 6⟩, ⟨7, 7⟩, ⟨4294967294, 4294967294⟩, ⟨4294967295, 4294967295⟩] := by
    simp [List.mergeSort, List.MergeSort.Internal.splitInTwo, IdRange.le]
  rw [IdSet.parse, IdSet.parseChars, hread]
  change Except.ok (IdSet.ofRanges _) = _
  rw [IdSet.ofRanges, hsort]
  rfl

theorem parsed_to_greatest_id_denoted :
    IdSet.parse "4294967295 7 5-6 4294967294" = .ok ⟨[⟨5, 7⟩, ⟨4294967294, 4294967295⟩]⟩ ∧
      Denotes "4294967295 7 5-6 4294967294" 4294967295 ∧
      ¬ Denotes "4294967295 7 5-6 4294967294" 4294967293 := by
  have hids := (parsed_ids_are_those_denoted parse_to_greatest_id).2.2.1
  refine ⟨parse_to_greatest_id, (hids _).mp ?_, fun h => absurd ((hids _).mpr h) ?_⟩
  · decide
  · decide

end TracePlot.Resource
