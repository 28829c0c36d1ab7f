import Mathlib.Data.List.Basic
import TracePlot.Text.Blank

/-! Splitting a text by blanks and at a mark: the tokens are the maximal runs without a blank, and
words with a blank between them are the tokens of what they form. -/

namespace TracePlot.Text

/-- A maximal run of characters that are not blank. -/
def IsToken (cs w : List Char) : Prop :=
  ∃ before after, cs = before ++ w ++ after ∧ w ≠ [] ∧ (∀ c ∈ w, isBlank c = false) ∧
    (∀ c ∈ before.getLast?, isBlank c = true) ∧ ∀ c ∈ after.head?, isBlank c = true

/-- A token with the text before it. -/
def IsTokenAfter (before cs w : List Char) : Prop :=
  ∃ after, cs = before ++ w ++ after ∧ w ≠ [] ∧ (∀ c ∈ w, isBlank c = false) ∧
    (∀ c ∈ before.getLast?, isBlank c = true) ∧ ∀ c ∈ after.head?, isBlank c = true

/-- The first token that has a property. -/
def IsFirstToken (p : List Char → Prop) (cs w : List Char) : Prop :=
  ∃ before, IsTokenAfter before cs w ∧ p w ∧ ∀ v, IsToken before v → ¬ p v

variable {cs w : List Char}

theorem splitBlanks_word (run rest : List Char) (h : ∀ c ∈ w, isBlank c = false) :
    splitBlanks run (w ++ rest) = splitBlanks (w.reverse ++ run) rest := by
  induction w generalizing run with
  | nil => rfl
  | cons c w ih =>
    have hc : isBlank c = false := h c (by simp)
    rw [List.cons_append, splitBlanks, hc, if_neg (by simp), ih _ fun d hd => h d (by simp [hd])]
    simp

theorem splitBlanks_stop {run : List Char} (hrun : run ≠ [])
    (h : ∀ c ∈ cs.head?, isBlank c = true) : splitBlanks run cs = run.reverse :: tokens cs := by
  cases cs with
  | nil => simp [splitBlanks, tokens, hrun]
  | cons c rest =>
    have hc : isBlank c = true := h c rfl
    simp [splitBlanks, tokens, hc, hrun]

theorem tokens_blank {c : Char} (h : isBlank c = true) : tokens (c :: cs) = tokens cs := by
  simp [tokens, splitBlanks, h]

theorem tokens_word (rest : List Char) (hw : w ≠ []) (hword : ∀ c ∈ w, isBlank c = false)
    (hrest : ∀ c ∈ rest.head?, isBlank c = true) : tokens (w ++ rest) = w :: tokens rest := by
  rw [tokens, splitBlanks_word [] rest hword, List.append_nil,
    splitBlanks_stop (by simpa using hw) hrest, List.reverse_reverse]

theorem splitBlanks_append {run before rest : List Char} (hbefore : before ≠ [])
    (h : ∀ c ∈ before.getLast?, isBlank c = true) :
    splitBlanks run (before ++ rest) = splitBlanks run before ++ tokens rest := by
  induction before generalizing run with
  | nil => exact absurd rfl hbefore
  | cons c before ih =>
    cases before with
    | nil =>
      have hc : isBlank c = true := h c rfl
      by_cases hrun : run.isEmpty = true <;> simp [splitBlanks, tokens, hc, hrun]
    | cons d before =>
      have hlast : ∀ e ∈ (d :: before).getLast?, isBlank e = true := by
        intro e he
        exact h e (by rwa [List.getLast?_cons_cons])
      have hnext (run : List Char) : splitBlanks run (d :: before ++ rest) =
          splitBlanks run (d :: before) ++ tokens rest :=
        ih (List.cons_ne_nil _ _) hlast
      rw [List.cons_append, splitBlanks, splitBlanks]
      split
      · split
        · exact hnext []
        · rw [hnext [], List.cons_append]
      · exact hnext (c :: run)

theorem tokens_append {before rest : List Char} (h : ∀ c ∈ before.getLast?, isBlank c = true) :
    tokens (before ++ rest) = tokens before ++ tokens rest := by
  by_cases hbefore : before = []
  · subst hbefore
    rfl
  · exact splitBlanks_append hbefore h

theorem IsTokenAfter.append_blank {before run : List Char} {c : Char} (h : IsTokenAfter before cs w)
    (hc : isBlank c = true) : IsTokenAfter (run ++ c :: before) (run ++ c :: cs) w := by
  obtain ⟨after, rfl, hne, hword, hlast, hhead⟩ := h
  refine ⟨after, by simp, hne, hword, fun d hd => ?_, hhead⟩
  rw [List.getLast?_append, List.getLast?_cons] at hd
  cases hb : before.getLast? with
  | none => simp_all
  | some e => exact hlast d (by simp_all)

theorem exists_before_of_splitBlanks (run : List Char) (hrun : ∀ c ∈ run, isBlank c = false)
    {ws rest : List (List Char)} (h : splitBlanks run cs = ws ++ w :: rest) :
    ∃ before, IsTokenAfter before (run.reverse ++ cs) w ∧ tokens before = ws := by
  induction cs generalizing run ws with
  | nil =>
    have hne : run ≠ [] := by
      rintro rfl
      simp [splitBlanks] at h
    have hw : ws = [] ∧ w = run.reverse := by
      cases ws <;> simp_all [splitBlanks]
    obtain ⟨rfl, rfl⟩ := hw
    exact ⟨[], ⟨[], by simp, by simpa using hne, by simpa using hrun, by simp, by simp⟩, rfl⟩
  | cons c cs ih =>
    rw [splitBlanks] at h
    by_cases hc : isBlank c = true
    · by_cases hempty : run = []
      · subst hempty
        rw [if_pos hc, if_pos List.isEmpty_nil] at h
        obtain ⟨before, htoken, hbefore⟩ := ih [] (by simp) h
        exact ⟨c :: before, htoken.append_blank hc, by rw [tokens_blank hc, hbefore]⟩
      · rw [if_pos hc, if_neg (by simpa using hempty)] at h
        cases ws with
        | nil =>
          obtain ⟨rfl, -⟩ := List.cons_eq_cons.mp h
          exact ⟨[], ⟨c :: cs, by simp, by simpa using hempty, by simpa using hrun, by simp,
            by simpa using hc⟩, rfl⟩
        | cons v vs =>
          obtain ⟨rfl, hvs⟩ := List.cons_eq_cons.mp h
          obtain ⟨before, htoken, hbefore⟩ := ih [] (by simp) hvs
          refine ⟨run.reverse ++ c :: before, htoken.append_blank hc, ?_⟩
          rw [tokens_word _ (by simpa using hempty) (by simpa using hrun) (by simpa using hc),
            tokens_blank hc, hbefore]
    · rw [if_neg hc] at h
      have hword : ∀ d ∈ c :: run, isBlank d = false := by simp_all
      have := ih (c :: run) hword h
      rwa [List.reverse_cons, List.append_assoc] at this

/-- The tokens are listed in the order of the text. -/
theorem exists_tokens_eq_append_iff {ws : List (List Char)} :
    (∃ rest, tokens cs = ws ++ w :: rest) ↔
      ∃ before, IsTokenAfter before cs w ∧ tokens before = ws := by
  constructor
  · rintro ⟨rest, h⟩
    exact exists_before_of_splitBlanks [] (by simp) h
  · rintro ⟨before, ⟨after, rfl, hne, hword, hlast, hhead⟩, rfl⟩
    refine ⟨tokens after, ?_⟩
    rw [List.append_assoc, tokens_append hlast, tokens_word _ hne hword hhead]

/-- The tokens of a text are its maximal runs of characters that are not blank. -/
theorem mem_tokens_iff : w ∈ tokens cs ↔ IsToken cs w := by
  rw [List.mem_iff_append]
  constructor
  · rintro ⟨ws, hws⟩
    obtain ⟨before, htoken, -⟩ := exists_tokens_eq_append_iff.mp hws
    exact ⟨before, htoken⟩
  · rintro ⟨before, htoken⟩
    exact ⟨tokens before, exists_tokens_eq_append_iff.mpr ⟨before, htoken, rfl⟩⟩

theorem tokens_intercalate {words : List (List Char)}
    (h : ∀ v ∈ words, v ≠ [] ∧ ∀ c ∈ v, isBlank c = false) :
    tokens ([' '].intercalate words) = words := by
  have hspace : isBlank ' ' = true := by decide
  induction words with
  | nil => rfl
  | cons v words ih =>
    obtain ⟨hne, hword⟩ := h v (by simp)
    have hrest := ih fun u hu => h u (by simp [hu])
    cases words with
    | nil =>
      have hv := tokens_word [] hne hword (by simp)
      rw [List.append_nil] at hv
      rw [List.intercalate_singleton, hv]
      rfl
    | cons u us =>
      rw [List.intercalate_cons_cons, List.append_assoc, tokens_word _ hne hword (by simp [hspace]),
        List.singleton_append, tokens_blank hspace, hrest]

theorem cutAt?_eq_none {mark : Char} (h : mark ∉ cs) : cutAt? mark cs = none := by
  induction cs with
  | nil => rfl
  | cons c cs ih =>
    have hc : c ≠ mark := fun hc => h (by simp [hc])
    rw [cutAt?, if_neg hc, ih fun hm => h (by simp [hm])]
    rfl

theorem cutAt?_append {mark : Char} {before : List Char} (h : mark ∉ before) (after : List Char) :
    cutAt? mark (before ++ mark :: after) = some (before, after) := by
  induction before with
  | nil => simp [cutAt?]
  | cons c before ih =>
    have hc : c ≠ mark := fun hc => h (by simp [hc])
    rw [List.cons_append, cutAt?, if_neg hc, ih fun hm => h (by simp [hm])]
    rfl

theorem cutAt?_eq_some {mark : Char} {before after : List Char}
    (h : cutAt? mark cs = some (before, after)) : cs = before ++ mark :: after := by
  induction cs generalizing before with
  | nil => cases h
  | cons c cs ih =>
    rw [cutAt?] at h
    split at h
    · next hc =>
      cases h
      simp [hc]
    · next hc =>
      obtain ⟨⟨b, a⟩, hcut, heq⟩ := Option.map_eq_some_iff.mp h
      cases heq
      simp [ih hcut]

end TracePlot.Text
