import Mathlib.Data.List.Basic
import TracePlot.Text.Lines

/-! The lines of a text without the blanks around them. A line feed between two texts ends the last
line of the first one, and nothing else changes. -/

namespace TracePlot.Text

def trimmedLines (cs : List Char) : List (List Char) :=
  (lines cs).map trimChars

theorem trimChars_append_blank {c : Char} (h : isBlank c = true) (cs : List Char) :
    trimChars (cs ++ [c]) = trimChars cs := by
  unfold trimChars
  rw [List.dropWhile_append]
  by_cases hall : (cs.dropWhile isBlank).isEmpty = true
  · have hnil : cs.dropWhile isBlank = [] := by simpa using hall
    rw [if_pos hall, hnil]
    simp [h]
  · rw [if_neg hall, List.reverse_append]
    simp [h]

theorem trimChars_endLine (line : List Char) :
    trimChars (endLine line) = trimChars line.reverse := by
  unfold endLine
  split
  · next rest =>
    have hreturn : isBlank '\r' = true := by decide
    rw [List.reverse_cons, trimChars_append_blank hreturn]
  · rfl

theorem splitLines_cons {c : Char} (hc : c ≠ '\n') (line cs : List Char) :
    splitLines line (c :: cs) = splitLines (c :: line) cs := by
  simp [splitLines]

/-- If the first text ends inside a line, that line is ended; otherwise a blank line comes in. -/
theorem splitLines_append (line before after : List Char) :
    ∃ gap, (gap = [] ∨ gap = [[]]) ∧
      (splitLines line (before ++ '\n' :: after)).map trimChars =
        (splitLines line before).map trimChars ++ gap ++ trimmedLines after := by
  induction before generalizing line with
  | nil =>
    have hsplit : splitLines line ([] ++ '\n' :: after) = endLine line :: lines after := rfl
    rw [hsplit, List.map_cons, trimChars_endLine]
    by_cases hline : line = []
    · subst hline
      exact ⟨[[]], .inr rfl, rfl⟩
    · have hlast : splitLines line [] = [line.reverse] := by simp [splitLines, hline]
      rw [hlast]
      exact ⟨[], .inl rfl, rfl⟩
  | cons c before ih =>
    by_cases hc : c = '\n'
    · subst hc
      obtain ⟨gap, hgap, hrest⟩ := ih []
      refine ⟨gap, hgap, ?_⟩
      have hsplit (cs : List Char) :
          splitLines line ('\n' :: cs) = endLine line :: splitLines [] cs := rfl
      rw [List.cons_append, hsplit, hsplit, List.map_cons, List.map_cons, hrest]
      simp
    · obtain ⟨gap, hgap, hrest⟩ := ih (c :: line)
      refine ⟨gap, hgap, ?_⟩
      rw [List.cons_append, splitLines_cons hc, splitLines_cons hc, hrest]

theorem trimmedLines_append (before after : List Char) :
    ∃ gap, (gap = [] ∨ gap = [[]]) ∧
      trimmedLines (before ++ '\n' :: after) = trimmedLines before ++ gap ++ trimmedLines after :=
  splitLines_append [] before after

theorem trimmedLines_newline (cs : List Char) : trimmedLines ('\n' :: cs) = [] :: trimmedLines cs :=
  rfl

end TracePlot.Text
