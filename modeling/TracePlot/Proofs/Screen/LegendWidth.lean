import Mathlib.Order.MinMax
import TracePlot.Screen.Legend

/-! The width of a legend. It never takes more than half of its row. Lengths of labels are cut to 16
bits before they are compared with the row, so that a label which is too long for any row may count
as a short one, and the sum behind it may leave the range. -/

namespace TracePlot.Screen

/-- The sum of two lengths, if it has 16 bits. -/
def sum16? (a b : Nat) : Option Nat :=
  if a + b < 0x10000 then some (a + b) else none

namespace Legend

def longest (entries : List LegendEntry) : Nat :=
  (entries.map (·.label.length)).foldl max 0

/-- The columns that a legend gets of a row, unless a sum leaves the range on the way. -/
def width? (entries : List LegendEntry) (right : Float) (columns : Nat) : Option Nat :=
  if entries.isEmpty then some 0
  else
    (sum16? (word16 (longest entries)) 4).map fun needed =>
      min (max needed (marginColumns right columns)) (columns / 2)

/-- The width stays within half the row and, if it is less, leaves room for every label. -/
structure Fits (entries : List LegendEntry) (columns width : Nat) : Prop where
  le_half : width ≤ columns / 2
  holds : width < columns / 2 → ∀ e ∈ entries, e.label.length + 4 ≤ width

variable {entries : List LegendEntry} {right : Float} {columns w : Nat}

theorem foldl_max_le_iff {lengths : List Nat} {start n : Nat} :
    lengths.foldl max start ≤ n ↔ start ≤ n ∧ ∀ length ∈ lengths, length ≤ n := by
  induction lengths generalizing start with
  | nil => simp
  | cons length lengths ih => rw [List.foldl_cons, ih, Nat.max_le, List.forall_mem_cons, and_assoc]

theorem longest_le_iff {n : Nat} : longest entries ≤ n ↔ ∀ e ∈ entries, e.label.length ≤ n := by
  rw [longest, foldl_max_le_iff]
  simp

theorem fits_iff (hentries : entries ≠ []) :
    Fits entries columns w ↔
      w ≤ columns / 2 ∧ (w < columns / 2 → longest entries + 4 ≤ w) := by
  -- With a label among the entries, room for all of them is room for the longest.
  have hholds : (∀ e ∈ entries, e.label.length + 4 ≤ w) ↔ longest entries + 4 ≤ w := by
    constructor
    · intro hall
      obtain ⟨e, he⟩ := List.exists_mem_of_ne_nil entries hentries
      have hfour := hall e he
      have hlongest : longest entries ≤ w - 4 :=
        longest_le_iff.mpr fun e he => Nat.le_sub_of_add_le (hall e he)
      omega
    · intro hle e he
      have hlabel := longest_le_iff.mp le_rfl e he
      omega
  rw [← hholds]
  exact ⟨fun h => ⟨h.le_half, h.holds⟩, fun h => ⟨h.1, h.2⟩⟩

theorem width_le_half (entries : List LegendEntry) (right : Float) (columns : Nat) :
    width entries right columns ≤ columns / 2 := by
  unfold width
  split
  · exact Nat.zero_le _
  · exact min_le_right _ _

theorem width?_eq_some_iff (hentries : entries ≠ []) :
    width? entries right columns = some w ↔
      longest entries % 65536 < 65532 ∧
        min (max (longest entries % 65536 + 4) (marginColumns right columns)) (columns / 2) = w := by
  have hsum : longest entries % 65536 + 4 < 65536 ↔ longest entries % 65536 < 65532 := by omega
  simp [width?, sum16?, word16, hentries, hsum]

theorem width?_eq_none_iff (hentries : entries ≠ []) :
    width? entries right columns = none ↔ 65532 ≤ longest entries % 65536 := by
  rw [← not_lt, Option.eq_none_iff_forall_not_mem]
  constructor
  · exact fun h hlt => h _ ((width?_eq_some_iff hentries).mpr ⟨hlt, rfl⟩)
  · exact fun h w hw => h ((width?_eq_some_iff hentries).mp hw).1

/-- A sum that stays in the range does not show. -/
theorem width_eq_of_width? (hentries : entries ≠ []) (h : width? entries right columns = some w) :
    width entries right columns = w := by
  obtain ⟨hroom, hw⟩ := (width?_eq_some_iff hentries).mp h
  have hsum : (longest entries % 65536 + 4) % 65536 = longest entries % 65536 + 4 :=
    Nat.mod_eq_of_lt (by omega)
  rw [← hw, ← hsum]
  simp [width, word16, longest, hentries]

/-- A cut length fits as it stands if nothing was cut, and else when the row has no more columns to
give. -/
theorem fits_min_iff (hentries : entries ≠ []) (hcolumns : columns < 65536) {margin : Nat} :
    Fits entries columns (min (max (longest entries % 65536 + 4) margin) (columns / 2)) ↔
      longest entries < 65536 ∨ columns / 2 ≤ max (longest entries % 65536 + 4) margin := by
  rw [fits_iff hentries]
  constructor
  · rintro ⟨-, hholds⟩
    by_contra hcut
    rw [not_or, not_lt, not_le] at hcut
    have hlongest := hholds (by omega)
    omega
  · intro h
    refine ⟨min_le_right _ _, fun hless => ?_⟩
    rcases h with hshort | hfull
    · rw [Nat.mod_eq_of_lt hshort] at hless ⊢
      omega
    · omega

/-- The width is at most half the row. The sum behind it leaves the range just when the cut length
of the longest label is among the last four. Without that the width fits if no length was cut, and
else exactly when the cut length or the margin already takes half the row. -/
theorem width_fits_iff (hentries : entries ≠ []) (right : Float) (hcolumns : columns < 65536) :
    width entries right columns ≤ columns / 2 ∧
    (width? entries right columns = none ↔ 65532 ≤ longest entries % 65536) ∧
    (∀ w, width? entries right columns = some w → width entries right columns = w) ∧
    ((∃ w, width? entries right columns = some w ∧ Fits entries columns w) ↔
      longest entries < 65532 ∨
        longest entries % 65536 < 65532 ∧
          columns / 2 ≤ max (longest entries % 65536 + 4) (marginColumns right columns)) := by
  refine ⟨width_le_half entries right columns, width?_eq_none_iff hentries,
    fun w => width_eq_of_width? hentries, ?_⟩
  simp only [width?_eq_some_iff hentries, and_assoc, exists_and_left, exists_eq_left',
    fits_min_iff hentries hcolumns]
  omega

/-- A single entry whose label has `n` characters. -/
def labelled (n : Nat) : List LegendEntry :=
  [⟨String.ofList (List.replicate n 'x'), .run 0, .line⟩]

theorem labelled_ne_nil (n : Nat) : labelled n ≠ [] :=
  List.cons_ne_nil _ _

theorem longest_labelled (n : Nat) : longest (labelled n) = n := by
  simp [longest, labelled]

/-- The label and its margin of four take 24 columns, less than half of a row of 80. -/
theorem labelled_twenty_decides_width :
    (labelled 20 ≠ [] ∧ 80 < 65536) ∧
    width? (labelled 20) 1.0 80 = some 24 ∧ 24 < 80 / 2 ∧ Fits (labelled 20) 80 24 := by
  have hentries := labelled_ne_nil 20
  have hmargin : marginColumns 1.0 80 = 0 := by decide +kernel
  have hwidth : width? (labelled 20) 1.0 80 = some 24 := by
    rw [width?_eq_some_iff hentries, longest_labelled, hmargin]
    decide
  have hshort : longest (labelled 20) < 65532 := by
    rw [longest_labelled]
    decide
  obtain ⟨w, hw, hfits⟩ :=
    (width_fits_iff hentries 1.0 (by decide : 80 < 65536)).2.2.2.mpr (.inl hshort)
  rw [hwidth, Option.some_inj] at hw
  exact ⟨⟨hentries, by decide⟩, hwidth, by decide, hw ▸ hfits⟩

theorem labelled_beyond_words_gets_four_columns :
    width (labelled 65536) 1.0 80 = 4 ∧ ¬ Fits (labelled 65536) 80 4 ∧
    width? (labelled 65532) 1.0 80 = none := by
  have hmargin : marginColumns 1.0 80 = 0 := by decide +kernel
  have hcut : width? (labelled 65536) 1.0 80 = some 4 := by
    rw [width?_eq_some_iff (labelled_ne_nil _), longest_labelled, hmargin]
    decide
  refine ⟨width_eq_of_width? (labelled_ne_nil _) hcut, ?_, ?_⟩
  · rw [fits_iff (labelled_ne_nil _), longest_labelled]
    decide
  · rw [width?_eq_none_iff (labelled_ne_nil _), longest_labelled]

end Legend

end TracePlot.Screen
