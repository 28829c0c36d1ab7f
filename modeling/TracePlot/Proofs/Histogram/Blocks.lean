import Mathlib.Data.List.Induction
import Mathlib.Order.Basic
import TracePlot.Histogram.Probe
import TracePlot.Proofs.Number.Digits
import TracePlot.Proofs.Text.Lines

/-! The values that probes leave in a log, read off its lines: a line gives a value if it is a plain
decimal and the last line before it that is blank or marked is marked. -/

namespace TracePlot.Probe

def Marked (line : List Char) : Prop :=
  marker.toList <+: line

/-- Of the blank and marked lines among these the last is marked. -/
def Open (before : List (List Char)) : Prop :=
  ∃ earlier line later, before = earlier ++ line :: later ∧ Marked line ∧
    ∀ l ∈ later, l ≠ [] ∧ ¬ Marked l

/-- A line of digits with a point among them or none; the two lists are those before and after the
point. -/
structure Decimal (line whole places : List Char) : Prop where
  written : line = whole ∧ places = [] ∨ line = whole ++ '.' :: places
  digits : ∀ c ∈ whole ++ places, Number.isDigit c = true
  ne_nil : whole ++ places ≠ []

/-- Line `i` lies in a block and gives the value. -/
structure Recorded (lines : List (List Char)) (i : Nat) (x : Float) : Prop where
  inside : Open (lines.take i)
  decimal : ∃ line whole places, lines[i]? = some line ∧ Decimal line whole places ∧
    x = Number.ofDecimal (Number.natOfDigits (whole ++ places)) (-(places.length : Int))
  nonzero : (x != 0.0) = true
  finite : x.isFinite = true

variable {line whole places : List Char} {x : Float}

theorem open_concat {before : List (List Char)} :
    Open (before ++ [line]) ↔ Marked line ∨ line ≠ [] ∧ Open before := by
  constructor
  · rintro ⟨earlier, marked, later, heq, hmarked, hlater⟩
    cases later using List.reverseRecOn with
    | nil =>
      have hlast := (List.append_inj' heq rfl).2
      simp only [List.cons.injEq, and_true] at hlast
      exact .inl (hlast ▸ hmarked)
    | append_singleton later last =>
      have hsplit : before ++ [line] = (earlier ++ marked :: later) ++ [last] := by simpa using heq
      obtain ⟨hbefore, hlast⟩ := List.append_inj' hsplit rfl
      simp only [List.cons.injEq, and_true] at hlast
      subst hlast
      exact .inr ⟨(hlater line (by simp)).1, earlier, marked, later, hbefore, hmarked,
        fun l hl => hlater l (by simp [hl])⟩
  · by_cases hmarked : Marked line
    · exact fun _ => ⟨before, line, [], rfl, hmarked, by simp⟩
    · rintro (h | ⟨hne, earlier, marked, later, rfl, h, hlater⟩)
      · exact absurd h hmarked
      · refine ⟨earlier, marked, later ++ [line], by simp, h, fun l hl => ?_⟩
        rcases List.mem_append.mp hl with hl | hl
        · exact hlater l hl
        · obtain rfl := List.mem_singleton.mp hl
          exact ⟨hne, hmarked⟩

theorem point_not_digit : Number.isDigit '.' = false := by
  decide

theorem Decimal.forall_mem (h : Decimal line whole places) :
    ∀ c ∈ line, Number.isDigit c = true ∨ c = '.' := by
  have hdigits := h.digits
  intro c hc
  rcases h.written with ⟨rfl, -⟩ | rfl
  · exact .inl (hdigits c (by simp [hc]))
  · simp only [List.mem_append, List.mem_cons] at hc hdigits
    rcases hc with hc | rfl | hc
    · exact .inl (hdigits c (.inl hc))
    · exact .inr rfl
    · exact .inl (hdigits c (.inr hc))

theorem Decimal.not_marked (h : Decimal line whole places) : ¬ Marked line := by
  intro hmarked
  have hfirst : 'E' ∈ line := hmarked.subset (by decide)
  have hdigit := h.forall_mem 'E' hfirst
  revert hdigit
  decide

/-- The plain decimals are the lines of digits with one point or none, and they are read as the
digits with the places after the point. -/
theorem Decimal.read (h : Decimal line whole places) :
    isPlainDecimal line = true ∧ Number.unsignedFloat? line =
      some (Number.ofDecimal (Number.natOfDigits (whole ++ places)) (-(places.length : Int))) := by
  have hforall := h.forall_mem
  obtain ⟨hwritten, hdigits, hne⟩ := h
  have hwhole : ∀ c ∈ whole, Number.isDigit c = true := fun c hc => hdigits c (by simp [hc])
  have hplaces : ∀ c ∈ places, Number.isDigit c = true := fun c hc => hdigits c (by simp [hc])
  have hpoint {cs : List Char} (hcs : ∀ c ∈ cs, Number.isDigit c = true) : cs.count '.' = 0 := by
    refine List.count_eq_zero.mpr fun hmem => ?_
    have := hcs '.' hmem
    rw [point_not_digit] at this
    cases this
  have hsome : ∃ c ∈ line, Number.isDigit c = true := by
    obtain ⟨c, hc⟩ := List.exists_mem_of_ne_nil _ hne
    refine ⟨c, ?_, hdigits c hc⟩
    rcases hwritten with ⟨rfl, rfl⟩ | rfl
    · simpa using hc
    · rcases List.mem_append.mp hc with hc | hc <;> simp [hc]
  have hcount : line.count '.' ≤ 1 := by
    rcases hwritten with ⟨rfl, -⟩ | rfl
    · rw [hpoint hwhole]
      omega
    · rw [List.count_append, List.count_cons_self, hpoint hwhole, hpoint hplaces]
  constructor
  · simp only [isPlainDecimal, Bool.and_eq_true, List.all_eq_true, List.any_eq_true,
      Bool.or_eq_true, decide_eq_true_eq]
    exact ⟨⟨hforall, hsome⟩, hcount⟩
  · unfold Number.unsignedFloat?
    rcases hwritten with ⟨rfl, rfl⟩ | rfl
    · obtain ⟨htake, hdrop⟩ := Number.takeWhile_digits [] hwhole (by simp)
      rw [List.append_nil] at htake hdrop hne
      simp [htake, hdrop, hne, Number.exponentPart?]
    · obtain ⟨htake, hdrop⟩ := Number.takeWhile_digits ('.' :: places) hwhole
        (by simp [point_not_digit])
      obtain ⟨htake', hdrop'⟩ := Number.takeWhile_digits [] hplaces (by simp)
      rw [List.append_nil] at htake' hdrop'
      simp only [htake, hdrop, htake', hdrop']
      have hsome : (whole.isEmpty && places.isEmpty) = false := by
        rw [← Bool.not_eq_true]
        simpa using hne
      simp [hsome, Number.exponentPart?]

theorem exists_decimal_of_isPlainDecimal (h : isPlainDecimal line = true) :
    ∃ whole places, Decimal line whole places := by
  simp only [isPlainDecimal, Bool.and_eq_true, List.all_eq_true, List.any_eq_true,
    Bool.or_eq_true, decide_eq_true_eq] at h
  obtain ⟨⟨hforall, d, hd, hdigit⟩, hcount⟩ := h
  have hsplit := List.takeWhile_append_dropWhile (p := Number.isDigit) (l := line)
  have hwhole : ∀ c ∈ line.takeWhile Number.isDigit, Number.isDigit c = true :=
    fun c hc => List.mem_takeWhile_imp hc
  cases hrest : line.dropWhile Number.isDigit with
  | nil =>
    rw [hrest, List.append_nil] at hsplit
    rw [hsplit] at hwhole
    exact ⟨line, [], .inl ⟨rfl, rfl⟩, by simpa using hwhole,
      by simpa using List.ne_nil_of_mem hd⟩
  | cons c rest =>
    have hc : Number.isDigit c = false := by
      have := List.head?_dropWhile_not Number.isDigit line
      simpa [hrest] using this
    have hcline : c ∈ line := by
      rw [← hsplit, hrest]
      simp
    have hcpoint : c = '.' := (hforall c hcline).resolve_left (by simp [hc])
    subst hcpoint
    rw [hrest] at hsplit
    have hplaces : ∀ c ∈ rest, Number.isDigit c = true := by
      intro c hc
      have hline : c ∈ line := by
        rw [← hsplit]
        simp [hc]
      refine (hforall c hline).resolve_right ?_
      rintro rfl
      have hpos := List.count_pos_iff.mpr hc
      rw [← hsplit, List.count_append, List.count_cons_self] at hcount
      omega
    refine ⟨_, rest, .inr hsplit.symm, ?_, ?_⟩
    · intro c hc
      rcases List.mem_append.mp hc with hc | hc
      · exact hwhole c hc
      · exact hplaces c hc
    · have hdsplit : d ∈ line.takeWhile Number.isDigit ++ '.' :: rest := by rwa [hsplit]
      rcases List.mem_append.mp hdsplit with hd | hd
      · exact List.ne_nil_of_mem (List.mem_append_left _ hd)
      · rcases List.mem_cons.mp hd with rfl | hd
        · rw [point_not_digit] at hdigit
          cases hdigit
        · exact List.ne_nil_of_mem (List.mem_append_right _ hd)

theorem value?_eq_some_iff :
    value? line = some x ↔
      (∃ whole places, Decimal line whole places ∧
        x = Number.ofDecimal (Number.natOfDigits (whole ++ places)) (-(places.length : Int))) ∧
      (x != 0.0) = true ∧ x.isFinite = true := by
  unfold value?
  constructor
  · intro h
    split at h
    · next hplain =>
      obtain ⟨whole, places, hdecimal⟩ := exists_decimal_of_isPlainDecimal hplain
      rw [hdecimal.read.2, Option.filter_eq_some_iff, Bool.and_eq_true] at h
      obtain ⟨heq, hkept⟩ := h
      exact ⟨⟨whole, places, hdecimal, (Option.some.inj heq).symm⟩, hkept⟩
    · cases h
  · rintro ⟨⟨whole, places, hdecimal, rfl⟩, hkept⟩
    rw [if_pos hdecimal.read.1, hdecimal.read.2, Option.filter_eq_some_iff, Bool.and_eq_true]
    exact ⟨rfl, hkept⟩

theorem value?_eq_none_of_marked (h : Marked line) : value? line = none := by
  by_contra hsome
  obtain ⟨x, hx⟩ := Option.ne_none_iff_exists'.mp hsome
  obtain ⟨⟨whole, places, hdecimal, -⟩, -⟩ := value?_eq_some_iff.mp hx
  exact hdecimal.not_marked h

theorem recorded_iff {before rest : List (List Char)} :
    Recorded (before ++ line :: rest) before.length x ↔ Open before ∧ value? line = some x := by
  have hline : (before ++ line :: rest)[before.length]? = some line := by simp
  have htake : (before ++ line :: rest).take before.length = before := by simp
  rw [value?_eq_some_iff]
  constructor
  · rintro ⟨hinside, ⟨l, whole, places, hl, hdecimal, hx⟩, hnonzero, hfinite⟩
    rw [hline, Option.some_inj] at hl
    subst hl
    rw [htake] at hinside
    exact ⟨hinside, ⟨whole, places, hdecimal, hx⟩, hnonzero, hfinite⟩
  · rintro ⟨hinside, ⟨whole, places, hdecimal, hx⟩, hnonzero, hfinite⟩
    exact ⟨by rwa [htake], ⟨line, whole, places, hline, hdecimal, hx⟩, hnonzero, hfinite⟩

/-- Whether the next line lies in a block, from whether this one does. -/
def opens (inside : Bool) (line : List Char) : Bool :=
  if marker.toList.isPrefixOf line then true else if line.isEmpty then false else inside

theorem valuesFrom_cons (inside : Bool) (rest : List (List Char)) :
    valuesFrom inside (line :: rest) =
      (if inside then (value? line).toList else []) ++ valuesFrom (opens inside line) rest := by
  rw [valuesFrom, opens]
  by_cases hmarked : marker.toList.isPrefixOf line = true
  · have hnone := value?_eq_none_of_marked (List.isPrefixOf_iff_prefix.mp hmarked)
    rw [if_pos hmarked, if_pos hmarked, hnone]
    simp
  · rw [if_neg hmarked, if_neg hmarked]
    by_cases hempty : line.isEmpty = true
    · have hnone : value? [] = none := by decide
      rw [if_pos hempty, if_pos hempty]
      rw [List.isEmpty_iff] at hempty
      subst hempty
      simp [hnone]
    · rw [if_neg hempty, if_neg hempty]

theorem exists_line_of_mem {inside : Bool} {lines : List (List Char)}
    (h : x ∈ valuesFrom inside lines) : ∃ line ∈ lines, value? line = some x := by
  induction lines generalizing inside with
  | nil => cases h
  | cons line rest ih =>
    rw [valuesFrom_cons] at h
    rcases List.mem_append.mp h with h | h
    · refine ⟨line, List.mem_cons_self, ?_⟩
      by_cases hinside : inside = true
      · rw [if_pos hinside] at h
        exact Option.mem_toList.mp h
      · rw [if_neg hinside] at h
        cases h
    · obtain ⟨line', hline', hvalue⟩ := ih h
      exact ⟨line', List.mem_cons_of_mem _ hline', hvalue⟩

theorem opens_iff {before : List (List Char)} {inside : Bool} (h : inside = true ↔ Open before) :
    opens inside line = true ↔ Open (before ++ [line]) := by
  have hmarked : marker.toList.isPrefixOf line = true ↔ Marked line :=
    List.isPrefixOf_iff_prefix
  rw [open_concat, ← hmarked, ← h, opens]
  by_cases hmark : marker.toList.isPrefixOf line = true
  · simp [hmark]
  · by_cases hempty : line = []
    · simp [hempty]
    · simp [hmark, hempty]

/-- The values from some line on are those of the lines that lie in blocks. -/
theorem valuesFrom_recorded {inside : Bool} (before rest : List (List Char))
    (h : inside = true ↔ Open before) :
    ∃ is : List Nat, is.Pairwise (· < ·) ∧
      (∀ i, i ∈ is ↔ before.length ≤ i ∧ ∃ x, Recorded (before ++ rest) i x) ∧
      List.Forall₂ (Recorded (before ++ rest)) is (valuesFrom inside rest) := by
  induction rest generalizing before inside with
  | nil =>
    refine ⟨[], .nil, fun i => ?_, .nil⟩
    simp only [List.not_mem_nil, List.append_nil, false_iff, not_and]
    rintro hi ⟨x, -, ⟨line, -, -, hline, -⟩, -, -⟩
    obtain ⟨hlt, -⟩ := List.getElem?_eq_some_iff.mp hline
    omega
  | cons line rest ih =>
    have hstep : before ++ [line] ++ rest = before ++ line :: rest := by simp
    obtain ⟨is, hascending, hmem, hvalues⟩ := ih (before ++ [line]) (opens_iff h)
    rw [hstep] at hvalues
    simp only [hstep, List.length_append, List.length_singleton] at hmem
    rw [valuesFrom_cons]
    have hlater : ∀ i ∈ is, before.length < i := fun i hi => ((hmem i).mp hi).1
    by_cases hrecorded : ∃ x, Recorded (before ++ line :: rest) before.length x
    · obtain ⟨x, hx⟩ := hrecorded
      obtain ⟨hopen, hvalue⟩ := recorded_iff.mp hx
      refine ⟨before.length :: is, List.pairwise_cons.mpr ⟨hlater, hascending⟩, fun i => ?_, ?_⟩
      · rw [List.mem_cons, hmem]
        constructor
        · rintro (rfl | ⟨hi, hsome⟩)
          · exact ⟨le_rfl, x, hx⟩
          · exact ⟨by omega, hsome⟩
        · rintro ⟨hi, hsome⟩
          by_cases heq : i = before.length
          · exact .inl heq
          · exact .inr ⟨by omega, hsome⟩
      · rw [if_pos (h.mpr hopen), hvalue]
        exact .cons hx hvalues
    · have hnone : (if inside = true then (value? line).toList else []) = [] := by
        by_cases hinside : inside = true
        · cases hvalue : value? line with
          | none => simp
          | some x => exact absurd ⟨x, recorded_iff.mpr ⟨h.mp hinside, hvalue⟩⟩ hrecorded
        · simp [hinside]
      refine ⟨is, hascending, fun i => ?_, ?_⟩
      · rw [hmem]
        constructor
        · rintro ⟨hi, hsome⟩
          exact ⟨by omega, hsome⟩
        · rintro ⟨hi, hsome⟩
          have hne : i ≠ before.length := by
            rintro rfl
            exact hrecorded hsome
          exact ⟨by omega, hsome⟩
      · rw [hnone]
        exact hvalues

theorem valuesFrom_blank (inside : Bool) (before after : List (List Char)) :
    valuesFrom inside (before ++ [] :: after) =
      valuesFrom inside before ++ valuesFrom false after := by
  induction before generalizing inside with
  | nil =>
    have hnone : value? [] = none := by decide
    have hclosed : opens inside [] = false := rfl
    rw [List.nil_append, valuesFrom_cons, hnone, hclosed]
    simp [valuesFrom]
  | cons line before ih =>
    rw [List.cons_append, valuesFrom_cons, valuesFrom_cons, ih, List.append_assoc]

theorem values_eq (log : List Char) : values log = valuesFrom false (Text.trimmedLines log) :=
  rfl

theorem values_append (before after : List Char) :
    values (before ++ '\n' :: '\n' :: after) = values before ++ values after := by
  obtain ⟨gap, hgap, hlines⟩ := Text.trimmedLines_append before ('\n' :: after)
  rw [values_eq, hlines, Text.trimmedLines_newline, List.append_assoc]
  rcases hgap with rfl | rfl
  · exact valuesFrom_blank false _ _
  · exact (valuesFrom_blank false _ _).trans (congrArg _ (valuesFrom_blank false [] _))

theorem values_newline (log : List Char) : values (log ++ ['\n']) = values log := by
  obtain ⟨gap, hgap, hlines⟩ := Text.trimmedLines_append log []
  have hnil : Text.trimmedLines [] = [] := rfl
  rw [values_eq, hlines, hnil, List.append_nil]
  rcases hgap with rfl | rfl
  · rw [List.append_nil, values_eq]
  · exact (valuesFrom_blank false _ []).trans (List.append_nil _)

/-- The values of a log are those of the lines that lie in blocks, in their order, and a blank line
between two logs keeps them apart. -/
theorem values_are_those_in_blocks (log : List Char) :
    (∃ is : List Nat, is.Pairwise (· < ·) ∧
      (∀ i, i ∈ is ↔ ∃ x, Recorded (Text.trimmedLines log) i x) ∧
      List.Forall₂ (Recorded (Text.trimmedLines log)) is (values log)) ∧
    values (log ++ ['\n']) = values log ∧
    ∀ after, values (log ++ '\n' :: '\n' :: after) = values log ++ values after := by
  have hclosed : false = true ↔ Open [] := by
    simp [Open]
  obtain ⟨is, hascending, hmem, hvalues⟩ :=
    valuesFrom_recorded [] (Text.trimmedLines log) hclosed
  refine ⟨⟨is, hascending, fun i => ?_, hvalues⟩, values_newline log, values_append log⟩
  rw [hmem]
  simp

end TracePlot.Probe
