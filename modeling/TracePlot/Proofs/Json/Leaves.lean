import Mathlib.Algebra.Group.Nat.Defs
import TracePlot.Json.Printer
import TracePlot.Json.Scan
import TracePlot.Proofs.Number.Digits

/-! The leaves of a document as text. A quoted text is read back character by character, whatever
has to be escaped in it, and a whole number of 64 bits is read back from its digits where no more of
a number can follow. Both are also passed over as a whole. -/

namespace TracePlot.Json

section Quoted

variable {fuel : Nat} {done cs rest : List Char} {c : Char}

theorem hexValue?_hexDigit (n : Nat) : Number.hexValue? (hexDigit n) = some (n % 16) := by
  have hdigits : ∀ d < 16, Number.hexValue? d.digitChar = some d := by decide
  exact hdigits _ (Nat.mod_lt n (by decide))

theorem hexEscape_control (hc : c.toNat < 0x20) :
    hexEscape ('0' :: '0' :: hexDigit (c.toNat / 16) :: hexDigit c.toNat :: rest) =
      .ok (c.toNat, rest) := by
  have hzero : Number.hexValue? '0' = some 0 := by decide
  have hvalue : ((0 * 16 + 0) * 16 + c.toNat / 16 % 16) * 16 + c.toNat % 16 = c.toNat := by
    omega
  simp only [hexEscape, hzero, hexValue?_hexDigit, hvalue]

theorem unicodeEscape_control (hc : c.toNat < 0x20) :
    unicodeEscape ('0' :: '0' :: hexDigit (c.toNat / 16) :: hexDigit c.toNat :: rest) =
      .ok (c, rest) := by
  have htrailing : isTrailing c.toNat = false := by
    simp only [isTrailing, Bool.and_eq_false_iff, decide_eq_false_iff_not]
    omega
  have hleading : isLeading c.toNat = false := by
    simp only [isLeading, Bool.and_eq_false_iff, decide_eq_false_iff_not]
    omega
  simp [unicodeEscape, hexEscape_control hc, htrailing, hleading, bind, Except.bind, pure,
    Except.pure]

/-- Reading takes in one character for what is written for it. -/
theorem quotedRest_escape :
    quotedRest (fuel + 1) done (escape c ++ rest) = quotedRest fuel (c :: done) rest := by
  unfold escape
  split_ifs with hquote hback hn hr ht hb hf hcontrol
  · simp [quotedRest, simpleEscape?, hquote]
  · simp [quotedRest, simpleEscape?, hback]
  · simp [quotedRest, simpleEscape?, hn]
  · simp [quotedRest, simpleEscape?, hr]
  · simp [quotedRest, simpleEscape?, ht]
  · simp [quotedRest, simpleEscape?, hb]
  · simp [quotedRest, simpleEscape?, hf]
  · simp [quotedRest, unicodeEscape_control hcontrol, bind, Except.bind]
  · simp [quotedRest, hquote, hback, hcontrol]

theorem passQuotedRest_escape :
    passQuotedRest (fuel + 1) (escape c ++ rest) = passQuotedRest fuel rest := by
  unfold escape
  split_ifs with hquote hback hn hr ht hb hf hcontrol
  · simp [passQuotedRest, simpleEscape?]
  · simp [passQuotedRest, simpleEscape?]
  · simp [passQuotedRest, simpleEscape?]
  · simp [passQuotedRest, simpleEscape?]
  · simp [passQuotedRest, simpleEscape?]
  · simp [passQuotedRest, simpleEscape?]
  · simp [passQuotedRest, simpleEscape?]
  · simp [passQuotedRest, hexEscape_control hcontrol, bind, Except.bind]
  · simp [passQuotedRest, hquote, hback, hcontrol]

theorem quotedRest_flatMap_escape (h : cs.length < fuel) :
    quotedRest fuel done (cs.flatMap escape ++ '"' :: rest) =
      .ok (String.ofList (done.reverse ++ cs), rest) := by
  induction cs generalizing fuel done with
  | nil =>
    obtain ⟨fuel, rfl⟩ := Nat.exists_eq_add_one.mpr (Nat.zero_lt_of_lt h)
    simp [quotedRest]
  | cons c cs ih =>
    obtain ⟨fuel, rfl⟩ := Nat.exists_eq_add_one.mpr (Nat.zero_lt_of_lt h)
    have hfuel : cs.length < fuel := by simpa using h
    rw [List.flatMap_cons, List.append_assoc, quotedRest_escape, ih hfuel]
    simp

theorem passQuotedRest_flatMap_escape (h : cs.length < fuel) :
    passQuotedRest fuel (cs.flatMap escape ++ '"' :: rest) = .ok rest := by
  induction cs generalizing fuel with
  | nil =>
    obtain ⟨fuel, rfl⟩ := Nat.exists_eq_add_one.mpr (Nat.zero_lt_of_lt h)
    simp [passQuotedRest]
  | cons c cs ih =>
    obtain ⟨fuel, rfl⟩ := Nat.exists_eq_add_one.mpr (Nat.zero_lt_of_lt h)
    have hfuel : cs.length < fuel := by simpa using h
    rw [List.flatMap_cons, List.append_assoc, passQuotedRest_escape, ih hfuel]

theorem escape_ne_nil : escape c ≠ [] := by
  unfold escape
  split_ifs <;> simp

theorem length_le_length_flatMap_escape (cs : List Char) :
    cs.length ≤ (cs.flatMap escape).length := by
  induction cs with
  | nil => simp
  | cons c cs ih =>
    have hc : 0 < (escape c).length := List.length_pos_iff.mpr escape_ne_nil
    rw [List.flatMap_cons, List.length_append, List.length_cons]
    omega

theorem toList_stringText (s : String) :
    (stringText s).toList = '"' :: (s.toList.flatMap escape ++ ['"']) := by
  simp [stringText]

/-- A quoted text is read back from behind its opening quote. -/
theorem quoted_flatMap_escape (s : String) :
    quoted (s.toList.flatMap escape ++ '"' :: rest) = .ok (s, rest) := by
  have hlength := length_le_length_flatMap_escape s.toList
  rw [quoted, quotedRest_flatMap_escape (by rw [List.length_append]; omega)]
  simp

theorem passQuoted_flatMap_escape (s : String) :
    passQuoted (s.toList.flatMap escape ++ '"' :: rest) = .ok rest := by
  have hlength := length_le_length_flatMap_escape s.toList
  exact passQuotedRest_flatMap_escape (by rw [List.length_append]; omega)

end Quoted

/-- What may stand behind a value in a compact text: nothing, a comma or a closing bracket. -/
def Ends (rest : List Char) : Prop :=
  ∀ c ∈ rest.head?, c = ',' ∨ c = ']' ∨ c = '\x7d'

section Numbers

variable {rest : List Char} {n : Nat}

theorem Ends.of_cons {c : Char} (hc : c = ',' ∨ c = ']' ∨ c = '\x7d') : Ends (c :: rest) := by
  simpa [Ends] using hc

theorem ends_nil : Ends [] := by
  simp [Ends]

theorem Ends.head_not_digit (h : Ends rest) : ∀ c ∈ rest.head?, Number.isDigit c = false := by
  intro c hc
  rcases h c hc with rfl | rfl | rfl <;> decide

theorem Ends.numberTail (h : Ends rest) (negative : Bool) :
    Json.numberTail negative n 0 rest =
      if !negative then .ok (.integer n, rest)
      else if 0 < n ∧ n ≤ 0x8000000000000000 then .ok (.integer (-n), rest)
      else .ok (.float (-(Float.ofNat n)), rest) := by
  cases rest with
  | nil => simp [Json.numberTail]
  | cons c rest =>
    rcases h c rfl with rfl | rfl | rfl <;> simp [Json.numberTail]

theorem Ends.passTail (h : Ends rest) : Json.passTail rest = .ok rest := by
  cases rest with
  | nil => rfl
  | cons c rest => rcases h c rfl with rfl | rfl | rfl <;> rfl

/-- Digits of a number below `2 ^ 64` are all taken in. -/
theorem absorb_eq {digits : List Char} (h : Nat.ofDigitChars 10 digits n < 2 ^ 64) :
    absorb n digits = (Nat.ofDigitChars 10 digits n, digits.length, 0) := by
  induction digits generalizing n with
  | nil => rfl
  | cons c digits ih =>
    rw [Nat.ofDigitChars_cons] at h ⊢
    have hnext : 10 * n + Number.digitValue c < 0x10000000000000000 :=
      Nat.lt_of_le_of_lt (Number.le_ofDigitChars digits _) h
    rw [absorb, if_pos hnext, Number.digitValue, ih h]
    rfl

theorem number_toDigits (hn : n < 2 ^ 64) (hrest : Ends rest) (negative : Bool) :
    number negative (Nat.toDigits 10 n ++ rest) = numberTail negative n 0 rest := by
  have hsplit := Number.takeWhile_digits rest (Number.isDigit_of_mem_toDigits (n := n))
    hrest.head_not_digit
  have habsorb : absorb 0 (Nat.toDigits 10 n) = (n, (Nat.toDigits 10 n).length, 0) := by
    rw [absorb_eq (by rwa [Nat.ofDigitChars_ten_toDigits]), Nat.ofDigitChars_ten_toDigits]
  rcases Number.toDigits_cases n with ⟨rfl, hzero⟩ | ⟨c, digits, hdigits, hc, hdigit⟩
  · rw [hzero, List.singleton_append]
    cases rest with
    | nil => rfl
    | cons c rest => simp [number, hrest.head_not_digit c rfl]
  · rw [hdigits] at hsplit habsorb ⊢
    rw [List.cons_append] at hsplit ⊢
    unfold number
    split
    · next heq => cases heq
    · next rest' heq => exact absurd (List.cons.inj heq).1 hc
    · next c' rest' _ heq =>
      obtain ⟨rfl, rfl⟩ := List.cons.inj heq
      rw [if_pos hdigit, hsplit.1, hsplit.2, habsorb]

theorem passNumber_toDigits (hrest : Ends rest) :
    passNumber (Nat.toDigits 10 n ++ rest) = .ok rest := by
  have hsplit := Number.takeWhile_digits rest (Number.isDigit_of_mem_toDigits (n := n))
    hrest.head_not_digit
  rcases Number.toDigits_cases n with ⟨-, hzero⟩ | ⟨c, digits, hdigits, hc, hdigit⟩
  · rw [hzero, List.singleton_append]
    cases rest with
    | nil => rfl
    | cons c rest => simp [passNumber, hrest.head_not_digit c rfl, hrest.passTail]
  · rw [hdigits, List.cons_append, List.dropWhile_cons_of_pos hdigit] at hsplit
    rw [hdigits, List.cons_append]
    unfold passNumber
    split
    · next heq => cases heq
    · next rest' heq => exact absurd (List.cons.inj heq).1 hc
    · next c' rest' _ heq =>
      obtain ⟨rfl, rfl⟩ := List.cons.inj heq
      rw [if_pos hdigit, hsplit.2, hrest.passTail]

theorem toList_toString (n : Int) :
    (toString n).toList =
      if 0 ≤ n then Nat.toDigits 10 n.natAbs else '-' :: Nat.toDigits 10 n.natAbs := by
  rw [Int.toString_eq_repr, Int.repr_eq_if]
  split
  · next hn =>
    have habs : n.toNat = n.natAbs := by omega
    rw [Nat.toList_repr, habs]
  · next hn =>
    have habs : (-n).toNat = n.natAbs := by omega
    simp [Nat.toList_repr, habs]

end Numbers

end TracePlot.Json
