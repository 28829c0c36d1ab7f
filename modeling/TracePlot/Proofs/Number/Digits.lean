import Mathlib.Data.List.Basic
import Mathlib.Data.List.TakeWhile
import TracePlot.Number.Literal

/-! Digits of whole numbers. What the digits of a text are worth, where a run of digits ends, and
the form of the text of a number. -/

namespace TracePlot.Number

variable {n : Nat} {c : Char} {digits : List Char}

theorem isDigit_eq (c : Char) : isDigit c = c.isDigit := by
  have hle (a b : Char) : a ≤ b ↔ a.val ≤ b.val := Iff.rfl
  simp only [isDigit, Char.isDigit, hle]

theorem ne_of_isDigit (hc : isDigit c = true) (d : Char) (hd : isDigit d = false) : c ≠ d := by
  rintro rfl
  exact Bool.false_ne_true (hd.symm.trans hc)

theorem takeWhile_digits (rest : List Char) (h : ∀ c ∈ digits, isDigit c = true)
    (hrest : ∀ c ∈ rest.head?, isDigit c = false) :
    (digits ++ rest).takeWhile isDigit = digits ∧ (digits ++ rest).dropWhile isDigit = rest := by
  rw [List.takeWhile_append_of_pos h, List.dropWhile_append_of_pos h]
  cases rest with
  | nil => simp
  | cons c rest =>
    have hc := hrest c rfl
    simp [hc]

theorem natOfDigits_eq (cs : List Char) : natOfDigits cs = Nat.ofDigitChars 10 cs 0 := by
  rw [Nat.ofDigitChars_eq_foldl]
  rfl

theorem le_ofDigitChars (digits : List Char) (n : Nat) : n ≤ Nat.ofDigitChars 10 digits n := by
  rw [Nat.ofDigitChars_eq_ofDigitChars_zero]
  have hpow : n ≤ 10 ^ digits.length * n := Nat.le_mul_of_pos_left n (Nat.pow_pos (by decide))
  exact Nat.le_add_right_of_le hpow

theorem isDigit_of_mem_toDigits : ∀ c ∈ Nat.toDigits 10 n, isDigit c = true := by
  intro c hc
  rw [isDigit_eq]
  exact Nat.isDigit_of_mem_toDigits (by decide) (by decide) hc

theorem exists_toDigits_eq_cons (n : Nat) :
    ∃ c digits, Nat.toDigits 10 n = c :: digits ∧ isDigit c = true := by
  have hne : Nat.toDigits 10 n ≠ [] := Nat.toDigits_ne_nil
  obtain ⟨c, digits, hdigits⟩ := List.exists_cons_of_ne_nil hne
  exact ⟨c, digits, hdigits, isDigit_of_mem_toDigits (n := n) c (by simp [hdigits])⟩

/-- No zero is in front of the digits that count. -/
theorem head_toDigits_ne_zero (hn : 0 < n) : (Nat.toDigits 10 n).head? ≠ some '0' := by
  induction n using Nat.strongRecOn with
  | ind n ih =>
    by_cases hsmall : n < 10
    · have hdigits : ∀ d < 10, 0 < d → some d.digitChar ≠ some '0' := by decide
      rw [Nat.toDigits_of_lt_base hsmall]
      exact hdigits n hsmall hn
    · rw [Nat.toDigits_of_base_le (by decide) (by omega),
        List.head?_append_of_ne_nil _ Nat.toDigits_ne_nil]
      exact ih (n / 10) (by omega) (by omega)

/-- A number as text is the zero alone, or digits of which the first is another. -/
theorem toDigits_cases (n : Nat) :
    (n = 0 ∧ Nat.toDigits 10 n = ['0']) ∨
      ∃ c digits, Nat.toDigits 10 n = c :: digits ∧ c ≠ '0' ∧ isDigit c = true := by
  rcases Nat.eq_zero_or_pos n with rfl | hn
  · exact .inl ⟨rfl, Nat.toDigits_zero 10⟩
  · obtain ⟨c, digits, hdigits, hdigit⟩ := exists_toDigits_eq_cons n
    have hhead := head_toDigits_ne_zero hn
    rw [hdigits] at hhead
    exact .inr ⟨c, digits, hdigits, by simpa using hhead, hdigit⟩

end TracePlot.Number
