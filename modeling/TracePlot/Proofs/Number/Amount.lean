import TracePlot.Number.Format
import TracePlot.Proofs.Number.Digits
import TracePlot.Proofs.Number.Nearest
import TracePlot.Proofs.Number.Widening

/-! Amounts, with grouped digits and one decimal. The text is well formed and has a sign just when a
negative number does not round to zero. It is less than a tenth off while whole numbers of ten times
the size are numbers of the format. Further on it depends on what the product with ten loses, and
from `2 ^ 64` tenths on the text does not follow the number any more. -/

open Float.Model Float.Model.UnpackedFloat

namespace TracePlot.Number

/-- Digits in groups of three from the right. -/
inductive Grouped : List Char → Prop
  | front {cs : List Char} (hne : cs ≠ []) (hshort : cs.length ≤ 3)
      (hdigits : ∀ c ∈ cs, c.isDigit = true) : Grouped cs
  | group {cs : List Char} {a b c : Char} (h : Grouped cs) (ha : a.isDigit = true)
      (hb : b.isDigit = true) (hc : c.isDigit = true) : Grouped (cs ++ [',', a, b, c])

section Groups

theorem ne_comma_of_isDigit {c : Char} (h : c.isDigit = true) : c ≠ ',' := by
  rintro rfl
  exact absurd h (by decide)

theorem filter_digits {cs : List Char} (hdigits : ∀ c ∈ cs, c.isDigit = true) :
    cs.filter (· ≠ ',') = cs :=
  List.filter_eq_self.mpr fun c hc => by simpa using ne_comma_of_isDigit (hdigits c hc)

theorem Grouped.minus_not_mem {cs : List Char} (h : Grouped cs) : '-' ∉ cs := by
  induction h with
  | front hne hshort hdigits =>
    intro hmem
    exact absurd (hdigits '-' hmem) (by decide)
  | group h ha hb hc ih =>
    intro hmem
    simp only [List.mem_append, List.mem_cons, List.not_mem_nil, or_false] at hmem
    rcases hmem with hmem | hmem | rfl | rfl | rfl
    · exact ih hmem
    · exact absurd hmem (by decide)
    · exact absurd ha (by decide)
    · exact absurd hb (by decide)
    · exact absurd hc (by decide)

theorem grouped_reverse_groupReversed {cs : List Char} (hne : cs ≠ [])
    (hdigits : ∀ c ∈ cs, c.isDigit = true) : Grouped (groupReversed cs).reverse := by
  fun_induction groupReversed cs with
  | case1 a b c d rest ih =>
    simp only [List.forall_mem_cons] at hdigits
    obtain ⟨ha, hb, hc, hrest⟩ := hdigits
    have hfront := ih (List.cons_ne_nil d rest) (List.forall_mem_cons.mpr hrest)
    simpa using hfront.group hc hb ha
  | case2 cs hshort =>
    have hlength : cs.length ≤ 3 := by
      rcases cs with _ | ⟨a, _ | ⟨b, _ | ⟨c, _ | ⟨d, rest⟩⟩⟩⟩
      · simp
      · simp
      · simp
      · simp
      · exact (hshort a b c d rest rfl).elim
    exact .front (by simpa using hne) (by simpa using hlength) (by simpa using hdigits)

theorem filter_groupReversed {cs : List Char} (hdigits : ∀ c ∈ cs, c.isDigit = true) :
    (groupReversed cs).filter (· ≠ ',') = cs := by
  fun_induction groupReversed cs with
  | case1 a b c d rest ih =>
    have hrest : ∀ c ∈ d :: rest, c.isDigit = true := fun e he =>
      hdigits e (List.mem_append_right [a, b, c] he)
    have hgroup : [a, b, c].filter (· ≠ ',') = [a, b, c] :=
      filter_digits fun e he => hdigits e (List.mem_append_left (d :: rest) he)
    change ([a, b, c] ++ ',' :: groupReversed (d :: rest)).filter (· ≠ ',') = [a, b, c] ++ d :: rest
    rw [List.filter_append, hgroup, List.filter_cons_of_neg (by decide), ih hrest]
  | case2 cs hshort => exact filter_digits hdigits

theorem digits_of_toDigits (n : Nat) : ∀ c ∈ Nat.toDigits 10 n, c.isDigit = true :=
  fun _ hc => Nat.isDigit_of_mem_toDigits (by decide) (by decide) hc

theorem grouped_grouped (n : Nat) :
    Grouped (grouped n).toList ∧ (grouped n).toList.filter (· ≠ ',') = Nat.toDigits 10 n := by
  have hdigits : ∀ c ∈ (Nat.toDigits 10 n).reverse, c.isDigit = true := by
    simpa using digits_of_toDigits n
  rw [grouped, String.toList_ofList]
  refine ⟨grouped_reverse_groupReversed (by simp [Nat.toDigits_ne_nil]) hdigits, ?_⟩
  rw [List.filter_reverse, filter_groupReversed hdigits, List.reverse_reverse]

end Groups

/-- A decimal with one place behind grouped digits. -/
structure Written where
  negative : Bool
  whole : List Char
  tenth : Char
  grouped : Grouped whole
  digit : tenth.isDigit = true

namespace Written

def text (w : Written) : List Char :=
  (if w.negative then ['-'] else []) ++ w.whole ++ ['.', w.tenth]

/-- The absolute value, read without the commas. -/
def magnitude (w : Written) : ℚ :=
  natOfDigits (w.whole.filter (· ≠ ',') ++ [w.tenth]) / 10

def value (w : Written) : ℚ :=
  if w.negative then -w.magnitude else w.magnitude

theorem text_eq_minus_cons_iff (w : Written) (cs : List Char) :
    w.text = '-' :: cs ↔ w.negative = true ∧ w.whole ++ ['.', w.tenth] = cs := by
  rw [text]
  cases w.negative with
  | true => simp
  | false =>
    simp only [Bool.false_eq_true, if_false, List.nil_append, false_and, iff_false]
    intro htext
    cases hwhole : w.whole with
    | nil => simp [hwhole] at htext
    | cons c rest =>
      rw [hwhole] at htext
      obtain rfl : c = '-' := (List.cons_eq_cons.mp htext).1
      exact w.grouped.minus_not_mem (hwhole ▸ List.mem_cons_self)

theorem value_unique {w w' : Written} (h : w.text = w'.text) : w.value = w'.value := by
  have hsame : w.negative = w'.negative ∧
      w.whole ++ ['.', w.tenth] = w'.whole ++ ['.', w'.tenth] := by
    cases hneg : w'.negative with
    | true =>
      have htext : w.text = '-' :: (w'.whole ++ ['.', w'.tenth]) :=
        h.trans ((text_eq_minus_cons_iff _ _).mpr ⟨hneg, rfl⟩)
      exact (text_eq_minus_cons_iff _ _).mp htext
    | false =>
      cases hneg' : w.negative with
      | true =>
        have htext : w'.text = '-' :: (w.whole ++ ['.', w.tenth]) :=
          h.symm.trans ((text_eq_minus_cons_iff _ _).mpr ⟨hneg', rfl⟩)
        rw [text_eq_minus_cons_iff, hneg] at htext
        exact absurd htext.1 (by decide)
      | false => simpa [text, hneg, hneg'] using h
  obtain ⟨hnegative, hdecimal⟩ := hsame
  obtain ⟨hwhole, htenth⟩ := List.append_inj' hdecimal rfl
  obtain htenth : w.tenth = w'.tenth := by simpa using htenth
  rw [value, value, magnitude, magnitude, hnegative, hwhole, htenth]

def ofTenths (negative : Bool) (tenths : Nat) : Written where
  negative := negative
  whole := (Number.grouped (tenths / 10)).toList
  tenth := (tenths % 10).digitChar
  grouped := (grouped_grouped _).1
  digit := by simpa using Nat.mod_lt tenths (by decide)

theorem magnitude_ofTenths (negative : Bool) (tenths : Nat) :
    (ofTenths negative tenths).magnitude = tenths / 10 := by
  have hlast : (tenths % 10).digitChar.toNat - '0'.toNat = tenths % 10 := by
    rw [Nat.toNat_digitChar_of_lt_ten (Nat.mod_lt _ (by decide))]
    simp
  rw [magnitude, natOfDigits_eq]
  simp only [ofTenths, (grouped_grouped _).2, Nat.ofDigitChars_append, Nat.ofDigitChars_cons,
    Nat.ofDigitChars_nil, Nat.ofDigitChars_ten_toDigits, hlast, Nat.div_add_mod]

end Written

section Tenths

variable {x : Float}

theorem canonical_abs {a : UnpackedFloat} (h : Canonical a) : Canonical a.abs := by
  cases h with
  | notANumber => exact .notANumber
  | infinity s => exact .infinity _
  | zero s => exact .zero _
  | subnormal s m h hm => exact .subnormal _ m h hm
  | normal s m e h hlo hhi helo hehi => exact .normal _ m e h hlo hhi helo hehi

theorem exact_abs (a : UnpackedFloat) : exact a.abs = |exact a| := by
  cases a with
  | notANumber => simp [UnpackedFloat.abs, exact]
  | infinity s => simp [UnpackedFloat.abs, exact]
  | zero s => simp [UnpackedFloat.abs, exact]
  | finite s m e h => rw [abs_exact_finite]; rfl

theorem abs_spec (hx : x.isFinite = true) : x.abs.isFinite = true ∧ value x.abs = |value x| := by
  have hcanonical : Canonical x.toModel.unpack := (unpack_spec _).1
  change (repacked x.toModel.unpack.abs).isFinite = true ∧
    exact (repacked x.toModel.unpack.abs) = |exact x.toModel.unpack|
  rw [repacked_of_canonical (canonical_abs hcanonical)]
  refine ⟨?_, exact_abs _⟩
  change x.toModel.unpack.isFinite = true at hx
  cases hform : x.toModel.unpack <;> rw [hform] at hx <;> first | rfl | cases hx

theorem value_ten : (10.0 : Float).isFinite = true ∧ value 10.0 = 10 :=
  value_of_whole_form (x := 10.0) (n := 10) rfl (by norm_num)

/-- The number of tenths that is written. -/
def tenths (x : Float) : Nat :=
  (nearest 0 0xFFFFFFFFFFFFFFFF (x.abs * 10.0)).toNat

theorem amount_eq (hx : x.isFinite = true) :
    (amount x).toList = (Written.ofTenths (x < 0.0 && 0 < tenths x) (tenths x)).text := by
  have htenth : (digitsText (tenths x % 10)).toList = [(tenths x % 10).digitChar] := by
    rw [digitsText, String.toList_ofList, Nat.toDigits_of_lt_base (Nat.mod_lt _ (by decide))]
  have hamount : amount x = (if x < 0.0 && 0 < tenths x then "-" else "") ++
      grouped (tenths x / 10) ++ "." ++ digitsText (tenths x % 10) := by
    rw [amount, if_pos hx]
    rfl
  have hsign (b : Bool) : (if b then "-" else "").toList = if b then ['-'] else [] := by
    cases b <;> rfl
  rw [hamount]
  simp only [String.toList_append, hsign, htenth, Written.text, Written.ofTenths]
  simp

/-- Beyond the numbers with digits behind the point all numbers are even. -/
theorem exists_even (hx : x.isFinite = true) (hlarge : 2 ^ 53 ≤ |value x|) :
    ∃ k : Nat, |value x| = (2 * k : Nat) := by
  have hcanonical : Canonical x.toModel.unpack := (unpack_spec _).1
  change x.toModel.unpack.isFinite = true at hx
  rw [value] at hlarge ⊢
  cases hform : x.toModel.unpack with
  | notANumber => rw [hform] at hx; cases hx
  | infinity s => rw [hform] at hx; cases hx
  | zero s => exact ⟨0, by simp [exact]⟩
  | finite s m e h =>
    rw [hform] at hlarge hcanonical
    rw [abs_exact_finite] at hlarge ⊢
    obtain ⟨-, -, -, hfits⟩ := canonical_bounds hcanonical
    have hexponent : 0 < e := by
      by_contra hsmall
      have hm : (m : ℚ) < 2 ^ 53 := by exact_mod_cast hfits
      have hle : (m : ℚ) * 2 ^ e ≤ m * 2 ^ (0 : ℤ) :=
        mul_le_mul_of_nonneg_left (two_zpow_le (by omega)) (by positivity)
      rw [zpow_zero, mul_one] at hle
      linarith
    have hsplit : (2 : ℚ) ^ e = 2 * 2 ^ (e - 1).toNat := by
      rw [← zpow_natCast, Int.toNat_of_nonneg (by omega), ← two_zpow_succ]
      congr 1
      omega
    refine ⟨m * 2 ^ (e - 1).toNat, ?_⟩
    rw [hsplit]
    push_cast
    ring

theorem rounds_product (hx : x.isFinite = true) : Rounds (|value x| * 10) (x.abs * 10.0) := by
  obtain ⟨habs, hvalue⟩ := abs_spec hx
  rw [← hvalue, ← value_ten.2]
  exact rounds_mul habs value_ten.1

theorem exists_nat {n : Nat} (hn : n ≤ 2 ^ 53) :
    ∃ y : Float, y.isFinite = true ∧ value y = n := by
  obtain ⟨y, hy, hvalue⟩ := exists_whole (n := n) (by rw [abs_of_nonneg] <;> omega)
  exact ⟨y, hy, by rwa [Int.cast_natCast] at hvalue⟩

/-- What is written is next to ten times the number as long as whole numbers of that size are
numbers of the format. -/
theorem tenths_of_small (hx : x.isFinite = true) (hsmall : |value x| * 10 ≤ 2 ^ 53) :
    |(tenths x : ℚ) - |value x| * 10| < 1 := by
  have hrounds := rounds_product hx
  have hnonneg : 0 ≤ |value x| * 10 := by positivity
  unfold tenths
  generalize |value x| * 10 = q at hsmall hrounds hnonneg ⊢
  generalize x.abs * 10.0 = product at hrounds ⊢
  have hfloor := Nat.floor_le hnonneg
  have hceil := Nat.le_ceil q
  have hceilfits : ⌈q⌉₊ ≤ 2 ^ 53 := Nat.ceil_le.mpr (by exact_mod_cast hsmall)
  obtain ⟨low, hlow, hlowvalue⟩ := exists_nat ((Nat.floor_le_ceil q).trans hceilfits)
  obtain ⟨high, hhigh, hhighvalue⟩ := exists_nat hceilfits
  rw [← hlowvalue] at hfloor
  rw [← hhighvalue] at hceil
  have hfinite := hrounds.isFinite_of_between hlow hhigh hfloor hceil
  have hbelow := hrounds.le_value hfinite hlow hfloor
  have habove := hrounds.value_le hfinite hhigh hceil
  obtain ⟨n, hn, hnearest⟩ :=
    nearest_of_isFinite hfinite (hrounds.nonneg hfinite hnonneg) 0xFFFFFFFFFFFFFFFF
  have hlower := hn.ge_of_ge (hlowvalue ▸ hbelow)
  have hupper := hn.le_of_le (hhighvalue ▸ habove)
  have hwritten : (nearest 0 0xFFFFFFFFFFFFFFFF product).toNat = n := by
    rw [show (0xFFFFFFFFFFFFFFFF : ℤ) = (0xFFFFFFFFFFFFFFFF : Nat) from rfl, hnearest]
    omega
  have hlower : (⌊q⌋₊ : ℚ) ≤ n := by exact_mod_cast hlower
  have hupper : (n : ℚ) ≤ ⌈q⌉₊ := by exact_mod_cast hupper
  rw [hwritten, abs_lt]
  constructor
  · linarith [Nat.lt_floor_add_one q]
  · linarith [Nat.ceil_lt_add_one hnonneg]

theorem tenths_of_large (hx : x.isFinite = true) (hlarge : 2 ^ 53 ≤ |value x| * 10)
    (hroom : |value x| * 10 < 2 ^ 64) :
    ∃ k : Nat, value (x.abs * 10.0) = k ∧ tenths x = min k (2 ^ 64 - 1) := by
  have hrounds := rounds_product hx
  obtain ⟨low, hlow, hlowvalue⟩ := exists_nat (le_refl (2 ^ 53))
  obtain ⟨high, hhigh, hhighvalue⟩ :=
    exists_value (k := 1) (t := 64) (by norm_num) (by norm_num)
      (magnitude_lt_top (by norm_num) (by norm_num))
  have hbelow : value low ≤ |value x| * 10 := by
    rw [hlowvalue]
    exact_mod_cast hlarge
  have habove : |value x| * 10 ≤ value high := by
    rw [hhighvalue]
    exact_mod_cast hroom.le
  have hfinite := hrounds.isFinite_of_between hlow hhigh hbelow habove
  have hnonneg := hrounds.nonneg hfinite (by positivity)
  have hwhole : 2 ^ 53 ≤ value (x.abs * 10.0) := by
    have hle := hrounds.le_value hfinite hlow hbelow
    rw [hlowvalue] at hle
    exact_mod_cast hle
  rw [← abs_of_nonneg hnonneg] at hwhole
  obtain ⟨k, hk⟩ := exists_even hfinite hwhole
  rw [abs_of_nonneg hnonneg] at hk
  obtain ⟨n, hn, hnearest⟩ := nearest_of_isFinite hfinite hnonneg 0xFFFFFFFFFFFFFFFF
  rw [hn.of_whole hk] at hnearest
  exact ⟨2 * k, hk, by rw [tenths]; exact congrArg Int.toNat hnearest⟩

/-- Ten times a number is not next to the end of the range. -/
theorem le_of_lt_cap (hx : x.isFinite = true) (hroom : |value x| * 10 < 2 ^ 64) :
    |value x| * 10 ≤ 2 ^ 64 - 2 := by
  by_contra hnear
  rw [not_le] at hnear
  obtain ⟨k, hk⟩ := exists_even hx (by linarith)
  rw [hk] at hnear hroom
  have hbelow : ((2 ^ 64 - 2 : Nat) : ℚ) < (2 * k * 10 : Nat) := by
    push_cast at hnear ⊢
    linarith
  have habove : ((2 * k * 10 : Nat) : ℚ) < (2 ^ 64 : Nat) := by
    push_cast at hroom ⊢
    linarith
  have hbelow := Nat.cast_lt.mp hbelow
  have habove := Nat.cast_lt.mp habove
  omega

theorem tenths_le (x : Float) : tenths x ≤ 2 ^ 64 - 1 := by
  have hle : nearest 0 0xFFFFFFFFFFFFFFFF (x.abs * 10.0) ≤ 0xFFFFFFFFFFFFFFFF :=
    nearest_le (by decide) (by decide) _
  rw [tenths]
  omega

theorem tenths_off_lt_one_iff (hx : x.isFinite = true) :
    |(tenths x : ℚ) - |value x| * 10| < 1 ↔
      |value x| * 10 ≤ 2 ^ 53 ∨
        |value x| * 10 < 2 ^ 64 ∧ |value (x.abs * 10.0) - |value x| * 10| < 1 := by
  by_cases hsmall : |value x| * 10 ≤ 2 ^ 53
  · exact iff_of_true (tenths_of_small hx hsmall) (.inl hsmall)
  rw [or_iff_right hsmall]
  by_cases hroom : |value x| * 10 < 2 ^ 64
  · obtain ⟨k, hk, htenths⟩ := tenths_of_large hx (not_le.mp hsmall).le hroom
    rw [and_iff_right hroom, htenths, hk]
    by_cases hfits : k ≤ 2 ^ 64 - 1
    · rw [min_eq_left hfits]
    · -- The product was rounded up to the end of the range.
      have hcap : (2 ^ 64 : ℚ) ≤ k := by exact_mod_cast (by omega : 2 ^ 64 ≤ k)
      have hle := le_of_lt_cap hx hroom
      rw [min_eq_right (by omega)]
      refine iff_of_false (fun h => ?_) (fun h => ?_)
      · have hlt := (abs_lt.mp h).2
        push_cast at hlt
        linarith
      · linarith [(abs_lt.mp h).2]
  · have hle : (tenths x : ℚ) ≤ (2 ^ 64 - 1 : Nat) := by exact_mod_cast tenths_le x
    push_cast at hle
    refine iff_of_false (fun h => ?_) (fun h => hroom h.1)
    linarith [(abs_lt.mp h).1]

theorem lt_zero_iff (hx : x.isFinite = true) : x < 0.0 ↔ value x < 0 := by
  rw [lt_iff_value hx zero_value.1, zero_value.2]

theorem written_off (hx : x.isFinite = true) :
    |(Written.ofTenths (x < 0.0 && 0 < tenths x) (tenths x)).value - value x| =
      |((tenths x : ℚ) - |value x| * 10) / 10| := by
  rw [Written.value, Written.magnitude_ofTenths]
  by_cases hneg : x < 0.0
  · have habs : |value x| = -value x := abs_of_neg ((lt_zero_iff hx).mp hneg)
    rw [habs]
    rcases Nat.eq_zero_or_pos (tenths x) with hzero | hpos
    · simp [Written.ofTenths, hzero]
    · simp only [Written.ofTenths, hneg, hpos, decide_true, Bool.and_self, if_true]
      rw [← abs_neg]
      congr 1
      ring
  · have habs : |value x| = value x :=
      abs_of_nonneg (not_lt.mp ((lt_zero_iff hx).not.mp hneg))
    rw [habs]
    simp only [Written.ofTenths, hneg, decide_false, Bool.false_and, Bool.false_eq_true, if_false]
    congr 1
    ring

end Tenths

/-- An amount is a decimal with one place. It is less than a tenth off just when ten times the
number is in the range in which all whole numbers are numbers of the format, or is below `2 ^ 64`
and the product less than one off. -/
theorem amount_is_written_decimal {x : Float} (hx : x.isFinite = true) :
    ∃ w : Written, (amount x).toList = w.text ∧
      (w.negative = true ↔ x < 0.0 ∧ w.magnitude ≠ 0) ∧
      (|w.value - value x| < 1 / 10 ↔
        |value x| * 10 ≤ 2 ^ 53 ∨
          |value x| * 10 < 2 ^ 64 ∧ |value (x.abs * 10.0) - |value x| * 10| < 1) := by
  refine ⟨_, amount_eq hx, ?_, ?_⟩
  · rw [Written.magnitude_ofTenths]
    simp [Written.ofTenths, Nat.pos_iff_ne_zero]
  · have hten : (0 : ℚ) < 10 := by norm_num
    rw [← tenths_off_lt_one_iff hx, written_off hx, abs_div, abs_of_pos hten,
      div_lt_div_iff_of_pos_right hten]

theorem amount_of_carried_debt :
    (-999999.96 : Float).isFinite = true ∧ amount (-999999.96) = "-1,000,000.0" ∧
    ∃ w : Written, "-1,000,000.0".toList = w.text ∧ w.magnitude ≠ 0 ∧
      |w.value - value (-999999.96)| < 1 / 10 := by
  have hfinite : (-999999.96 : Float).isFinite = true := by decide +kernel
  have htext : amount (-999999.96) = "-1,000,000.0" := by decide +kernel
  have hbound : (-999999.96 : Float).abs ≤ Float.ofNat 1000000 := by decide +kernel
  obtain ⟨habs, hvalue⟩ := abs_spec hfinite
  obtain ⟨hbig, hbigvalue⟩ := value_ofNat (n := 1000000) (by norm_num)
  rw [le_iff_value habs hbig, hvalue, hbigvalue] at hbound
  obtain ⟨w, hw, hsign, hoff⟩ := amount_is_written_decimal hfinite
  rw [htext] at hw
  have hclose := hoff.mpr (.inl (by push_cast at hbound; linarith))
  have hminus := ((w.text_eq_minus_cons_iff "1,000,000.0".toList).mp hw.symm).1
  exact ⟨hfinite, htext, w, hw, (hsign.mp hminus).2, hclose⟩

/-- The product is rounded from `9007199254740995`, and a whole tenth is lost. -/
example : amount 900719925474099.5 = "900,719,925,474,099.6" := by decide +kernel

theorem amount_of_large_number_is_capped :
    (1e20 : Float).isFinite = true ∧ value 1e20 = 10 ^ 20 ∧
    amount 1e20 = "1,844,674,407,370,955,161.5" ∧
    ∀ w : Written, (amount 1e20).toList = w.text → ¬ |w.value - value 1e20| < 1 / 10 := by
  have hform : (1e20 : Float).toModel.unpack =
      .finite .positive 6103515625000000 14 (by norm_num) := by
    rfl
  have hvalue : value 1e20 = 10 ^ 20 := by
    rw [value, hform, exact, withSign]
    norm_num
  refine ⟨rfl, hvalue, by decide +kernel, fun w hw => ?_⟩
  rw [amount_eq rfl] at hw
  have hpos : (0 : ℚ) < 10 ^ 20 := by norm_num
  rw [← Written.value_unique hw, written_off rfl, hvalue, abs_of_pos hpos]
  have hle : (tenths 1e20 : ℚ) ≤ (2 ^ 64 - 1 : Nat) := by exact_mod_cast tenths_le 1e20
  push_cast at hle
  intro hnear
  linarith [(abs_lt.mp hnear).1]

end TracePlot.Number
