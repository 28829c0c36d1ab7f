import TracePlot.Number.Binary

/-! Reading numbers from text: decimal floats with an optional sign and exponent, and whole
numbers of a bounded range. -/

namespace TracePlot.Number

def isDigit (c : Char) : Bool :=
  '0' ≤ c && c ≤ '9'

def digitValue (c : Char) : Nat :=
  c.toNat - '0'.toNat

def natOfDigits (cs : List Char) : Nat :=
  cs.foldl (fun n c => 10 * n + digitValue c) 0

/-- The number nearest to `digits * 10 ^ exponent`. Exponents beyond the range of the format are
settled by the magnitude alone. -/
def ofDecimal (digits : Nat) (exponent : Int) : Float :=
  let size : Int := (Nat.toDigits 10 digits).length + exponent
  if digits = 0 then 0.0
  else if 310 < size then 1.0 / 0.0
  else if size < -330 then 0.0
  else if exponent < 0 then Float.ofScientific digits true exponent.natAbs
  else Float.ofScientific digits false exponent.natAbs

/-- An optional sign: whether it is a minus, and the rest. -/
def takeSign : List Char → Bool × List Char
  | '-' :: rest => (true, rest)
  | '+' :: rest => (false, rest)
  | rest => (false, rest)

/-- The exponent part of a float, which is empty or `e` with a signed digit string. -/
def exponentPart? : List Char → Option Int
  | [] => some 0
  | c :: rest =>
    if c = 'e' ∨ c = 'E' then
      let (negative, digits) := takeSign rest
      if digits.isEmpty || !digits.all isDigit then none
      else some (if negative then -(natOfDigits digits : Int) else natOfDigits digits)
    else none

/-- Digits with at most one point among them and an optional exponent. -/
def unsignedFloat? (cs : List Char) : Option Float :=
  let whole := cs.takeWhile isDigit
  let (places, rest) :=
    match cs.dropWhile isDigit with
    | '.' :: rest => (rest.takeWhile isDigit, rest.dropWhile isDigit)
    | rest => ([], rest)
  if whole.isEmpty && places.isEmpty then none
  else
    (exponentPart? rest).map fun e =>
      ofDecimal (natOfDigits (whole ++ places)) (e - (places.length : Int))

def asciiLower (cs : List Char) : List Char :=
  cs.map Char.toLower

/-- Reads the word of a float: an optional sign, then digits or one of the names `inf`, `infinity`
and `nan` in any case. A minus sets the sign bit, that of a NaN too. -/
def word? (text : String) : Option UInt64 :=
  let (negative, body) := takeSign text.toList
  let magnitude :=
    let name := asciiLower body
    if name = "inf".toList ∨ name = "infinity".toList then some (1.0 / 0.0)
    else if name = "nan".toList then some (0.0 / 0.0)
    else unsignedFloat? body
  magnitude.map fun x => if negative then x.toBits ||| 0x8000000000000000 else x.toBits

def float? (text : String) : Option Float :=
  (word? text).map Float.ofBits

inductive IntegerFault where
  | empty
  | invalidDigit
  | tooLarge
  | tooSmall
  deriving Repr, DecidableEq

def IntegerFault.message : IntegerFault → String
  | .empty => "cannot parse integer from empty string"
  | .invalidDigit => "invalid digit found in string"
  | .tooLarge => "number too large to fit in target type"
  | .tooSmall => "number too small to fit in target type"

def hexValue? (c : Char) : Option Nat :=
  if isDigit c then some (digitValue c)
  else if 'a' ≤ c && c ≤ 'f' then some (c.toNat - 'a'.toNat + 10)
  else if 'A' ≤ c && c ≤ 'F' then some (c.toNat - 'A'.toNat + 10)
  else none

/-- The value of `c` as a digit in the given base, at most sixteen. -/
def baseValue? (base : Nat) (c : Char) : Option Nat :=
  (hexValue? c).filter (· < base)

/-- Reads the digits from the left and stops at the first fault: a character that is no digit, or
a digit that takes the number out of `[lo, hi]`. -/
def digitsWithin (base : Nat) (negative : Bool) (lo hi : Int) :
    Int → List Char → Except IntegerFault Int
  | n, [] => .ok n
  | n, c :: rest =>
    match baseValue? base c with
    | none => .error .invalidDigit
    | some d =>
      let next := if negative then n * base - d else n * base + d
      if hi < next then .error .tooLarge
      else if next < lo then .error .tooSmall
      else digitsWithin base negative lo hi next rest

def integer (base : Nat) (lo hi : Int) (cs : List Char) : Except IntegerFault Int :=
  if cs.isEmpty then .error .empty
  else
    let (negative, digits) := takeSign cs
    if digits.isEmpty then .error .invalidDigit
    else digitsWithin base negative lo hi 0 digits

/-- Reads a whole number of 32 bits with a sign, in base sixteen after `0x`. -/
def int32 (text : String) : Except IntegerFault Int :=
  match text.toList with
  | '0' :: 'x' :: rest => integer 16 minInt32 maxInt32 rest
  | cs => integer 10 minInt32 maxInt32 cs

end TracePlot.Number
