import TracePlot.Number.Binary

/-! Shortest decimals. Of the decimals that read back as a given number the chosen one has
the fewest digits and, among those, lies nearest. -/

namespace TracePlot.Number

/-- The value `digits * 10 ^ exponent`. -/
structure Decimal where
  digits : Nat
  exponent : Int
  deriving Repr, DecidableEq

def digitCount (n : Nat) : Nat :=
  (Nat.toDigits 10 n).length

/-- The `e` with `10 ^ (e - 1) ≤ n / d < 10 ^ e`. -/
def magnitude (n d : Nat) : Int :=
  if d ≤ n then digitCount (n / d)
  else
    let k := digitCount (d / n)
    if d = n * Nat.pow 10 (k - 1) then 2 - (k : Int) else 1 - (k : Int)

/-- `n / d` divided by `10 ^ k`, again as a fraction. -/
def shiftDecimal (n d : Nat) (k : Int) : Nat × Nat :=
  if 0 ≤ k then (n, d * Nat.pow 10 k.toNat) else (n * Nat.pow 10 (-k).toNat, d)

/-- Which of two equally near decimals of the same length is taken. -/
inductive Tie where
  | up
  | even
  deriving Repr, DecidableEq

/-- A number with the ends of the interval of reals that read back as it, over one denominator. -/
structure Interval where
  low : Nat
  value : Nat
  high : Nat
  den : Nat
  /-- Whether the ends themselves read back. -/
  closed : Bool

def readsBackAs (mantissa : Nat) (exponent : Int) : Interval :=
  let below := if mantissa = 0x10000000000000 ∧ -1074 < exponent then 1 else 2
  let (scale, den) := fractionOf 1 (exponent - 2)
  { low := (4 * mantissa - below) * scale
    value := 4 * mantissa * scale
    high := (4 * mantissa + 2) * scale
    den
    closed := mantissa % 2 = 0 }

/-- Whether `q * 10 ^ k` reads back. -/
def Interval.holds (i : Interval) (q : Nat) (k : Int) : Bool :=
  let (p, s) :=
    if 0 ≤ k then (q * Nat.pow 10 k.toNat * i.den, 1) else (q * i.den, Nat.pow 10 (-k).toNat)
  if i.closed then i.low * s ≤ p && p ≤ i.high * s else i.low * s < p && p < i.high * s

/-- The better of the two neighbours of the value on the grid of multiples of `10 ^ k`. -/
def Interval.onGrid? (i : Interval) (tie : Tie) (k : Int) : Option Nat :=
  let (n, d) := shiftDecimal i.value i.den k
  let q := n / d
  match i.holds q k, i.holds (q + 1) k with
  | false, false => none
  | true, false => some q
  | false, true => some (q + 1)
  | true, true =>
    match compare (2 * (n % d)) d, tie with
    | .lt, _ => some q
    | .gt, _ => some (q + 1)
    | .eq, .up => some (q + 1)
    | .eq, .even => some (if q % 2 = 0 then q else q + 1)

def Interval.search (i : Interval) (tie : Tie) : Nat → Int → Decimal
  | 0, k => ⟨i.value / i.den, k⟩
  | finer + 1, k =>
    match i.onGrid? tie k with
    | some q => ⟨q, k⟩
    | none => i.search tie finer (k - 1)

def Decimal.trimZeros (d : Decimal) : Nat → Decimal
  | 0 => d
  | fuel + 1 =>
    if d.digits ≠ 0 ∧ d.digits % 10 = 0 then
      Decimal.trimZeros ⟨d.digits / 10, d.exponent + 1⟩ fuel
    else d

/-- The shortest decimal of `mantissa * 2 ^ exponent`. Seventeen digits always suffice. -/
def shortest (tie : Tie) (mantissa : Nat) (exponent : Int) : Decimal :=
  if mantissa = 0 then ⟨0, 0⟩
  else
    let i := readsBackAs mantissa exponent
    (i.search tie 17 (magnitude i.value i.den - 1)).trimZeros 20

end TracePlot.Number
