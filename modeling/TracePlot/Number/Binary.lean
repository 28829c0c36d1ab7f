/-! Binary64 numbers taken apart into sign, mantissa and power of two, and the exact
integers next to them. -/

namespace TracePlot.Number

def minInt32 : Int := -0x80000000

def maxInt32 : Int := 0x7FFFFFFF

inductive Parts where
  | nan
  | infinite (negative : Bool)
  /-- The number with this sign and absolute value `mantissa * 2 ^ exponent`. -/
  | finite (negative : Bool) (mantissa : Nat) (exponent : Int)
  deriving Repr, DecidableEq

def parts (x : Float) : Parts :=
  let word : Nat := x.toBits.toNat
  let negative := word / 0x8000000000000000 == 1
  let biased : Nat := word / 0x10000000000000 % 2048
  let fraction := word % 0x10000000000000
  if biased = 2047 then
    if fraction = 0 then .infinite negative else .nan
  else if biased = 0 then .finite negative fraction (-1074)
  else .finite negative (fraction + 0x10000000000000) ((biased : Int) - 1075)

/-- The fraction `n / d` that equals `mantissa * 2 ^ exponent`. -/
def fractionOf (mantissa : Nat) (exponent : Int) : Nat × Nat :=
  if 0 ≤ exponent then (mantissa * Nat.pow 2 exponent.toNat, 1)
  else (mantissa, Nat.pow 2 (-exponent).toNat)

/-- The integer nearest to `n / d`, a half going up. -/
def divHalfUp (n d : Nat) : Nat :=
  (2 * n + d) / (2 * d)

/-- The integer nearest to `n / d`, a half going to the even neighbour. -/
def divHalfEven (n d : Nat) : Nat :=
  let q := n / d
  match compare (2 * (n % d)) d with
  | .lt => q
  | .gt => q + 1
  | .eq => if q % 2 = 0 then q else q + 1

/-- The smallest integer not below `n / d`. -/
def divUp (n d : Nat) : Nat :=
  (n + d - 1) / d

def clampInt (lo hi n : Int) : Int :=
  if n < lo then lo else if hi < n then hi else n

/-- Applies a rounding of absolute values, one for each sign, and keeps the result in `[lo, hi]`.
Infinities go to the ends and NaN to zero. -/
def roundWith (above below : Nat → Nat → Nat) (lo hi : Int) (x : Float) : Int :=
  match parts x with
  | .nan => 0
  | .infinite negative => if negative then lo else hi
  | .finite negative mantissa exponent =>
    let (n, d) := fractionOf mantissa exponent
    clampInt lo hi (if negative then -(below n d : Int) else (above n d : Int))

/-- The nearest integer in `[lo, hi]`, a half going away from zero. -/
def nearest (lo hi : Int) (x : Float) : Int :=
  roundWith divHalfUp divHalfUp lo hi x

def floor (lo hi : Int) (x : Float) : Int :=
  roundWith (· / ·) divUp lo hi x

def ceiling (lo hi : Int) (x : Float) : Int :=
  roundWith divUp (· / ·) lo hi x

/-- The number nearest to an integer, a tie going to the even mantissa. -/
def ofInt (n : Int) : Float :=
  if n < 0 then -(Float.ofNat n.natAbs) else Float.ofNat n.natAbs

end TracePlot.Number
