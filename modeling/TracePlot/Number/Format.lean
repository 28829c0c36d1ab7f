import TracePlot.Number.Shortest

/-! Written forms of numbers: shortest decimals laid out with or without an exponent, a fixed
number of decimals, and grouped digits. -/

namespace TracePlot.Number

/-- How a shortest decimal is laid out. -/
structure Layout where
  /-- Decimal exponents of the first digit that are written without an exponent. -/
  positional : Int → Bool
  /-- Whether a whole number keeps `.0`. -/
  pointZero : Bool
  /-- Whether a positive exponent has a sign. -/
  plusSign : Bool
  tie : Tie

/-- Numbers in labels: positional from `0.0001` up to `1e16`. -/
def Layout.label : Layout where
  positional e := -4 ≤ e && e ≤ 15
  pointZero := true
  plusSign := false
  tie := .up

/-- Numbers in running text: always positional, whole numbers without a point. -/
def Layout.plain : Layout where
  positional _ := true
  pointZero := false
  plusSign := false
  tie := .up

/-- Numbers of a JSON document: positional from `0.00001` up to `1e16`. -/
def Layout.json : Layout where
  positional e := -5 ≤ e && e ≤ 15
  pointZero := true
  plusSign := true
  tie := .even

def zeros (n : Nat) : String :=
  String.ofList (List.replicate n '0')

def digitsText (n : Nat) : String :=
  String.ofList (Nat.toDigits 10 n)

/-- Digits without an exponent, the point put where `exponent` says. -/
def positionalText (pointZero : Bool) (d : Decimal) : String :=
  let digits := Nat.toDigits 10 d.digits
  if 0 ≤ d.exponent then
    String.ofList digits ++ zeros d.exponent.toNat ++ (if pointZero then ".0" else "")
  else
    let places := (-d.exponent).toNat
    if digits.length ≤ places then "0." ++ zeros (places - digits.length) ++ String.ofList digits
    else
      let whole := digits.length - places
      String.ofList (digits.take whole) ++ "." ++ String.ofList (digits.drop whole)

/-- One digit, the point, the other digits and the exponent. -/
def exponentText (plusSign : Bool) (d : Decimal) : String :=
  let digits := Nat.toDigits 10 d.digits
  let e := d.exponent + (digits.length : Int) - 1
  let tail := if digits.length ≤ 1 then "" else "." ++ String.ofList (digits.drop 1)
  let sign := if e < 0 then "-" else if plusSign then "+" else ""
  String.ofList (digits.take 1) ++ tail ++ "e" ++ sign ++ digitsText e.natAbs

def Layout.decimalText (layout : Layout) (d : Decimal) : String :=
  if layout.positional (d.exponent + digitCount d.digits - 1) then
    positionalText layout.pointZero d
  else exponentText layout.plusSign d

def Layout.text (layout : Layout) (x : Float) : String :=
  match parts x with
  | .nan => "NaN"
  | .infinite negative => if negative then "-inf" else "inf"
  | .finite negative mantissa exponent =>
    let sign := if negative then "-" else ""
    if mantissa = 0 then sign ++ (if layout.pointZero then "0.0" else "0")
    else sign ++ layout.decimalText (shortest layout.tie mantissa exponent)

def label (x : Float) : String := Layout.label.text x

def plain (x : Float) : String := Layout.plain.text x

/-- One decimal of the exact value, a half going to the even digit. -/
def oneDecimal (x : Float) : String :=
  match parts x with
  | .nan => "NaN"
  | .infinite negative => if negative then "-inf" else "inf"
  | .finite negative mantissa exponent =>
    let (n, d) := fractionOf mantissa exponent
    let tenths := divHalfEven (10 * n) d
    (if negative then "-" else "") ++ digitsText (tenths / 10) ++ "." ++ digitsText (tenths % 10)

/-- Puts a comma before every third digit from the right; the list is the number reversed. -/
def groupReversed : List Char → List Char
  | a :: b :: c :: d :: rest => a :: b :: c :: ',' :: groupReversed (d :: rest)
  | short => short

def grouped (n : Nat) : String :=
  String.ofList (groupReversed (Nat.toDigits 10 n).reverse).reverse

/-- Grouped digits and one decimal, a half going away from zero. A number that rounds to zero has
no sign, and one of `2 ^ 64` tenths or more is written as `2 ^ 64 - 1` tenths. -/
def amount (x : Float) : String :=
  if x.isFinite then
    let tenths := (nearest 0 0xFFFFFFFFFFFFFFFF (x.abs * 10.0)).toNat
    let sign := if x < 0.0 && 0 < tenths then "-" else ""
    sign ++ grouped (tenths / 10) ++ "." ++ digitsText (tenths % 10)
  else plain x

end TracePlot.Number
