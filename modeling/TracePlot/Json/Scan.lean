import TracePlot.Json.Fault
import TracePlot.Json.Value
import TracePlot.Number.Literal

/-! The leaves of a JSON text: blanks, words, quoted texts and numbers. -/

namespace TracePlot.Json

def isSpace (c : Char) : Bool :=
  c = ' ' || c = '\n' || c = '\t' || c = '\r'

def skipSpace (cs : List Char) : List Char :=
  cs.dropWhile isSpace

def word : List Char → List Char → Except Fault (List Char)
  | [], cs => .ok cs
  | _ :: _, [] => fail .endInValue []
  | w :: ws, c :: cs => if w = c then word ws cs else failAt .expectedIdent (c :: cs)

def hexEscape : List Char → Except Fault (Outcome Nat)
  | a :: b :: c :: d :: rest =>
    match Number.hexValue? a, Number.hexValue? b, Number.hexValue? c, Number.hexValue? d with
    | some a, some b, some c, some d => .ok (((a * 16 + b) * 16 + c) * 16 + d, rest)
    | _, _, _, _ => .error ⟨.invalidEscape, a :: b :: c :: d :: rest, 4⟩
  | short =>
    if 4 ≤ Text.Utf8.size short then .error ⟨.invalidEscape, short, 4⟩
    else fail .endInString []

def isLeading (n : Nat) : Bool :=
  0xD800 ≤ n && n ≤ 0xDBFF

def isTrailing (n : Nat) : Bool :=
  0xDC00 ≤ n && n ≤ 0xDFFF

/-- The character of a `\u` escape, whose digits come next. A leading surrogate asks for an escape
with a trailing one. -/
def unicodeEscape (cs : List Char) : Except Fault (Outcome Char) := do
  let (first, rest) ← hexEscape cs
  if isTrailing first then fail .loneSurrogate rest
  else if !isLeading first then pure (Char.ofNat first, rest)
  else
    match rest with
    | [] => fail .endInString []
    | '\\' :: rest =>
      match rest with
      | [] => fail .endInString []
      | 'u' :: rest =>
        let (second, rest) ← hexEscape rest
        if isTrailing second then
          pure (Char.ofNat (0x10000 + (first - 0xD800) * 0x400 + (second - 0xDC00)), rest)
        else fail .loneSurrogate rest
      | other => failAt .endInHexEscape other
    | other => failAt .endInHexEscape other

/-- What a one-letter escape stands for. -/
def simpleEscape? (c : Char) : Option Char :=
  if c = '"' ∨ c = '\\' ∨ c = '/' then some c
  else if c = 'b' then some '\x08'
  else if c = 'f' then some '\x0c'
  else if c = 'n' then some '\n'
  else if c = 'r' then some '\r'
  else if c = 't' then some '\t'
  else none

/-- The rest of a quoted text; `done` holds its characters so far, reversed. -/
def quotedRest (fuel : Nat) (done : List Char) (cs : List Char) : Except Fault (Outcome String) :=
  match fuel, cs with
  | _, [] => fail .endInString []
  | 0, cs => fail .endInString cs
  | fuel + 1, c :: rest =>
    if c = '"' then .ok (String.ofList done.reverse, rest)
    else if c = '\\' then
      match rest with
      | [] => fail .endInString []
      | 'u' :: digits => do
        let (e, rest) ← unicodeEscape digits
        quotedRest fuel (e :: done) rest
      | e :: after =>
        match simpleEscape? e with
        | some plain => quotedRest fuel (plain :: done) after
        | none => failAt .invalidEscape rest
    else if c.toNat < 0x20 then failAt .controlCharacter cs
    else quotedRest fuel (c :: done) rest

def quoted (cs : List Char) : Except Fault (Outcome String) :=
  quotedRest (cs.length + 1) [] cs

/-- Passes the rest of a quoted text without asking which characters its escapes stand for. -/
def passQuotedRest (fuel : Nat) (cs : List Char) : Except Fault (List Char) :=
  match fuel, cs with
  | _, [] => fail .endInString []
  | 0, cs => fail .endInString cs
  | fuel + 1, c :: rest =>
    if c = '"' then .ok rest
    else if c = '\\' then
      match rest with
      | [] => fail .endInString []
      | 'u' :: digits => do
        let (_, rest) ← hexEscape digits
        passQuotedRest fuel rest
      | e :: after =>
        match simpleEscape? e with
        | some _ => passQuotedRest fuel after
        | none => failAt .invalidEscape rest
    else if c.toNat < 0x20 then fail .controlCharacter cs
    else passQuotedRest fuel rest

def passQuoted (cs : List Char) : Except Fault (List Char) :=
  passQuotedRest (cs.length + 1) cs

/-- Takes in the leading digits as long as the number stays below `2 ^ 64`: the number, how many
were taken, and how many are left. -/
def absorb (n : Nat) : List Char → Nat × Nat × Nat
  | [] => (n, 0, 0)
  | c :: rest =>
    let next := 10 * n + Number.digitValue c
    if next < 0x10000000000000000 then
      let (n, taken, left) := absorb next rest
      (n, taken + 1, left)
    else (n, 0, rest.length + 1)

/-- `x * 10 ^ exponent`, with powers above `308` applied in steps. -/
def scale : Nat → Float → Int → Option Float
  | 0, x, _ => some x
  | fuel + 1, x, exponent =>
    if exponent.natAbs ≤ 308 then
      let power := Number.ofDecimal 1 exponent.natAbs
      if 0 ≤ exponent then
        let y := x * power
        if y.isInf then none else some y
      else some (x / power)
    else if x == 0.0 then some x
    else if 0 ≤ exponent then none
    else scale fuel (x / Number.ofDecimal 1 308) (exponent + 308)

def floatOf (negative : Bool) (significand : Nat) (exponent : Int) (rest : List Char) :
    Except Fault (Outcome Value) :=
  match scale 4 (Float.ofNat significand) exponent with
  | some x => .ok (.float (if negative then -x else x), rest)
  | none => fail .numberOutOfRange rest

/-- The digits of an exponent from the second on: the exponent, or what is left behind the digit
that takes it beyond 31 bits. -/
def exponentDigits (e : Nat) : List Char → Except (List Char) Nat
  | [] => .ok e
  | c :: rest =>
    let next := 10 * e + Number.digitValue c
    if next < 0x80000000 then exponentDigits next rest else .error rest

/-- The exponent after its `e`, added to the one that the digits already imply. -/
def exponentRest (negative : Bool) (significand : Nat) (implied : Int) (cs : List Char) :
    Except Fault (Outcome Value) :=
  let (below, cs) := Number.takeSign cs
  match cs with
  | [] => fail .endInValue []
  | c :: _ =>
    if !Number.isDigit c then failAt .invalidNumber cs
    else
      let digits := cs.takeWhile Number.isDigit
      let rest := cs.dropWhile Number.isDigit
      match exponentDigits 0 digits with
      | .ok e => floatOf negative significand (if below then implied - e else implied + e) rest
      | .error left =>
        if significand ≠ 0 ∧ !below then fail .numberOutOfRange (left ++ rest)
        else .ok (.float (if negative then -0.0 else 0.0), rest)

def exponentOrEnd (negative : Bool) (significand : Nat) (implied : Int) (cs : List Char) :
    Except Fault (Outcome Value) :=
  match cs with
  | 'e' :: rest => exponentRest negative significand implied rest
  | 'E' :: rest => exponentRest negative significand implied rest
  | rest => floatOf negative significand implied rest

/-- The decimal places after the point. -/
def placesRest (negative : Bool) (significand : Nat) (implied : Int) (cs : List Char) :
    Except Fault (Outcome Value) :=
  let digits := cs.takeWhile Number.isDigit
  let rest := cs.dropWhile Number.isDigit
  if digits.isEmpty then
    match rest with
    | [] => failAt .endInValue []
    | rest => failAt .invalidNumber rest
  else
    let (n, taken, _) := absorb significand digits
    exponentOrEnd negative n (implied - taken) rest

/-- What follows the whole part of a number. A whole number beyond 64 bits is a float, and so is
`-0`. -/
def numberTail (negative : Bool) (significand left : Nat) (cs : List Char) :
    Except Fault (Outcome Value) :=
  match cs with
  | '.' :: rest => placesRest negative significand left rest
  | 'e' :: rest => exponentRest negative significand left rest
  | 'E' :: rest => exponentRest negative significand left rest
  | rest =>
    if 0 < left then floatOf negative significand left rest
    else if !negative then .ok (.integer significand, rest)
    else if 0 < significand ∧ significand ≤ 0x8000000000000000 then
      .ok (.integer (-significand), rest)
    else .ok (.float (-(Float.ofNat significand)), rest)

def number (negative : Bool) (cs : List Char) : Except Fault (Outcome Value) :=
  match cs with
  | [] => fail .endInValue []
  | '0' :: rest =>
    match rest with
    | c :: _ =>
      if Number.isDigit c then failAt .invalidNumber rest else numberTail negative 0 0 rest
    | [] => numberTail negative 0 0 []
  | c :: _ =>
    if Number.isDigit c then
      let (n, _, left) := absorb 0 (cs.takeWhile Number.isDigit)
      numberTail negative n left (cs.dropWhile Number.isDigit)
    else failAt .invalidNumber cs

/-- Passes the exponent of a number after its `e`. -/
def passExponent (cs : List Char) : Except Fault (List Char) :=
  let cs := match cs with
    | '+' :: rest => rest
    | '-' :: rest => rest
    | cs => cs
  match cs with
  | c :: rest =>
    if Number.isDigit c then .ok (rest.dropWhile Number.isDigit) else failAt .invalidNumber cs
  | [] => fail .invalidNumber []

/-- Passes what may follow the whole part of a number. -/
def passTail (cs : List Char) : Except Fault (List Char) :=
  match cs with
  | '.' :: rest =>
    match rest with
    | c :: _ =>
      if Number.isDigit c then
        match rest.dropWhile Number.isDigit with
        | 'e' :: rest => passExponent rest
        | 'E' :: rest => passExponent rest
        | rest => .ok rest
      else failAt .invalidNumber rest
    | [] => failAt .invalidNumber []
  | 'e' :: rest => passExponent rest
  | 'E' :: rest => passExponent rest
  | rest => .ok rest

def passNumber (cs : List Char) : Except Fault (List Char) :=
  match cs with
  | [] => fail .invalidNumber []
  | '0' :: rest =>
    match rest with
    | c :: _ => if Number.isDigit c then failAt .invalidNumber rest else passTail rest
    | [] => .ok []
  | c :: rest =>
    if Number.isDigit c then passTail (rest.dropWhile Number.isDigit)
    else failAt .invalidNumber cs

end TracePlot.Json
