import TracePlot.Number.Literal
import TracePlot.Text.Blank

/-! Sets of resource ids written as ids and ranges (`0-3 7`). A read set holds ascending ranges
with a gap between any two, so each set has one form. -/

namespace TracePlot.Resource

structure IdRange where
  first : Nat
  last : Nat
  deriving Repr, DecidableEq, Inhabited

structure IdSet where
  ranges : List IdRange := []
  deriving Repr, DecidableEq, Inhabited

def maxId : Nat := 0xFFFFFFFF

inductive IdSet.Fault where
  /-- A token that is neither an id nor two ids joined by a dash. -/
  | invalid (token : String)
  /-- A range whose first id exceeds its last. -/
  | reversed (token : String)
  deriving Repr, DecidableEq

def IdSet.Fault.message : IdSet.Fault → String
  | .invalid token => "invalid resource interval '" ++ token ++ "'"
  | .reversed token => "reversed interval '" ++ token ++ "'"

/-- Reads an id: an optional plus sign and digits of a value up to `maxId`. -/
def readId? (cs : List Char) : Option Nat :=
  let digits := match cs with
    | '+' :: rest => rest
    | cs => cs
  if digits.isEmpty || !digits.all Number.isDigit then none
  else
    let id := Number.natOfDigits digits
    if id ≤ maxId then some id else none

/-- Reads an id or, when the token holds a dash, the ids before and after the first one. -/
def readRange (token : List Char) : Except IdSet.Fault IdRange :=
  match Text.cutAt? '-' token with
  | none =>
    match readId? token with
    | some id => .ok ⟨id, id⟩
    | none => .error (.invalid (String.ofList token))
  | some (before, after) =>
    match readId? before, readId? after with
    | some first, some last =>
      if last < first then .error (.reversed (String.ofList token)) else .ok ⟨first, last⟩
    | _, _ => .error (.invalid (String.ofList token))

def IdRange.le (a b : IdRange) : Bool :=
  a.first < b.first || (a.first = b.first && a.last ≤ b.last)

/-- The id after `id`; the greatest id stays. -/
def nextId (id : Nat) : Nat :=
  min (id + 1) maxId

/-- Joins the ranges that overlap or touch, given in ascending order; `current` is the range that
the next one may join. -/
def mergeInto (current : IdRange) : List IdRange → List IdRange
  | [] => [current]
  | r :: rest =>
    if r.first ≤ nextId current.last then
      mergeInto ⟨current.first, max current.last r.last⟩ rest
    else current :: mergeInto r rest

def merge : List IdRange → List IdRange
  | [] => []
  | r :: rest => mergeInto r rest

namespace IdSet

def ofRanges (ranges : List IdRange) : IdSet :=
  ⟨merge (ranges.mergeSort IdRange.le)⟩

def parseChars (cs : List Char) : Except Fault IdSet :=
  ((Text.tokens cs).mapM readRange).map ofRanges

def parse (text : String) : Except Fault IdSet :=
  parseChars text.toList

def isEmpty (s : IdSet) : Bool :=
  s.ranges.isEmpty

def rangeText (r : IdRange) : String :=
  if r.first = r.last then toString r.first
  else toString r.first ++ "-" ++ toString r.last

def text (s : IdSet) : String :=
  " ".intercalate (s.ranges.map rangeText)

def idsOf (r : IdRange) : List Nat :=
  List.range' r.first (r.last + 1 - r.first)

def ids (s : IdSet) : List Nat :=
  s.ranges.flatMap idsOf

def contains (s : IdSet) (id : Nat) : Bool :=
  s.ranges.any fun r => r.first ≤ id && id ≤ r.last

/-- The least `n` ids, found without listing the others. -/
def firstIdsOf : Nat → List IdRange → List Nat
  | _, [] => []
  | n, r :: rest =>
    let here := min n (r.last + 1 - r.first)
    List.range' r.first here ++ firstIdsOf (n - here) rest

def firstIds (n : Nat) (s : IdSet) : List Nat :=
  firstIdsOf n s.ranges

end IdSet

end TracePlot.Resource
