import TracePlot.Json.Scan

/-! Reading a JSON document from text, and passing over one that is not wanted. Values may nest
127 deep when they are read; there is no limit on those that are passed over. -/

namespace TracePlot.Json

/-- The nesting that a fresh reader has left before it gives up. -/
def depthLimit : Nat := 128

/-- Whether another item follows inside a list: the input from that item on, or `none` in front of
the closing bracket. -/
def nextItem (first : Bool) (cs : List Char) : Except Fault (Option (List Char)) :=
  match skipSpace cs with
  | [] => failAt .endInList []
  | ']' :: _ => .ok none
  | c :: rest =>
    if first then .ok (some (c :: rest))
    else if c = ',' then
      match skipSpace rest with
      | [] => failAt .endInValue []
      | ']' :: rest => failAt .trailingComma (']' :: rest)
      | item => .ok (some item)
    else failAt .expectedListCommaOrEnd (c :: rest)

/-- Whether another member follows inside an object: the input behind the opening quote of its
name, or `none` in front of the closing brace. -/
def nextMember (first : Bool) (cs : List Char) : Except Fault (Option (List Char)) :=
  match skipSpace cs with
  | [] => failAt .endInObject []
  | c :: rest =>
    if c = '\x7d' then .ok none
    else if first then
      if c = '"' then .ok (some rest) else failAt .keyNotString (c :: rest)
    else if c = ',' then
      match skipSpace rest with
      | [] => failAt .endInValue []
      | d :: after =>
        if d = '"' then .ok (some after)
        else if d = '\x7d' then failAt .trailingComma (d :: after)
        else failAt .keyNotString (d :: after)
    else failAt .expectedObjectCommaOrEnd (c :: rest)

def colon (cs : List Char) : Except Fault (List Char) :=
  match skipSpace cs with
  | [] => failAt .endInObject []
  | ':' :: rest => .ok rest
  | rest => failAt .expectedColon rest

def endList (cs : List Char) : Except Fault (List Char) :=
  match skipSpace cs with
  | [] => failAt .endInList []
  | ']' :: rest => .ok rest
  | ',' :: rest =>
    match skipSpace rest with
    | ']' :: rest => failAt .trailingComma (']' :: rest)
    | rest => failAt .trailingCharacters rest
  | rest => failAt .trailingCharacters rest

/-- Where a reader stands after it has tried to end a list. -/
def afterList (cs : List Char) : List Char :=
  match skipSpace cs with
  | ']' :: rest => rest
  | ',' :: rest => skipSpace rest
  | rest => rest

/-- Where a reader stands after it has tried to end an object. -/
def afterObject (cs : List Char) : List Char :=
  match skipSpace cs with
  | '\x7d' :: rest => rest
  | rest => rest

/-- Values that hold no others: words, numbers and quoted texts. `none` in front of anything
else. -/
def scalar? (cs : List Char) : Option (Except Fault (Outcome Value)) :=
  match cs with
  | 'n' :: rest => some ((word "ull".toList rest).map fun rest => (.null, rest))
  | 't' :: rest => some ((word "rue".toList rest).map fun rest => (.bool true, rest))
  | 'f' :: rest => some ((word "alse".toList rest).map fun rest => (.bool false, rest))
  | '"' :: rest => some ((quoted rest).map fun (s, rest) => (.string s, rest))
  | '-' :: rest => some (number true rest)
  | c :: rest => if Number.isDigit c then some (number false (c :: rest)) else none
  | [] => none

mutual

/-- Reads a value. The fuel bounds the calls and the depth the nesting. -/
def value : Nat → Nat → List Char → Except Fault (Outcome Value)
  | 0, _, cs => failAt .tooDeep cs
  | fuel + 1, depth, cs =>
    match skipSpace cs with
    | [] => failAt .endInValue []
    | c :: rest =>
      if c = '[' then
        if depth ≤ 1 then failAt .tooDeep (c :: rest)
        else items fuel (depth - 1) true [] rest
      else if c = '\x7b' then
        if depth ≤ 1 then failAt .tooDeep (c :: rest)
        else members fuel (depth - 1) true [] rest
      else
        match scalar? (c :: rest) with
        | some result => result
        | none => failAt .expectedValue (c :: rest)

/-- Reads the items of a list from one of them on; `done` holds the earlier ones, reversed. -/
def items : Nat → Nat → Bool → List Value → List Char → Except Fault (Outcome Value)
  | 0, _, _, _, cs => failAt .tooDeep cs
  | fuel + 1, depth, first, done, cs => do
    match ← nextItem first cs with
    | none =>
      let rest ← endList cs
      pure (.array done.reverse, rest)
    | some item =>
      let (v, rest) ← value fuel depth item
      items fuel depth false (v :: done) rest

/-- Reads the members of an object from one of them on. -/
def members : Nat → Nat → Bool → List (String × Value) → List Char → Except Fault (Outcome Value)
  | 0, _, _, _, cs => failAt .tooDeep cs
  | fuel + 1, depth, first, done, cs => do
    match ← nextMember first cs with
    | none => pure (.object done, afterObject cs)
    | some name =>
      let (name, rest) ← quoted name
      let rest ← colon rest
      let (v, rest) ← value fuel depth rest
      members fuel depth false (insertMember name v done) rest

end

/-- Fuel that no reading of the input uses up: each call but two in a row takes in a character. -/
def fuelFor (cs : List Char) : Nat :=
  2 * cs.length + 2

/-- The brackets that are open while a value is passed over. -/
inductive Frame where
  | list
  | object
  deriving DecidableEq

mutual

/-- Passes a value inside the open brackets, and all that follows up to the last of them. -/
def passValue : Nat → List Frame → List Char → Except Fault (List Char)
  | 0, _, cs => failAt .tooDeep cs
  | fuel + 1, stack, cs =>
    match skipSpace cs with
    | [] => failAt .endInValue []
    | c :: rest => do
      if c = '[' then passRest fuel false (.list :: stack) rest
      else if c = '\x7b' then passRest fuel false (.object :: stack) rest
      else if c = 'n' then passRest fuel true stack (← word "ull".toList rest)
      else if c = 't' then passRest fuel true stack (← word "rue".toList rest)
      else if c = 'f' then passRest fuel true stack (← word "alse".toList rest)
      else if c = '"' then passRest fuel true stack (← passQuoted rest)
      else if c = '-' then passRest fuel true stack (← passNumber rest)
      else if Number.isDigit c then passRest fuel true stack (← passNumber (c :: rest))
      else failAt .expectedValue (c :: rest)

/-- Passes what follows a value or an opening bracket; a comma is in order after a value only. -/
def passRest : Nat → Bool → List Frame → List Char → Except Fault (List Char)
  | 0, _, _, cs => failAt .tooDeep cs
  | _ + 1, _, [], cs => .ok cs
  | fuel + 1, afterValue, frame :: stack, cs =>
    match skipSpace cs with
    | [] => failAt (match frame with | .list => .endInList | .object => .endInObject) []
    | c :: rest =>
      if c = ',' ∧ afterValue then passEntry fuel (frame :: stack) rest
      else if (c = ']' ∧ frame = .list) ∨ (c = '\x7d' ∧ frame = .object) then
        passRest fuel true stack rest
      else if afterValue then
        failAt (match frame with
          | .list => .expectedListCommaOrEnd
          | .object => .expectedObjectCommaOrEnd) (c :: rest)
      else passEntry fuel (frame :: stack) (c :: rest)

/-- Passes the name of a member, if an object is open, and then its value. -/
def passEntry : Nat → List Frame → List Char → Except Fault (List Char)
  | 0, _, cs => failAt .tooDeep cs
  | fuel + 1, stack, cs =>
    if stack.head? = some .object then
      match skipSpace cs with
      | [] => failAt .endInObject []
      | c :: rest => do
        if c = '"' then
          let rest ← passQuoted rest
          let rest ← colon rest
          passValue fuel stack rest
        else failAt .keyNotString (c :: rest)
    else passValue fuel stack cs

end

def pass (cs : List Char) : Except Fault (List Char) :=
  passValue (4 * cs.length + 4) [] cs

/-- Reads a whole text with a reader that leaves its rest; nothing but blanks may be left. -/
def readWhole {α : Type} (read : List Char → Except Fault (Outcome α)) (cs : List Char) :
    Except Error α :=
  match read cs with
  | .error f => .error (f.locate cs)
  | .ok (v, rest) =>
    match skipSpace rest with
    | [] => .ok v
    | rest => .error ((⟨.trailingCharacters, rest, 1⟩ : Fault).locate cs)

def parse (text : String) : Except Error Value :=
  let cs := text.toList
  readWhole (value (fuelFor cs) depthLimit) cs

end TracePlot.Json
