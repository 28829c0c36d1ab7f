import TracePlot.Number.Format
import TracePlot.Text.Quoted
import TracePlot.Text.Utf8

/-! What can be wrong with a JSON text, and where. A fault found while reading names the input
left at that moment; against the whole text that becomes a line and a column. -/

namespace TracePlot.Json

inductive Found where
  | null
  | bool (b : Bool)
  | integer (n : Int)
  | float (x : Float)
  | string (s : String)
  | sequence
  | map

def Found.text : Found → String
  | .null => "null"
  | .bool b => if b then "boolean \x60true\x60" else "boolean \x60false\x60"
  | .integer n => "integer \x60" ++ toString n ++ "\x60"
  | .float x => "floating point \x60" ++ Number.Layout.json.text x ++ "\x60"
  | .string s => "string " ++ Text.quoted s.toList
  | .sequence => "sequence"
  | .map => "map"

inductive Cause where
  | endInList
  | endInObject
  | endInString
  | endInValue
  | expectedColon
  | expectedListCommaOrEnd
  | expectedObjectCommaOrEnd
  | expectedIdent
  | expectedValue
  | invalidEscape
  | invalidNumber
  | numberOutOfRange
  | controlCharacter
  | keyNotString
  | loneSurrogate
  | endInHexEscape
  | trailingComma
  | trailingCharacters
  | tooDeep
  | invalidType (found : Found) (expected : String)
  | invalidLength (length : Nat) (expected : String)
  | missingField (name : String)
  | duplicateField (name : String)

def Cause.message : Cause → String
  | .endInList => "EOF while parsing a list"
  | .endInObject => "EOF while parsing an object"
  | .endInString => "EOF while parsing a string"
  | .endInValue => "EOF while parsing a value"
  | .expectedColon => "expected \x60:\x60"
  | .expectedListCommaOrEnd => "expected \x60,\x60 or \x60]\x60"
  | .expectedObjectCommaOrEnd => "expected \x60,\x60 or \x60\x7d\x60"
  | .expectedIdent => "expected ident"
  | .expectedValue => "expected value"
  | .invalidEscape => "invalid escape"
  | .invalidNumber => "invalid number"
  | .numberOutOfRange => "number out of range"
  | .controlCharacter => "control character (\\u0000-\\u001F) found while parsing a string"
  | .keyNotString => "key must be a string"
  | .loneSurrogate => "lone leading surrogate in hex escape"
  | .endInHexEscape => "unexpected end of hex escape"
  | .trailingComma => "trailing comma"
  | .trailingCharacters => "trailing characters"
  | .tooDeep => "recursion limit exceeded"
  | .invalidType found expected => "invalid type: " ++ found.text ++ ", expected " ++ expected
  | .invalidLength length expected =>
    "invalid length " ++ toString length ++ ", expected " ++ expected
  | .missingField name => "missing field \x60" ++ name ++ "\x60"
  | .duplicateField name => "duplicate field \x60" ++ name ++ "\x60"

/-- A fault in mid reading: its place is `ahead` bytes into what is left of the input. -/
structure Fault where
  cause : Cause
  rest : List Char
  ahead : Nat

/-- The outcome of reading from the front of some input: a value and what is left. -/
abbrev Outcome (α : Type) := α × List Char

/-- A fault at the next character that has not been looked at. -/
def fail {α : Type} (cause : Cause) (rest : List Char) : Except Fault α :=
  .error ⟨cause, rest, 0⟩

/-- A fault at the first character of `rest`, which counts as passed. -/
def failAt {α : Type} (cause : Cause) (rest : List Char) : Except Fault α :=
  .error ⟨cause, rest, 1⟩

/-- A place in a text: lines count from one, and columns are bytes of the line so far. -/
structure Place where
  line : Nat
  column : Nat
  deriving Repr, DecidableEq

/-- The place reached after `bytes` bytes, counted on from a given place. -/
def Place.advance (place : Place) : Nat → List Char → Place
  | bytes, c :: rest =>
    if c.utf8Size ≤ bytes then
      Place.advance
        (if c = '\n' then ⟨place.line + 1, 0⟩ else ⟨place.line, place.column + c.utf8Size⟩)
        (bytes - c.utf8Size) rest
    else ⟨place.line, place.column + bytes⟩
  | _, [] => place

/-- A fault with its place; faults of a document that is already read have none. -/
structure Error where
  cause : Cause
  place : Option Place

def Error.message (e : Error) : String :=
  match e.place with
  | none => e.cause.message
  | some p =>
    e.cause.message ++ " at line " ++ toString p.line ++ " column " ++ toString p.column

/-- Where a fault lies in the whole text. -/
def Fault.locate (f : Fault) (whole : List Char) : Error :=
  let size := Text.Utf8.size whole
  let offset := min size (size - Text.Utf8.size f.rest + f.ahead)
  ⟨f.cause, some ((⟨1, 0⟩ : Place).advance offset whole)⟩

end TracePlot.Json
