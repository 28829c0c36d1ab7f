import TracePlot.Json.Value
import TracePlot.Number.Format

/-! The compact text of a JSON document. -/

namespace TracePlot.Json

def hexDigit (n : Nat) : Char :=
  Nat.digitChar (n % 16)

/-- The characters that stand for `c` inside a quoted text. -/
def escape (c : Char) : List Char :=
  if c = '"' then ['\\', '"']
  else if c = '\\' then ['\\', '\\']
  else if c = '\n' then ['\\', 'n']
  else if c = '\r' then ['\\', 'r']
  else if c = '\t' then ['\\', 't']
  else if c = '\x08' then ['\\', 'b']
  else if c = '\x0c' then ['\\', 'f']
  else if c.toNat < 0x20 then
    ['\\', 'u', '0', '0', hexDigit (c.toNat / 16), hexDigit c.toNat]
  else [c]

def stringText (s : String) : String :=
  "\"" ++ String.ofList (s.toList.flatMap escape) ++ "\""

/-- A float as JSON has it, which knows no infinities. -/
def floatText (x : Float) : String :=
  if x.isFinite then Number.Layout.json.text x else "null"

mutual

def Value.text : Value → String
  | .null => "null"
  | .bool b => if b then "true" else "false"
  | .integer n => toString n
  | .float x => floatText x
  | .string s => stringText s
  | .array [] => "[]"
  | .array (v :: rest) => "[" ++ v.text ++ itemsText rest ++ "]"
  | .object [] => "\x7b\x7d"
  | .object ((name, v) :: rest) =>
    "\x7b" ++ stringText name ++ ":" ++ v.text ++ membersText rest ++ "\x7d"

/-- The items after the first, each behind a comma. -/
def itemsText : List Value → String
  | [] => ""
  | v :: rest => "," ++ v.text ++ itemsText rest

/-- The members after the first, each behind a comma. -/
def membersText : List (String × Value) → String
  | [] => ""
  | (name, v) :: rest => "," ++ stringText name ++ ":" ++ v.text ++ membersText rest

end

end TracePlot.Json
