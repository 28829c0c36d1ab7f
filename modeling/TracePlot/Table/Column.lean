import TracePlot.Table.Fault

/-! The columns that a kind of row is read from. -/

namespace TracePlot.Table

/-- A column of rows `ρ`: reading a cell, given its number and its text, changes the row. -/
structure Column (ρ : Type) where
  name : String
  read : Nat → String → Except RowFault (ρ → ρ)

/-- The word of a number, which has the sign of a NaN too. -/
def readWord (cell : Nat) (text : String) : Except RowFault UInt64 :=
  match Number.word? text with
  | some w => .ok w
  | none => .error (.number cell (if text.isEmpty then .emptyFloat else .invalidFloat))

def readNumber (cell : Nat) (text : String) : Except RowFault Float :=
  (readWord cell text).map Float.ofBits

/-- An empty cell holds no number. -/
def readOptional (cell : Nat) (text : String) : Except RowFault (Option Float) :=
  if text.isEmpty then .ok none else (readNumber cell text).map some

/-- A number or a truth value in any case, which counts as one or zero. -/
def readFlag (text : String) : Except RowFault (Option Float) :=
  let word := Number.asciiLower text.toList
  if word.isEmpty then .ok none
  else if word = "true".toList then .ok (some 1.0)
  else if word = "false".toList then .ok (some 0.0)
  else
    match Number.float? text with
    | some x => .ok (some x)
    | none => .error (.flag text)

namespace Column

variable {ρ : Type}

def text (name : String) (set : String → ρ → ρ) : Column ρ :=
  ⟨name, fun _ text => .ok (set text)⟩

def word (name : String) (set : UInt64 → ρ → ρ) : Column ρ :=
  ⟨name, fun cell text => (readWord cell text).map set⟩

def number (name : String) (set : Float → ρ → ρ) : Column ρ :=
  ⟨name, fun cell text => (readNumber cell text).map set⟩

def optional (name : String) (set : Option Float → ρ → ρ) : Column ρ :=
  ⟨name, fun cell text => (readOptional cell text).map set⟩

def flag (name : String) (set : Option Float → ρ → ρ) : Column ρ :=
  ⟨name, fun _ text => (readFlag text).map set⟩

def integer (name : String) (set : Int → ρ → ρ) : Column ρ :=
  ⟨name, fun cell text =>
    ((Number.int32 text).mapError fun f => .number cell (.integer f)).map set⟩

def resources (name : String) (set : Resource.IdSet → ρ → ρ) : Column ρ :=
  ⟨name, fun _ text => ((Resource.IdSet.parse text).mapError .resources).map set⟩

end Column

end TracePlot.Table
