import TracePlot.Json.Reader

/-! Records read from JSON. A record is written as an object, whose other members are passed
over, or as a list of its fields in order. -/

namespace TracePlot.Json

/-- A field of a record `σ`: reading it gives the change it makes to the record. -/
structure Field (σ : Type) where
  name : String
  /-- Whether the record cannot do without it. -/
  required : Bool
  /-- Reads the field with the given nesting left. -/
  read : Nat → List Char → Except Fault (Outcome (σ → σ))

structure Shape (σ : Type) where
  /-- What faults call the record. -/
  title : String
  blank : σ
  fields : List (Field σ)

/-- How faults name a record of the wrong length. -/
def Shape.sizeText {σ : Type} (shape : Shape σ) : String :=
  let n := shape.fields.length
  shape.title ++ " with " ++ toString n ++ (if n = 1 then " element" else " elements")

/-- Reads past a value of some other kind to say what was found. -/
def wrongType {α : Type} (expected : String) (cs : List Char) : Except Fault (Outcome α) :=
  match cs with
  | '[' :: _ => fail (.invalidType .sequence expected) cs
  | '\x7b' :: _ => fail (.invalidType .map expected) cs
  | cs =>
    match scalar? cs with
    | none => failAt .expectedValue cs
    | some (.error f) => .error f
    | some (.ok (v, rest)) =>
      let found : Found := match v with
        | .bool b => .bool b
        | .integer n => .integer n
        | .float x => .float x
        | .string s => .string s
        | _ => .null
      fail (.invalidType found expected) rest

namespace Shape

variable {σ : Type}

/-- The fields of a record written as a list, from number `index` on. -/
def readItems (shape : Shape σ) (depth : Nat) :
    Nat → List (Field σ) → σ → List Char → Except Fault (Outcome σ)
  | _, [], s, cs => (endList cs).map fun rest => (s, rest)
  | index, f :: fs, s, cs => do
    match ← nextItem (index = 0) cs with
    | none =>
      if f.required then fail (.invalidLength index shape.sizeText) (afterList cs)
      else readItems shape depth (index + 1) fs s cs
    | some item =>
      let (change, rest) ← f.read depth item
      readItems shape depth (index + 1) fs (change s) rest

/-- The first required field that has not been seen. -/
def missing? (shape : Shape σ) (seen : List String) : Option String :=
  (shape.fields.find? fun f => f.required && !seen.contains f.name).map (·.name)

/-- The members of a record written as an object. -/
def readMembers (shape : Shape σ) (depth : Nat) :
    Nat → Bool → List String → σ → List Char → Except Fault (Outcome σ)
  | 0, _, _, _, cs => failAt .tooDeep cs
  | fuel + 1, first, seen, s, cs => do
    match ← nextMember first cs with
    | none =>
      match shape.missing? seen with
      | some name => fail (.missingField name) (afterObject cs)
      | none => pure (s, afterObject cs)
    | some name =>
      let (name, rest) ← quoted name
      match shape.fields.find? fun f => f.name = name with
      | some f =>
        if seen.contains name then fail (.duplicateField name) (afterObject rest)
        else
          let rest ← colon rest
          let (change, rest) ← f.read depth rest
          readMembers shape depth fuel false (name :: seen) (change s) rest
      | none =>
        let rest ← colon rest
        let rest ← pass rest
        readMembers shape depth fuel false seen s rest

def read (shape : Shape σ) (depth : Nat) (cs : List Char) : Except Fault (Outcome σ) :=
  match skipSpace cs with
  | [] => failAt .endInValue []
  | '[' :: rest =>
    if depth ≤ 1 then failAt .tooDeep ('[' :: rest)
    else shape.readItems (depth - 1) 0 shape.fields shape.blank rest
  | '\x7b' :: rest =>
    if depth ≤ 1 then failAt .tooDeep ('\x7b' :: rest)
    else shape.readMembers (depth - 1) (rest.length + 1) true [] shape.blank rest
  | cs => wrongType shape.title cs

end Shape

/-- The items of a list from one of them on; `done` holds the earlier ones, reversed. -/
def readListItems {α : Type} (read : List Char → Except Fault (Outcome α)) :
    Nat → Bool → List α → List Char → Except Fault (Outcome (List α))
  | 0, _, _, cs => failAt .tooDeep cs
  | fuel + 1, first, done, cs => do
    match ← nextItem first cs with
    | none => (endList cs).map fun rest => (done.reverse, rest)
    | some item =>
      let (v, rest) ← read item
      readListItems read fuel false (v :: done) rest

/-- Reads a list whose items are read with one level of nesting less. -/
def readList {α : Type} (read : Nat → List Char → Except Fault (Outcome α)) (depth : Nat)
    (cs : List Char) :
    Except Fault (Outcome (List α)) :=
  match skipSpace cs with
  | [] => failAt .endInValue []
  | '[' :: rest =>
    if depth ≤ 1 then failAt .tooDeep ('[' :: rest)
    else readListItems (read (depth - 1)) (rest.length + 1) true [] rest
  | cs => wrongType "a sequence" cs

def readValue (depth : Nat) (cs : List Char) : Except Fault (Outcome Value) :=
  value (fuelFor cs) depth cs

def readOptional (depth : Nat) (cs : List Char) : Except Fault (Outcome (Option Value)) :=
  match skipSpace cs with
  | 'n' :: rest => (word "ull".toList rest).map fun rest => (none, rest)
  | cs => (readValue depth cs).map fun (v, rest) => (some v, rest)

end TracePlot.Json
