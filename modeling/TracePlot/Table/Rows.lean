import TracePlot.Table.Column
import TracePlot.Text.Utf8

/-! Tables as rows. The header names the columns in any order, and columns that the rows do not
know are passed over. -/

namespace TracePlot.Table

def isAsciiBlank (b : UInt8) : Bool :=
  b = 0x20 || b = 0x09 || b = 0x0A || b = 0x0C || b = 0x0D

def trimBytes (bytes : List UInt8) : List UInt8 :=
  (((bytes.dropWhile isAsciiBlank).reverse).dropWhile isAsciiBlank).reverse

/-- The trimmed texts of cells from number `cell` on, or the cell and byte that are not UTF-8. -/
def cellTexts (cell : Nat) : List (List UInt8) → Except (Nat × Nat) (List String)
  | [] => .ok []
  | bytes :: rest =>
    match Text.Utf8.decode bytes with
    | .error index => .error (cell, index)
    | .ok cs => (cellTexts (cell + 1) rest).map (String.ofList (Text.trimChars cs) :: ·)

variable {ρ : Type}

/-- Reads cells by the columns that bear their names, from number `cell` on. -/
def readCells (columns : List (Column ρ)) (seen : List String) (cell : Nat) (row : ρ) :
    List (String × String) → Except RowFault ρ
  | [] => .ok row
  | (name, text) :: rest =>
    match columns.find? fun c => c.name = name with
    | none => readCells columns seen (cell + 1) row rest
    | some column =>
      if seen.contains name then .error (.duplicate name)
      else
        match column.read cell text with
        | .error fault => .error fault
        | .ok change => readCells columns (name :: seen) (cell + 1) (change row) rest

/-- Reads a record under a header, starting from a blank row. -/
def readRow (columns : List (Column ρ)) (blank : ρ) (header : List String) (r : Record) :
    Except RowFault ρ :=
  if r.cells.length ≠ header.length then .error (.length r.cells.length header.length)
  else
    match cellTexts 0 (r.cells.map trimBytes) with
    | .error (cell, index) => .error (.notText cell index)
    | .ok texts => readCells columns [] 0 blank (header.zip texts)

/-- Reads rows from number `index` on up to the first fault. -/
def readRows (columns : List (Column ρ)) (blank : ρ) (header : List String) (index : Nat) :
    List Record → Except Fault (List ρ)
  | [] => .ok []
  | r :: rest =>
    match readRow columns blank header r with
    | .error fault => .error (.row index r.place fault)
    | .ok row => (readRows columns blank header (index + 1) rest).map (row :: ·)

/-- The names of the columns and the records under them. -/
def readHeader : List Record → Except Fault (List String × List Record)
  | [] => .ok ([], [])
  | h :: rest =>
    match cellTexts 0 h.cells with
    | .error (cell, index) => .error (.headerNotText h.place cell index)
    | .ok header => .ok (header, rest)

/-- Reads a table whose header holds all required columns. -/
def readTable (columns : List (Column ρ)) (blank : ρ) (required : List String)
    (bytes : List UInt8) : Except Fault (List ρ) := do
  let (header, rest) ← readHeader (records bytes)
  match required.find? fun name => !header.contains name with
  | some name => .error (.missingColumn name)
  | none => readRows columns blank header 0 rest

end TracePlot.Table
