/-! Comma separated records. Cells may be quoted, a quote inside quotes is written twice, and
quoted cells may hold commas and line ends. A record ends at a line feed or a carriage return,
and empty lines between records are passed over. -/

namespace TracePlot.Table

/-- Where the reader stands: records before, lines begun and bytes taken in. -/
structure Place where
  record : Nat := 0
  line : Nat := 1
  byte : Nat := 0
  deriving Repr, DecidableEq, Inhabited

/-- A record with the place at which the one before it ended. -/
structure Record where
  place : Place
  cells : List (List UInt8)
  deriving Repr, DecidableEq, Inhabited

/-- Where in a record the reader is. -/
inductive Mode where
  /-- In front of a record. -/
  | between
  /-- At the start of a cell that follows a comma. -/
  | cell
  | plain
  | quoted
  /-- Behind a quote inside a quoted cell. -/
  | closing
  deriving Repr, DecidableEq

/-- A reader in mid record: finished cells and the current one are reversed. -/
structure Cursor where
  mode : Mode := .between
  /-- Where the record began. -/
  start : Place := {}
  here : Place := {}
  cells : List (List UInt8) := []
  cell : List UInt8 := []

def comma : UInt8 := 0x2C
def quote : UInt8 := 0x22
def newline : UInt8 := 0x0A
def carriageReturn : UInt8 := 0x0D

def isRecordEnd (b : UInt8) : Bool :=
  b = newline || b = carriageReturn

namespace Cursor

def pass (c : Cursor) (b : UInt8) : Cursor :=
  { c with here := { c.here with
      byte := c.here.byte + 1
      line := if b = newline then c.here.line + 1 else c.here.line } }

def endCell (c : Cursor) : Cursor :=
  { c with mode := .cell, cells := c.cell.reverse :: c.cells, cell := [] }

def record (c : Cursor) : Record :=
  ⟨c.start, (c.cell.reverse :: c.cells).reverse⟩

/-- The cursor after its record has ended at the current place. -/
def next (c : Cursor) : Cursor :=
  let place := { c.here with record := c.here.record + 1 }
  { start := place, here := place }

def add (c : Cursor) (mode : Mode) (b : UInt8) : Cursor :=
  { c with mode, cell := b :: c.cell }

/-- Takes in one byte, which may end a record. -/
def step (c : Cursor) (b : UInt8) : Option Record × Cursor :=
  let c := c.pass b
  let ended : Option Record × Cursor := (some c.record, c.next)
  let unquoted : Option Record × Cursor :=
    if b = comma then (none, c.endCell)
    else if isRecordEnd b then ended
    else (none, c.add .plain b)
  match c.mode with
  | .between => if isRecordEnd b then (none, c) else
      if b = quote then (none, { c with mode := .quoted }) else unquoted
  | .cell => if b = quote then (none, { c with mode := .quoted }) else unquoted
  | .plain => unquoted
  | .quoted => (none, if b = quote then { c with mode := .closing } else c.add .quoted b)
  | .closing => if b = quote then (none, c.add .quoted b) else unquoted

end Cursor

def recordsFrom (c : Cursor) : List UInt8 → List Record
  | [] => if c.mode = .between then [] else [c.record]
  | b :: rest =>
    match c.step b with
    | (some r, c) => r :: recordsFrom c rest
    | (none, c) => recordsFrom c rest

/-- The records of a file. A byte order mark at its front counts as bytes and is otherwise
dropped. -/
def records : List UInt8 → List Record
  | 0xEF :: 0xBB :: 0xBF :: rest => recordsFrom { here := { byte := 3 } } rest
  | bytes => recordsFrom {} bytes

end TracePlot.Table
