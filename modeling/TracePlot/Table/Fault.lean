import TracePlot.Number.Literal
import TracePlot.Resource.IdSet
import TracePlot.Table.Record

/-! What can be wrong with a table. -/

namespace TracePlot.Table

/-- Why a cell is not the number it should be. -/
inductive NumberFault where
  | emptyFloat
  | invalidFloat
  | integer (fault : Number.IntegerFault)
  deriving Repr, DecidableEq

def NumberFault.message : NumberFault → String
  | .emptyFloat => "cannot parse float from empty string"
  | .invalidFloat => "invalid float literal"
  | .integer fault => fault.message

inductive RowFault where
  | length (found expected : Nat)
  /-- A cell is not UTF-8 from byte `index` on. -/
  | notText (cell index : Nat)
  | number (cell : Nat) (fault : NumberFault)
  | resources (fault : Resource.IdSet.Fault)
  | flag (text : String)
  | duplicate (column : String)
  deriving Repr, DecidableEq

inductive Fault where
  | missingColumn (column : String)
  /-- A cell of the header is not UTF-8 from byte `index` on. -/
  | headerNotText (place : Place) (cell index : Nat)
  /-- The first row that does not read, counted from zero. -/
  | row (index : Nat) (place : Place) (fault : RowFault)
  deriving Repr, DecidableEq

def Place.text (p : Place) : String :=
  "record " ++ toString p.record ++ " (line: " ++ toString p.line ++ ", byte: " ++
    toString p.byte ++ ")"

def notTextMessage (p : Place) (cell index : Nat) : String :=
  "CSV parse error: record " ++ toString p.record ++ " (line " ++ toString p.line ++
    ", field: " ++ toString cell ++ ", byte: " ++ toString p.byte ++
    "): invalid utf-8: invalid UTF-8 in field " ++ toString cell ++ " near byte index " ++
    toString index

def RowFault.message (p : Place) : RowFault → String
  | .length found expected =>
    "CSV error: " ++ p.text ++ ": found record with " ++ toString found ++
      " fields, but the previous record has " ++ toString expected ++ " fields"
  | .notText cell index => notTextMessage p cell index
  | .number cell fault =>
    "CSV deserialize error: " ++ p.text ++ ": field " ++ toString cell ++ ": " ++ fault.message
  | .resources fault => "CSV deserialize error: " ++ p.text ++ ": " ++ fault.message
  | .flag text => "CSV deserialize error: " ++ p.text ++ ": invalid flag '" ++ text ++ "'"
  | .duplicate column =>
    "CSV deserialize error: " ++ p.text ++ ": duplicate field \x60" ++ column ++ "\x60"

/-- The message of a fault; rows count from two, after the header. -/
def Fault.message : Fault → String
  | .missingColumn column => "missing column '" ++ column ++ "'"
  | .headerNotText place cell index => notTextMessage place cell index
  | .row index place fault => "line " ++ toString (index + 2) ++ ": " ++ fault.message place

end TracePlot.Table
