import TracePlot.Text.Blank

/-! Texts as lines, and texts of a fixed width. -/

namespace TracePlot.Text

/-- A line without the carriage return at its end; the line is given reversed. -/
def endLine : List Char → List Char
  | '\r' :: rest => rest.reverse
  | line => line.reverse

/-- The parts ended by line feeds, and what follows the last of them when it is not empty. -/
def splitLines (line : List Char) : List Char → List (List Char)
  | [] => if line.isEmpty then [] else [line.reverse]
  | '\n' :: rest => endLine line :: splitLines [] rest
  | c :: rest => splitLines (c :: line) rest

def lines (cs : List Char) : List (List Char) :=
  splitLines [] cs

def padRight (width : Nat) (s : String) : String :=
  s ++ String.ofList (List.replicate (width - s.length) ' ')

def repeated (n : Nat) (s : String) : String :=
  String.join (List.replicate n s)

end TracePlot.Text
