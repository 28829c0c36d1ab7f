import TracePlot.Text.Width

/-! Rows of terminal cells, and grids of rows that are put together beside and below each other.
Lengths on a screen have 16 bits. -/

namespace TracePlot.Screen

def word16 (n : Nat) : Nat :=
  n % 0x10000

/-- A row of cells. A symbol of two cells leaves the second of them blank. -/
abbrev Row := List String

abbrev Grid := List Row

def blank : String := " "

namespace Row

/-- The symbols of a text, each with its width: a character and the marks that join it. Control
characters have none. -/
def symbols : List Char → List (String × Nat)
  | [] => []
  | c :: rest =>
    if Text.isControl c || Text.isJoining c then symbols rest
    else
      let marks := rest.takeWhile Text.isJoining
      (String.ofList (c :: marks), if Text.isWide c then 2 else 1) :: symbols rest

/-- The cells of the symbols that fit into `width` of them. -/
def fit (width : Nat) : List (String × Nat) → Row
  | [] => []
  | (symbol, cells) :: rest =>
    if cells ≤ width then
      symbol :: (List.replicate (cells - 1) blank ++ fit (width - cells) rest)
    else []

def ofText (width : Nat) (s : String) : Row :=
  fit width (symbols s.toList)

def pad (width : Nat) (fill : String) (row : Row) : Row :=
  row ++ List.replicate (width - row.length) fill

/-- The row as text, without the blanks at its end. -/
def text (row : Row) : String :=
  String.join ((row.reverse.dropWhile (· = blank)).reverse)

end Row

namespace Grid

def blankRows (width height : Nat) : Grid :=
  List.replicate height (List.replicate width blank)

def beside (left right : Grid) : Grid :=
  List.zipWith (· ++ ·) left right

/-- A border around a grid two cells smaller on both axes, with a title in its upper edge. -/
def framed (width height : Nat) (title : String) (content : Grid) : Grid :=
  let enclose (left fill right : String) (row : Row) : Row :=
    (left :: (row.pad (width - 2) fill ++ [right])).take width
  let top := enclose "┌" "─" "┐" (Row.ofText (width - 2) (blank ++ title ++ blank))
  (top :: (content.map (enclose "│" blank "│") ++ [enclose "└" "─" "┘" []])).take height

def lines (g : Grid) : List String :=
  g.map Row.text

end Grid

end TracePlot.Screen
