import TracePlot.Histogram.Bins
import TracePlot.Number.Format
import TracePlot.Screen.Cells

/-! Histograms on a screen: a bar for each bin, one column apart. -/

namespace TracePlot.Screen.Bars

structure Bar where
  label : String
  value : Nat
  deriving Repr, DecidableEq, Inhabited

def ofHistogram (h : Histogram) : List Bar :=
  h.bins.map fun ((lower, _), count) => ⟨Number.oneDecimal lower, count⟩

/-- The width that lets all bars fit, but at least one column. -/
def barWidth (columns count : Nat) : Nat :=
  max ((columns - 2) / word16 (max count 1) - 1) 1

/-- How many of `count` bars fit into `columns` columns. -/
def fitting (columns width count : Nat) : Nat :=
  if count * width + (count - 1) < columns then count else (columns + 1) / (width + 1)

/-- A cell filled up to some eighths of its height. -/
def fill (eighths : Nat) : String :=
  [blank, "▁", "▂", "▃", "▄", "▅", "▆", "▇"].getD eighths "█"

/-- The eighths of a cell that a bar fills when the largest value fills `rows` cells. -/
def eighths (value maximum rows : Nat) : Nat :=
  value * rows * 8 / max maximum 1

/-- Puts a text into the middle of a row, cut to its length. -/
def centred (row : Row) (s : String) : Row :=
  let text := Row.ofText row.length s
  let before := (row.length - text.length) / 2
  row.take before ++ text ++ row.drop (before + text.length)

/-- A value is shown where it leaves room, or fills the width of a bar at least one cell high. -/
def showsValue (width value eighths : Nat) : Bool :=
  let length := (toString value).length
  value ≠ 0 && (length < width || (length = width && 8 ≤ eighths))

/-- The cells of a bar from its top to its foot. -/
def barRows (width rows maximum : Nat) (b : Bar) : Grid :=
  let filled := eighths b.value maximum rows
  (List.range rows).reverse.map fun i =>
    let cells := List.replicate width (fill (filled - 8 * i))
    if i = 0 && showsValue width b.value filled then centred cells (toString b.value) else cells

def labelRow (width : Nat) (b : Bar) : Row :=
  centred (List.replicate width blank) b.label

/-- The columns of a bar: its cells, below them the label if there is a second row, and on the
right a gap. -/
def barGrid (width rows maximum : Nat) (b : Bar) : Grid :=
  let labels := if 2 ≤ rows then [labelRow width b] else []
  (barRows width (rows - labels.length) maximum b ++ labels).map (· ++ [blank])

def grid (bars : List Bar) (columns rows width : Nat) : Grid :=
  let maximum := (bars.map (·.value)).foldl max 0
  let shown := bars.take (fitting columns width bars.length)
  let empty : Grid := List.replicate rows []
  (shown.foldl (fun g b => g.beside (barGrid width rows maximum b)) empty).map fun row =>
    (row.pad columns blank).take columns

def framed (h : Histogram) (columns rows : Nat) : Grid :=
  let bars := ofHistogram h
  Grid.framed columns rows Histogram.title
    (grid bars (columns - 2) (rows - 2) (barWidth columns bars.length))

end TracePlot.Screen.Bars
