import TracePlot.Drawing.Shape
import TracePlot.Drawing.Ticks

/-! Charts: the parts of a drawing area that hold the title, the axis titles and the plot, and
where values lie in the plot. Pixels are whole numbers of 32 bits. -/

namespace TracePlot.Drawing

/-- A rectangle of pixels; the upper ends are outside. -/
structure Area where
  x0 : Int
  y0 : Int
  x1 : Int
  y1 : Int
  deriving Repr, DecidableEq, Inhabited

def word32 (n : Int) : Int :=
  n.bmod 0x100000000

namespace Area

def width (a : Area) : Int := a.x1 - a.x0
def height (a : Area) : Int := a.y1 - a.y0

def shrink (a : Area) (top bottom left right : Int) : Area :=
  ⟨a.x0 + left, a.y0 + top, a.x1 - right, a.y1 - bottom⟩

def nearest (a : Area) (p : Pixel) : Pixel :=
  (max (min p.1 a.x1) a.x0, max (min p.2 a.y1) a.y0)

/-- The pixel at an offset from the upper left corner. -/
def offset (a : Area) (p : Pixel) : Pixel :=
  a.nearest (a.x0 + p.1, a.y0 + p.2)

/-- Where part number `i` of `n` starts; the first parts are a pixel larger than the others. -/
def partStart (a : Area) (n i : Nat) : Int :=
  if i = n then a.y1
  else
    let size := (a.height % 0x10000000000000000).toNat
    a.y0 + word32 (size / n * i + min i (size % n) : Nat)

def rows (a : Area) (n : Nat) : List Area :=
  (List.range n).map fun i => ⟨a.x0, a.partStart n i, a.x1, a.partStart n (i + 1)⟩

end Area

/-- What a chart is made of besides its data. -/
structure Chart where
  title : String
  titleSize : Nat
  titleHeight : Nat
  margin : Nat
  xLabels : Nat
  yLabels : Nat
  xTitle : String
  yTitle : Option String
  xRange : Float × Float
  yRange : Float × Float

namespace Chart

def inner (c : Chart) (a : Area) : Area :=
  a.shrink c.margin c.margin c.margin c.margin

/-- What is left of the inner area under the title. -/
def body (c : Chart) (a : Area) : Area :=
  let i := c.inner a
  { i with y0 := i.y0 + 10 + c.titleHeight }

/-- Borders in ascending order, as parts that do not fit change places. -/
def inOrder (borders : List Int) : List Int :=
  borders.mergeSort

/-- The vertical borders of label area, plot and right side. -/
def columns (c : Chart) (a : Area) : List Int :=
  let b := c.body a
  inOrder [b.x0, b.x1, b.x0 + c.yLabels, b.x1]

/-- The horizontal borders of upper side, plot and label area. -/
def lines (c : Chart) (a : Area) : List Int :=
  let b := c.body a
  inOrder [b.y0, b.y1, b.y0, b.y1 - c.xLabels]

def cell (c : Chart) (a : Area) (column line : Nat) : Area :=
  let x (i : Nat) := (c.columns a).getD i 0
  let y (i : Nat) := (c.lines a).getD i 0
  ⟨x column, y line, x (column + 1), y (line + 1)⟩

def plot (c : Chart) (a : Area) : Area := c.cell a 1 1
def leftLabels (c : Chart) (a : Area) : Area := c.cell a 0 1
def lowerLabels (c : Chart) (a : Area) : Area := c.cell a 1 2

/-- Where a value lies between the pixels `first` and `last`, which stand for the ends of the
range. A range without length has its middle there. -/
def place (range : Float × Float) (first last : Int) (v : Float) : Int :=
  if range.1 == range.2 then (last - first).tdiv 2
  else
    let t := (v - range.1) / (range.2 - range.1)
    let length := last - first
    if length = 0 then last
    else if t.isInf then if 0.0 < t then last else first
    else
      let offset := Number.ofInt length * t
      if 0 < length then
        word32 (first + Number.floor Number.minInt32 Number.maxInt32 (offset + 0.001))
      else word32 (first + Number.ceiling Number.minInt32 Number.maxInt32 (offset - 0.001))

/-- The pixel of a point; points outside the ranges are moved to the edge of the plot. -/
def pixel (c : Chart) (a : Area) (p : Point) : Pixel :=
  let plot := c.plot a
  plot.nearest
    (place c.xRange plot.x0 (plot.x1 - 1) p.1, place c.yRange (plot.y1 - 1) plot.y0 p.2)

def titleShape (c : Chart) (a : Area) : Shape :=
  let i := c.inner a
  .text (i.x0 + i.width.tdiv 2, i.y0 + 5) true c.titleSize c.title

def hasRoom (a : Area) : Bool :=
  0 < a.width && 0 < a.height

/-- A percentage of the shorter side of the plot, up to a bound. -/
def share (c : Chart) (a : Area) (percent bound : Nat) : Nat :=
  let plot := c.plot a
  min bound ((percent * (min plot.width plot.height).toNat + 50) / 100)

def labelSize (c : Chart) (a : Area) : Nat :=
  c.share a 12 12

def labelDistance (c : Chart) (a : Area) : Nat :=
  2 * c.share a 5 5

def yTitleShapes (c : Chart) (a : Area) : List Shape :=
  let labels := c.leftLabels a
  match c.yTitle with
  | some title =>
    if hasRoom labels then
      [.text (labels.x0, labels.y0 + labels.height.tdiv 2) true (c.labelSize a) title]
    else []
  | none => []

def xTitleShapes (c : Chart) (a : Area) : List Shape :=
  let labels := c.lowerLabels a
  if hasRoom labels then
    [.text (labels.x0 + labels.width.tdiv 2, labels.y1) true (c.labelSize a) c.xTitle]
  else []

def yTickShapes (c : Chart) (a : Area) : List Shape :=
  let plot := c.plot a
  let labels := c.leftLabels a
  if hasRoom labels then
    (Ticks.between c.yRange.1 c.yRange.2).map fun v =>
      .tick (labels.x1 - c.labelDistance a, place c.yRange (plot.y1 - 1) plot.y0 v) false
        (c.labelSize a) (Number.label v)
  else []

def xTickShapes (c : Chart) (a : Area) : List Shape :=
  let plot := c.plot a
  let labels := c.lowerLabels a
  if hasRoom labels then
    (Ticks.between c.xRange.1 c.xRange.2).map fun v =>
      .tick (place c.xRange plot.x0 (plot.x1 - 1) v, labels.y0 + c.labelDistance a) true
        (c.labelSize a) (Number.label v)
  else []

/-- The titles of the chart and of its axes, and the labels of the ticks. The lines of the axes and
of the grid, which are drawn along with the labels, are not among the shapes. -/
def frame (c : Chart) (a : Area) : List Shape :=
  c.titleShape a ::
    (c.yTitleShapes a ++ c.xTitleShapes a ++ c.yTickShapes a ++ c.xTickShapes a)

def box (c : Chart) (a : Area) (p q : Point) (filled : Bool) (colour : Colour) : Shape :=
  boxBetween (c.pixel a p) (c.pixel a q) filled colour

end Chart

end TracePlot.Drawing
