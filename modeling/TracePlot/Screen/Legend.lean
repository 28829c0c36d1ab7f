import TracePlot.Figure.Panel
import TracePlot.Screen.Cells
import TracePlot.Screen.Colour

/-! Legends beside the panels on a screen. -/

namespace TracePlot.Screen

def markerSymbol : Marker → String
  | .line => "── "
  | .dot => "●  "
  | .square => "■  "

/-- A line of a legend: the coloured symbol and the label. -/
structure LegendLine where
  symbol : String
  colour : Colour
  label : String
  deriving Repr, DecidableEq, Inhabited

def LegendLine.ofEntry (e : LegendEntry) : LegendLine :=
  ⟨markerSymbol e.marker, .ofTint e.tint, e.label⟩

/-- The line one column from the left, cut at the right. -/
def LegendLine.row (width : Nat) (l : LegendLine) : Row :=
  Row.pad width blank ((blank :: Row.ofText (width - 1) (l.symbol ++ l.label)).take width)

namespace Legend

/-- The columns right of the figure's right margin. -/
def marginColumns (right : Float) (columns : Nat) : Nat :=
  (Number.nearest 0 0xFFFF
    ((1.0 - Number.clamp 0.0 1.0 right) * Float.ofNat columns)).toNat

/-- The columns that a legend gets of a row: what its longest label or the margin needs, but at
most half of them. -/
def width (entries : List LegendEntry) (right : Float) (columns : Nat) : Nat :=
  if entries.isEmpty then 0
  else
    let longest := word16 ((entries.map (·.label.length)).foldl max 0)
    min (max (word16 (longest + 4)) (marginColumns right columns)) (columns / 2)

/-- The lines of a legend in the middle of its area. Those beyond its height are left out. -/
def grid (entries : List LegendEntry) (width height : Nat) : Grid :=
  let shown := min (word16 entries.length) height
  let above := (height - shown) / 2
  Grid.blankRows width above ++
    (entries.take shown).map (fun e => (LegendLine.ofEntry e).row width) ++
    Grid.blankRows width (height - above - shown)

end Legend

end TracePlot.Screen
