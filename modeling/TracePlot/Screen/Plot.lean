import TracePlot.Figure.Panel
import TracePlot.Number.Format
import TracePlot.Screen.Colour

/-! What a panel shows inside its border: the lines that fill its tiles, and the labels of its
axes. -/

namespace TracePlot.Screen

/-- A coloured line between two points. -/
structure FillLine where
  start : Point
  stop : Point
  colour : Colour
  deriving Inhabited

/-- The heights from `y` on below `top`, a step apart, or `none` if they have no end: where a step is
so small that adding it leads nowhere, the steps after it do not lead further either. -/
def levels? (top step y : Float) : Option (List Float) :=
  if y < top then
    if Number.rank y < Number.rank (y + step) then
      (levels? top step (y + step)).map (y :: ·)
    else none
  else some []
termination_by (0x8000000000000000 - Number.rank y).toNat
decreasing_by
  have := Number.rank_lt (y + step)
  omega

/-- The heights of the lines that fill a tile: a step apart, or one in its middle if the step is
no use. -/
def fillLevels? (bottom top step : Float) : Option (List Float) :=
  if step.isNaN || step ≤ 0.0 || top - bottom ≤ step then some [(bottom + top) / 2.0]
  else levels? top step (bottom + step / 2.0)

/-- The line across a tile at a height. -/
def lineAcross (t : Tile) (y : Float) : FillLine :=
  ⟨(t.x.1, y), (t.x.2, y), .ofTint t.tint⟩

/-- The lines that fill a tile, or `none` if there is no end of them. -/
def fillLines? (t : Tile) (step : Float) : Option (List FillLine) :=
  (fillLevels? t.y.1 t.y.2 step).map (·.map (lineAcross t))

/-- The height of a dot in an area of `rows` rows with a border; a row has four dots. -/
def dotHeight (range : Float × Float) (rows : Nat) : Float :=
  (range.2 - range.1) / (Float.ofNat (max (rows - 2) 1) * 4.0)

def axisLabels (lo hi : Float) : List String :=
  [lo, (lo + hi) / 2.0, hi].map Number.oneDecimal

end TracePlot.Screen
