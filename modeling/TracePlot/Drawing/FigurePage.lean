import TracePlot.Drawing.Chart
import TracePlot.Figure.Panel

/-! The drawing of a figure: panels one below the other, and next to each its legend. -/

namespace TracePlot.Drawing.FigurePage

def width : Nat := 1400
def panelHeight : Nat := 260
def legendLine : Nat := 18

/-- The pixel at a fraction of a length; fractions outside of zero and one count as these. -/
def pixelAt (fraction : Float) (total : Nat) : Int :=
  Number.nearest Number.minInt32 Number.maxInt32 (Number.clamp 0.0 1.0 fraction * Float.ofNat total)

/-- The height that gives every panel its own when the margins are taken off. -/
def height (f : Figure) : Nat :=
  let plotted := Number.clamp 0.1 1.0 (f.margins.top - f.margins.bottom)
  let count := max f.panels.length 1
  (Number.nearest 0 0xFFFFFFFF
    (Float.ofNat count * Float.ofNat panelHeight / plotted)).toNat

def chart (xRange : Float × Float) (p : Panel) : Chart where
  title := p.title
  titleSize := 18
  titleHeight := 15
  margin := 5
  xLabels := 30
  yLabels := 50
  xTitle := "Time (s)"
  yTitle := p.yTitle
  xRange
  yRange := p.yRange

def seriesShapes (c : Chart) (a : Area) (s : Series) : List Shape :=
  let colour := Colour.ofTint s.tint
  match s.style with
  | .scatter => s.points.map fun p => .circle (c.pixel a p) 3 colour
  | _ => if s.points.isEmpty then [] else [.line (s.path.map (c.pixel a)) colour s.stroke]

def tileShape (c : Chart) (a : Area) (filled : Bool) (colour : Tile → Colour) (t : Tile) : Shape :=
  c.box a (t.x.1, t.y.1) (t.x.2, t.y.2) filled (colour t)

/-- The titles, the tiles, the outlines of the tiles, and the series of a panel. -/
def panelShapes (xRange : Float × Float) (p : Panel) (a : Area) : List Shape :=
  let c := chart xRange p
  c.frame a ++
    p.tiles.map (tileShape c a true fun t => Colour.ofTint t.tint) ++
    p.tiles.map (tileShape c a false fun _ => Colour.black.withAlpha 0.4) ++
    p.series.flatMap (seriesShapes c a)

def markerShape (a : Area) (y : Int) (marker : Marker) (colour : Colour) : Shape :=
  match marker with
  | .line => .line [a.offset (0, y), a.offset (20, y)] colour 2
  | .dot => .circle (a.offset (10, y)) 4 colour
  | .square => boxBetween (a.offset (4, y - 6)) (a.offset (16, y + 6)) true colour

/-- A legend entry as number `i` of those that start at `first`. -/
def entryShapes (a : Area) (first : Int) (e : LegendEntry) (i : Nat) : List Shape :=
  let y := first + i * legendLine + legendLine / 2
  [markerShape a y e.marker (Colour.ofTint e.tint), .text (a.offset (26, y - 7)) false 14 e.label]

/-- The entries one below the other in the middle of the area. -/
def legendShapes (entries : List LegendEntry) (a : Area) : List Shape :=
  let total : Int := entries.length * legendLine
  let first := max ((a.height - total).tdiv 2) 0
  entries.zipIdx.flatMap fun (e, i) => entryShapes a first e i

def document (f : Figure) : Document :=
  let height := height f
  let count := max f.panels.length 1
  let top := pixelAt (1.0 - f.margins.top) height
  let bottom := pixelAt f.margins.bottom height
  let border := pixelAt f.margins.right width
  let plots : Area := ⟨0, 0, border, height⟩
  let plots := plots.shrink top bottom (pixelAt f.margins.left width) 0
  let legends : Area := ⟨border, 0, width, height⟩
  let legends := legends.shrink top bottom 10 0
  let panels := f.panels.zip ((plots.rows count).zip (legends.rows count))
  { width
    height
    shapes :=
      .box (0, 0) width height true Colour.white ::
        panels.flatMap fun (p, plot, legend) =>
          panelShapes f.xRange p plot ++ legendShapes p.legend legend }

end TracePlot.Drawing.FigurePage
