import TracePlot.Drawing.Chart
import TracePlot.Histogram.Bins

/-! The drawing of a histogram. -/

namespace TracePlot.Drawing.HistogramPage

def width : Nat := 1000
def height : Nat := 600

/-- The values up to which counts are shown: a tenth more than the largest, but at least one. -/
def top (counts : List Nat) : Float :=
  Number.larger (Float.ofNat (counts.foldl max 0) * 1.1) 1.0

def chart (xRange : Float × Float) (counts : List Nat) : Chart where
  title := Histogram.title
  titleSize := 22
  titleHeight := 17
  margin := 10
  xLabels := 50
  yLabels := 50
  xTitle := "Energy values (J)"
  yTitle := some "Frequency"
  xRange
  yRange := (0.0, top counts)

def bar (c : Chart) (a : Area) (filled : Bool) (colour : Colour)
    (bin : (Float × Float) × Nat) : Shape :=
  c.box a (bin.1.1, 0.0) (bin.1.2, Float.ofNat bin.2) filled colour

/-- The bars, then their outlines. A histogram without edges has no drawing. -/
def document? (h : Histogram) : Option Document :=
  match h.edges.head?, h.edges.getLast? with
  | some first, some last =>
    let c := chart (first, last) h.counts
    let a : Area := ⟨0, 0, width, height⟩
    some
      { width
        height
        shapes :=
          .box (0, 0) width height true Colour.white :: c.frame a ++
            h.bins.map (bar c a true (Colour.pureBlue.withAlpha 0.7)) ++
            h.bins.map (bar c a false Colour.black) }
  | _, _ => none

end TracePlot.Drawing.HistogramPage
