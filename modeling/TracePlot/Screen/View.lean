import TracePlot.Screen.Bars
import TracePlot.Screen.Legend
import TracePlot.Screen.Viewer

/-! What is seen on a screen: a page of panels, or a histogram, above a row of help. -/

namespace TracePlot.Screen

/-- The row of help; it tells which of the panels are visible if there are more. -/
def helpBar (columns : Nat) (p : Page) (count : Nat) : Grid :=
  let scroll :=
    if panelsPerPage < count then
      "| ↑/↓: Scroll (panels " ++ toString (p.start + 1) ++ "-" ++ toString p.stop ++ " of " ++
        toString count ++ ") "
    else ""
  [Row.pad columns blank (Row.ofText columns (" q: Quit " ++ scroll))]

/-- The rows above the help, which gives way if they would be less than `least`. -/
def rowsAboveHelp (least rows : Nat) : Nat :=
  max (rows - 1) (min rows least)

/-- Puts the help below a grid if there is a row left for it. -/
def withHelp (rows : Nat) (content help : Grid) : Grid :=
  (content ++ help).take rows

/-- A panel in a border, whose inside is left to the plot, and its legend. -/
def panelGrid (right : Float) (columns rows : Nat) (p : Panel) : Grid :=
  let width := max (columns - Legend.width p.legend right columns) (min columns 10)
  (Grid.framed width rows p.title (Grid.blankRows (width - 2) (rows - 2))).beside
    (Legend.grid p.legend (columns - width) rows)

/-- Where part number `i` of `n` equal parts of a length starts. -/
def partStart (length n i : Nat) : Nat :=
  Number.divHalfUp (i * length) n

/-- The panels of a page one below the other in rows of equal height. -/
def panelsGrid (f : Figure) (columns rows : Nat) (p : Page) : Grid :=
  let panels := p.panels f.panels
  if panels.isEmpty then Grid.blankRows columns rows
  else
    panels.zipIdx.flatMap fun (panel, i) =>
      let start := partStart rows panels.length i
      let stop := partStart rows panels.length (i + 1)
      panelGrid f.margins.right columns (stop - start) panel

def figureGrid (f : Figure) (columns rows : Nat) (p : Page) : Grid :=
  withHelp rows (panelsGrid f columns (rowsAboveHelp 6 rows) p) (helpBar columns p f.panels.length)

def histogramGrid (h : Histogram) (columns rows : Nat) : Grid :=
  withHelp rows (Bars.framed h columns (rowsAboveHelp 5 rows)) (helpBar columns ⟨0, 1⟩ 1)

inductive View where
  | figure (f : Figure)
  | histogram (h : Histogram)
  deriving Inhabited

namespace View

def panelCount : View → Nat
  | .figure f => f.panels.length
  | .histogram _ => 1

def grid (v : View) (columns rows : Nat) (p : Page) : Grid :=
  match v with
  | .figure f => figureGrid f columns rows p
  | .histogram h => histogramGrid h columns rows

/-- What is seen last while events arrive. -/
def lastGrid (v : View) (columns rows : Nat) (events : List Event) : Grid :=
  v.grid columns rows (((browse v.panelCount events).1.getLast?).getD default)

end View

end TracePlot.Screen
