import TracePlot.Figure.Series
import TracePlot.Plan.Layout

/-! Panels of series and tiles with their legends, and figures of stacked panels that share the
time axis. -/

namespace TracePlot

structure Tile where
  x : Float × Float
  y : Float × Float
  tint : Tint
  deriving Inhabited

inductive Marker where
  | line
  | dot
  | square
  deriving Repr, DecidableEq, Inhabited

structure LegendEntry where
  label : String
  tint : Tint
  marker : Marker
  deriving Repr, DecidableEq, Inhabited

structure Panel where
  title : String := ""
  yTitle : Option String := none
  series : List Series := []
  tiles : List Tile := []
  legend : List LegendEntry := []
  deriving Inhabited

def finiteBounds? (values : List Float) : Option (Float × Float) :=
  Number.bounds? (values.filter Float.isFinite)

def Series.entry? (s : Series) : Option LegendEntry :=
  s.label.map fun label =>
    ⟨label, s.tint, match s.style with | .scatter => .dot | _ => .line⟩

namespace Panel

def addSeries (p : Panel) (s : Series) : Panel :=
  { p with series := p.series ++ [s], legend := p.legend ++ s.entry?.toList }

def addAll (p : Panel) (series : List Series) : Panel :=
  series.foldl addSeries p

theorem addAll_eq (p : Panel) (series : List Series) :
    p.addAll series =
      { p with
        series := p.series ++ series
        legend := p.legend ++ series.filterMap Series.entry? } := by
  induction series generalizing p with
  | nil => simp [addAll]
  | cons s rest ih =>
    have hstep : p.addAll (s :: rest) = (p.addSeries s).addAll rest := rfl
    rw [hstep, ih]
    cases hs : s.entry? <;> simp [addSeries, hs]

@[simp]
theorem addAll_title (p : Panel) (series : List Series) : (p.addAll series).title = p.title := by
  rw [addAll_eq]

@[simp]
theorem addAll_series (p : Panel) (series : List Series) :
    (p.addAll series).series = p.series ++ series := by
  rw [addAll_eq]

@[simp]
theorem addAll_tiles (p : Panel) (series : List Series) : (p.addAll series).tiles = p.tiles := by
  rw [addAll_eq]

@[simp]
theorem addAll_legend (p : Panel) (series : List Series) :
    (p.addAll series).legend = p.legend ++ series.filterMap Series.entry? := by
  rw [addAll_eq]

def addTile (p : Panel) (t : Tile) : Panel :=
  { p with tiles := p.tiles ++ [t] }

def addTiles (p : Panel) (tiles : List Tile) : Panel :=
  { p with tiles := p.tiles ++ tiles }

def addEntries (p : Panel) (entries : List LegendEntry) : Panel :=
  { p with legend := p.legend ++ entries }

def isEmpty (p : Panel) : Bool :=
  p.series.all (·.points.isEmpty) && p.tiles.isEmpty

def xs (p : Panel) : List Float :=
  p.series.flatMap (fun s => s.points.map (·.1)) ++ p.tiles.flatMap fun t => [t.x.1, t.x.2]

def ys (p : Panel) : List Float :=
  p.series.flatMap (fun s => s.points.map (·.2)) ++ p.tiles.flatMap fun t => [t.y.1, t.y.2]

def xExtent? (p : Panel) : Option (Float × Float) :=
  finiteBounds? p.xs

/-- The values shown. Series get a twentieth of their range on both sides, equal values one unit,
and tiles alone nothing. -/
def yRange (p : Panel) : Float × Float :=
  match finiteBounds? p.ys with
  | none => (0.0, 1.0)
  | some (lo, hi) =>
    if lo == hi then (lo - 1.0, hi + 1.0)
    else if p.series.any fun s => !s.points.isEmpty then
      let pad := (hi - lo) * 0.05
      (lo - pad, hi + pad)
    else (lo, hi)

end Panel

structure Figure where
  panels : List Panel
  margins : Margins := {}
  window : Window := {}
  deriving Inhabited

namespace Figure

/-- The times shown in every panel: the window's bounds where there are any, and else those of
the data. A range without length is widened to one unit. -/
def xRange (f : Figure) : Float × Float :=
  let extents := (f.panels.filterMap Panel.xExtent?).flatMap fun (lo, hi) => [lo, hi]
  let (lo, hi) := (finiteBounds? extents).getD (0.0, 1.0)
  let lo := f.window.min.getD lo
  let hi := f.window.max.getD hi
  if lo < hi then (lo, hi) else (lo, lo + 1.0)

def emptyTitles (f : Figure) : List String :=
  (f.panels.filter Panel.isEmpty).map (·.title)

end Figure

end TracePlot
