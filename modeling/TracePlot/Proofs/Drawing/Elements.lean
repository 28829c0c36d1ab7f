import Mathlib.Algebra.GroupWithZero.Nat
import Mathlib.Data.List.Forall2
import Mathlib.Order.Lattice
import TracePlot.Drawing.Output

/-! What the drawing of a figure is made of. Each panel gives its titles and labels, the tiles and
then their outlines, the shapes of its series, and for each entry of its legend a marker and a
text. The numbers of rectangles and circles follow. -/

namespace TracePlot

def Panel.scatteredPoints (p : Panel) : List Point :=
  (p.series.filter fun s => s.style = .scatter).flatMap (·.points)

/-- How many entries of the legend have the marker. -/
def Panel.marked (p : Panel) (marker : Marker) : Nat :=
  p.legend.countP fun e => e.marker = marker

namespace Drawing

namespace Shape

def isBox : Shape → Bool
  | .box .. => true
  | _ => false

def isCircle : Shape → Bool
  | .circle .. => true
  | _ => false

/-- A title of an axis, or a label of a tick. -/
def IsLabel (s : Shape) : Prop :=
  (∃ place size content, s = .text place true size content) ∨
    ∃ place below size content, s = .tick place below size content

theorem IsLabel.not_isBox {s : Shape} (h : s.IsLabel) : s.isBox = false := by
  obtain ⟨_, _, _, rfl⟩ | ⟨_, _, _, _, rfl⟩ := h <;> rfl

theorem IsLabel.not_isCircle {s : Shape} (h : s.IsLabel) : s.isCircle = false := by
  obtain ⟨_, _, _, rfl⟩ | ⟨_, _, _, _, rfl⟩ := h <;> rfl

end Shape

section Drawn

/-- A tile is a filled rectangle in its colour, and the outline of the same rectangle. -/
def TileDrawn (t : Tile) (shapes : Shape × Shape) : Prop :=
  ∃ corner width height,
    shapes.1 = .box corner width height true (Colour.ofTint t.tint) ∧
    shapes.2 = .box corner width height false (Colour.black.withAlpha 0.4)

/-- Scattered points are circles, and the points of any other series are joined by one line. -/
def SeriesDrawn (s : Series) (shapes : List Shape) : Prop :=
  if s.style = .scatter then
    List.Forall₂ (fun _ shape => ∃ centre, shape = .circle centre 3 (Colour.ofTint s.tint))
      s.points shapes
  else if s.points = [] then shapes = []
  else ∃ places, places.length = s.path.length ∧
    shapes = [.line places (Colour.ofTint s.tint) s.stroke]

def MarkerDrawn (e : LegendEntry) (shape : Shape) : Prop :=
  match e.marker with
  | .line => ∃ start stop, shape = .line [start, stop] (Colour.ofTint e.tint) 2
  | .dot => ∃ centre, shape = .circle centre 4 (Colour.ofTint e.tint)
  | .square => ∃ corner width height,
    shape = .box corner width height true (Colour.ofTint e.tint)

def EntryDrawn (e : LegendEntry) (shapes : List Shape) : Prop :=
  ∃ marker place, MarkerDrawn e marker ∧ shapes = [marker, .text place false 14 e.label]

def PanelDrawn (p : Panel) (shapes : List Shape) : Prop :=
  ∃ place labels tiles series legend,
    shapes = .text place true 18 p.title :: labels ++ tiles.map Prod.fst ++ tiles.map Prod.snd ++
      List.flatten series ++ List.flatten legend ∧
    (∀ s ∈ labels, s.IsLabel) ∧
    List.Forall₂ TileDrawn p.tiles tiles ∧
    List.Forall₂ SeriesDrawn p.series series ∧
    List.Forall₂ EntryDrawn p.legend legend

end Drawn

section Counting

variable {α β : Type} {R : α → List β → Prop} {q : β → Bool} {n : α → Nat}

theorem countP_flatten_of_forall₂ {xs : List α} {parts : List (List β)}
    (h : List.Forall₂ R xs parts) (hcount : ∀ a part, R a part → part.countP q = n a) :
    parts.flatten.countP q = (xs.map n).sum := by
  induction h with
  | nil => rfl
  | cons ha _ ih => rw [List.flatten_cons, List.countP_append, hcount _ _ ha, ih]; rfl

theorem countP_circles_of_forall₂ {S : α → Shape → Prop} (hcircle : ∀ a s, S a s → s.isCircle)
    {xs : List α} {shapes : List Shape} (h : List.Forall₂ S xs shapes) :
    shapes.countP Shape.isCircle = xs.length ∧ shapes.countP Shape.isBox = 0 := by
  induction h with
  | nil => exact ⟨rfl, rfl⟩
  | @cons a s _ _ ha _ ih =>
    have hbox : s.isBox = false := by
      cases s with
      | circle => rfl
      | _ => exact absurd (hcircle _ _ ha) (by simp [Shape.isCircle])
    simp [hcircle _ _ ha, hbox, ih]

theorem length_scatteredPoints (p : Panel) :
    p.scatteredPoints.length =
      (p.series.map fun s => if s.style = .scatter then s.points.length else 0).sum := by
  unfold Panel.scatteredPoints
  induction p.series with
  | nil => rfl
  | cons s rest ih => by_cases hs : s.style = .scatter <;> simp [hs, ih]

theorem marked_eq_sum (p : Panel) (marker : Marker) :
    p.marked marker = (p.legend.map fun e => if e.marker = marker then 1 else 0).sum := by
  unfold Panel.marked
  induction p.legend with
  | nil => rfl
  | cons e rest ih => simp [List.countP_cons, ih, Nat.add_comm]

theorem seriesDrawn_countP {s : Series} {shapes : List Shape} (h : SeriesDrawn s shapes) :
    shapes.countP Shape.isCircle = (if s.style = .scatter then s.points.length else 0) ∧
      shapes.countP Shape.isBox = 0 := by
  unfold SeriesDrawn at h
  split at h
  · next hscatter =>
    rw [if_pos hscatter]
    refine countP_circles_of_forall₂ (fun _ shape hshape => ?_) h
    obtain ⟨centre, rfl⟩ := hshape
    rfl
  · next hjoined =>
    rw [if_neg hjoined]
    split at h
    · rw [h]
      exact ⟨rfl, rfl⟩
    · obtain ⟨places, -, rfl⟩ := h
      exact ⟨rfl, rfl⟩

theorem entryDrawn_countP {e : LegendEntry} {shapes : List Shape} (h : EntryDrawn e shapes) :
    shapes.countP Shape.isCircle = (if e.marker = .dot then 1 else 0) ∧
      shapes.countP Shape.isBox = if e.marker = .square then 1 else 0 := by
  obtain ⟨marker, place, hmarker, rfl⟩ := h
  unfold MarkerDrawn at hmarker
  split at hmarker
  · next he =>
    obtain ⟨start, stop, rfl⟩ := hmarker
    rw [he]
    exact ⟨rfl, rfl⟩
  · next he =>
    obtain ⟨centre, rfl⟩ := hmarker
    rw [he]
    exact ⟨rfl, rfl⟩
  · next he =>
    obtain ⟨corner, width, height, rfl⟩ := hmarker
    rw [he]
    exact ⟨rfl, rfl⟩

theorem tilesDrawn_countP {tiles : List Tile} {shapes : List (Shape × Shape)}
    (h : List.Forall₂ TileDrawn tiles shapes) :
    (shapes.map Prod.fst ++ shapes.map Prod.snd).countP Shape.isBox = 2 * tiles.length ∧
      (shapes.map Prod.fst ++ shapes.map Prod.snd).countP Shape.isCircle = 0 := by
  simp only [List.countP_append, Nat.two_mul]
  induction h with
  | nil => exact ⟨rfl, rfl⟩
  | cons ht _ ih =>
    obtain ⟨corner, width, height, hfill, hline⟩ := ht
    simp only [List.map_cons, List.countP_cons, hfill, hline, Shape.isBox, Shape.isCircle,
      List.length_cons, if_true, Bool.false_eq_true, if_false]
    omega

/-- The rectangles of a panel are its tiles, twice, and the square markers, and the circles are the
scattered points and the dots. -/
theorem panelDrawn_countP {p : Panel} {shapes : List Shape} (h : PanelDrawn p shapes) :
    shapes.countP Shape.isBox = 2 * p.tiles.length + p.marked .square ∧
      shapes.countP Shape.isCircle = p.scatteredPoints.length + p.marked .dot := by
  obtain ⟨place, labels, tiles, series, legend, rfl, hlabels, htiles, hseries, hlegend⟩ := h
  have hnobox : labels.countP Shape.isBox = 0 :=
    List.countP_eq_zero.mpr fun s hs => by simp [(hlabels s hs).not_isBox]
  have hnocircle : labels.countP Shape.isCircle = 0 :=
    List.countP_eq_zero.mpr fun s hs => by simp [(hlabels s hs).not_isCircle]
  obtain ⟨htileboxes, htilecircles⟩ := tilesDrawn_countP htiles
  have hseriesboxes := countP_flatten_of_forall₂ hseries fun _ _ h => (seriesDrawn_countP h).2
  have hseriescircles := countP_flatten_of_forall₂ hseries fun _ _ h => (seriesDrawn_countP h).1
  have hsquares := countP_flatten_of_forall₂ hlegend fun _ _ h => (entryDrawn_countP h).2
  have hdots := countP_flatten_of_forall₂ hlegend fun _ _ h => (entryDrawn_countP h).1
  rw [← marked_eq_sum] at hsquares hdots
  rw [← length_scatteredPoints] at hseriescircles
  rw [List.countP_append] at htileboxes htilecircles
  have hnone : (p.series.map fun _ => 0).sum = 0 := by simp
  rw [hnone] at hseriesboxes
  simp only [List.countP_append, List.countP_cons, Shape.isBox, Shape.isCircle, hnobox, hnocircle,
    hseriesboxes, hseriescircles, hsquares, hdots, Bool.false_eq_true, if_false]
  omega

end Counting

/-- Every member of the first list gets one of the second, if there are enough of them. -/
theorem forall₂_map_zip {α β γ : Type} {R : α → γ → Prop} {f : α × β → γ}
    (hf : ∀ a b, R a (f (a, b))) {xs : List α} {ys : List β} (hlength : xs.length ≤ ys.length) :
    List.Forall₂ R xs ((xs.zip ys).map f) := by
  induction xs generalizing ys with
  | nil => exact .nil
  | cons x xs ih =>
    cases ys with
    | nil => simp at hlength
    | cons y ys => exact .cons (hf x y) (ih (Nat.le_of_succ_le_succ hlength))

theorem Chart.isLabel_of_mem {c : Chart} {a : Area} {s : Shape}
    (h : s ∈ c.yTitleShapes a ++ c.xTitleShapes a ++ c.yTickShapes a ++ c.xTickShapes a) :
    s.IsLabel := by
  simp only [List.mem_append, yTitleShapes, xTitleShapes, yTickShapes, xTickShapes] at h
  rcases h with ((h | h) | h) | h
  · split at h
    · split at h
      · exact .inl ⟨_, _, _, List.mem_singleton.mp h⟩
      · cases h
    · cases h
  · split at h
    · exact .inl ⟨_, _, _, List.mem_singleton.mp h⟩
    · cases h
  · split at h
    · obtain ⟨v, -, rfl⟩ := List.mem_map.mp h
      exact .inr ⟨_, _, _, _, rfl⟩
    · cases h
  · split at h
    · obtain ⟨v, -, rfl⟩ := List.mem_map.mp h
      exact .inr ⟨_, _, _, _, rfl⟩
    · cases h

theorem Chart.frame_eq (c : Chart) (a : Area) :
    ∃ place labels, c.frame a = .text place true c.titleSize c.title :: labels ∧
      ∀ s ∈ labels, s.IsLabel :=
  ⟨_, _, rfl, fun _ hs => isLabel_of_mem hs⟩

namespace FigurePage

theorem seriesDrawn_seriesShapes (c : Chart) (a : Area) (s : Series) :
    SeriesDrawn s (seriesShapes c a s) := by
  unfold SeriesDrawn seriesShapes
  cases hstyle : s.style with
  | scatter =>
    simp only [if_true, List.forall₂_map_right_iff, List.forall₂_same]
    exact fun p _ => ⟨_, rfl⟩
  | _ =>
    by_cases hempty : s.points = []
    · simp [hempty]
    · simp [hempty]

theorem entryDrawn_entryShapes (a : Area) (first : Int) (e : LegendEntry) (i : Nat) :
    EntryDrawn e (entryShapes a first e i) := by
  refine ⟨_, _, ?_, rfl⟩
  unfold MarkerDrawn markerShape
  cases e.marker with
  | line => exact ⟨_, _, rfl⟩
  | dot => exact ⟨_, rfl⟩
  | square => exact ⟨_, _, _, rfl⟩

theorem exists_legendShapes_eq (entries : List LegendEntry) (a : Area) :
    ∃ parts, legendShapes entries a = List.flatten parts ∧
      List.Forall₂ EntryDrawn entries parts := by
  refine ⟨_, List.flatMap_def, ?_⟩
  rw [List.zipIdx_eq_zip_range']
  exact forall₂_map_zip (fun e i => entryDrawn_entryShapes a _ e i) (by simp)

theorem panelDrawn_shapes (xRange : Float × Float) (p : Panel) (a legend : Area) :
    PanelDrawn p (panelShapes xRange p a ++ legendShapes p.legend legend) := by
  let c := chart xRange p
  let fill := tileShape c a true fun t => Colour.ofTint t.tint
  let outline := tileShape c a false fun _ => Colour.black.withAlpha 0.4
  obtain ⟨place, labels, hframe, hlabels⟩ := c.frame_eq a
  obtain ⟨parts, hlegend, hentries⟩ := exists_legendShapes_eq p.legend legend
  refine ⟨place, labels, p.tiles.map fun t => (fill t, outline t),
    p.series.map (seriesShapes c a), parts, ?_, hlabels, ?_, ?_, hentries⟩
  · rw [hlegend, ← List.flatMap_def, List.map_map, List.map_map]
    show c.frame a ++ _ ++ _ ++ _ ++ _ = _
    rw [hframe]
    rfl
  · simp only [List.forall₂_map_right_iff, List.forall₂_same]
    exact fun t _ => ⟨_, _, _, rfl, rfl⟩
  · simp only [List.forall₂_map_right_iff, List.forall₂_same]
    exact fun s _ => seriesDrawn_seriesShapes c a s

/-- There are at least as many rows as panels, so none is left out. -/
theorem exists_document_shapes_eq (f : Figure) :
    ∃ parts, (document f).shapes =
        .box (0, 0) width (height f) true Colour.white :: List.flatten parts ∧
      List.Forall₂ PanelDrawn f.panels parts := by
  refine ⟨_, congrArg (Shape.box _ _ _ _ _ :: ·) List.flatMap_def, ?_⟩
  refine forall₂_map_zip (fun p areas => panelDrawn_shapes _ p areas.1 areas.2) ?_
  simp [Area.rows]

end FigurePage

/-- A figure that is written has a background, and for each panel in order its title and labels,
its tiles, their outlines, its series and its legend. So its rectangles are the background, each
tile twice and the square markers, and its circles are the scattered points and the dots. -/
theorem written_figure_has_each_element_once {files : Files} {f : Figure} {path written : String}
    {d : Document} {log : Log}
    (hwritten : (figureOutput files f path).written = .ok (some (written, d, log))) :
    (∃ parts, d.shapes =
        .box (0, 0) d.width d.height true Colour.white :: List.flatten parts ∧
      List.Forall₂ PanelDrawn f.panels parts) ∧
    d.shapes.countP Shape.isBox =
      1 + (f.panels.map fun p => 2 * p.tiles.length + p.marked .square).sum ∧
    d.shapes.countP Shape.isCircle =
      (f.panels.map fun p => p.scatteredPoints.length + p.marked .dot).sum := by
  have hd : d = FigurePage.document f := by
    unfold figureOutput at hwritten
    dsimp only at hwritten
    split at hwritten
    · cases hwritten
    · cases hwritten
      rfl
  subst hd
  obtain ⟨parts, hshapes, hparts⟩ := FigurePage.exists_document_shapes_eq f
  refine ⟨⟨parts, hshapes, hparts⟩, ?_, ?_⟩
  · rw [hshapes, List.countP_cons, Nat.add_comm,
      countP_flatten_of_forall₂ hparts fun _ _ h => (panelDrawn_countP h).1]
    rfl
  · rw [hshapes, List.countP_cons,
      countP_flatten_of_forall₂ hparts fun _ _ h => (panelDrawn_countP h).2]
    rfl

/-- A panel of tiles above one of scattered points. -/
def mixedFigure : Figure where
  panels :=
    [{ title := "Gantt chart: run"
       tiles := [⟨(0.0, 2.0), (0.0, 4.0), .job 0⟩, ⟨(2.0, 3.0), (1.0, 2.0), .role .off⟩]
       legend := [⟨"OFF", .role .off, .square⟩] },
      { title := "Energy (J)"
        series :=
          [{ style := .scatter, tint := .run 0, points := [(0.0, 1.0), (1.0, 2.0), (2.0, 2.0)] },
            { style := .line, tint := .reference, points := [(0.0, 1.0), (2.0, 1.0)] }]
        legend := [⟨"waits", .run 0, .dot⟩, ⟨"bound", .reference, .line⟩] }]

theorem mixedFigure_has_six_boxes_and_four_circles :
    let files : Files := { read := fun _ => .error .notFound }
    ∃ d log, (figureOutput files mixedFigure "figure.svg").written =
        .ok (some ("figure.svg", d, log)) ∧
      d.shapes.countP Shape.isBox = 6 ∧ d.shapes.countP Shape.isCircle = 4 := by
  intro files
  have hwritten : (figureOutput files mixedFigure "figure.svg").written =
      .ok (some ("figure.svg", FigurePage.document mixedFigure,
        ⟨.info, .drawing, "Figure written to figure.svg"⟩)) := by
    rfl
  have hcounts := (written_figure_has_each_element_once hwritten).2
  exact ⟨_, _, hwritten, hcounts.1, hcounts.2⟩

end Drawing

end TracePlot
