import TracePlot.Figure.Draw
import TracePlot.Proofs.Figure.RoleTiles
import TracePlot.Proofs.Records.Readings
import TracePlot.Proofs.Run.Loading

/-! What panels draw is inside the window: records are left out when they are read, waiting times
when their points are made, and tiles are clipped. -/

namespace TracePlot

variable {w : Window} {x : Float} {p : Panel} {d : RunData} {data : List RunData}

namespace Energy

theorem exists_reading_of_mem_power {rs : List Reading} {p : Power} (h : p ∈ power rs) :
    ∃ r ∈ rs, p.time = r.time := by
  rw [power, differences_eq] at h
  obtain ⟨s, hs, hp⟩ := List.mem_filterMap.mp h
  have hafter : s.2 ∈ firsts rs := List.mem_of_mem_tail (List.of_mem_zip hs).2
  exact ⟨s.2, (firsts_sublist rs).subset hafter, time_of_meanPower? hp⟩

end Energy

/-- All records that panels draw unclipped are from inside the window. -/
structure RunData.Inside (w : Window) (d : RunData) : Prop where
  energy : ∀ rs, d.energy = some rs → ∀ r ∈ rs, w.contains r.time = true
  power : ∀ ps, d.power = some ps → ∀ p ∈ ps, w.contains p.time = true
  queue : ∀ samples, d.queue = some samples → ∀ s ∈ samples, w.contains s.date = true

theorem Files.exists_read_of_loadOptional {α : Type} {files : Files} {wanted : Bool}
    {read : List UInt8 → Except Table.Fault α} {paths : Option String} {rows : α}
    (h : files.loadOptional wanted read paths = .ok (some rows)) :
    ∃ bytes, read bytes = .ok rows := by
  cases paths with
  | none => cases h
  | some path =>
    cases wanted with
    | false => cases h
    | true =>
      obtain ⟨rows', hload, heq⟩ := loadOptional_some_eq_ok_iff.mp h
      cases heq
      obtain ⟨bytes, -, hread⟩ := load_eq_ok_iff.mp hload
      exact ⟨bytes, hread⟩

theorem Files.Loaded.inside {files : Files} {c : Config} {i : Instance}
    (h : files.Loaded c i d) : d.Inside c.window := by
  have henergy : ∀ rs, d.energy = some rs → ∀ r ∈ rs, c.window.contains r.time = true := by
    intro rs hrs
    have hload := h.energy
    rw [hrs] at hload
    obtain ⟨bytes, hread⟩ := exists_read_of_loadOptional hload
    exact Energy.contains_of_readAll hread
  refine ⟨henergy, fun ps hps p hp => ?_, fun samples hsamples => ?_⟩
  · have hpower := h.power
    rw [hps, eq_comm, Option.map_eq_some_iff] at hpower
    obtain ⟨rs, hrs, rfl⟩ := hpower
    obtain ⟨r, hr, htime⟩ := Energy.exists_reading_of_mem_power hp
    rw [htime]
    exact henergy rs hrs r hr
  · have hload := h.queue
    rw [hsamples] at hload
    obtain ⟨bytes, hread⟩ := exists_read_of_loadOptional hload
    exact Queue.contains_of_readAll hread

/-- A time that a panel draws something at: that of a point or of an edge of a tile. -/
inductive Panel.Draws (p : Panel) : Float → Prop
  | point {s : Series} {q : Point} (hs : s ∈ p.series) (hq : q ∈ s.points) : Draws p q.1
  | left {t : Tile} (ht : t ∈ p.tiles) : Draws p t.x.1
  | right {t : Tile} (ht : t ∈ p.tiles) : Draws p t.x.2

def Figure.Draws (f : Figure) (x : Float) : Prop :=
  ∃ p ∈ f.panels, p.Draws x

theorem Panel.mem_xs_iff : x ∈ p.xs ↔ p.Draws x := by
  simp only [xs, List.mem_append, List.mem_flatMap, List.mem_map, List.mem_cons, List.not_mem_nil,
    or_false]
  constructor
  · rintro (⟨s, hs, q, hq, rfl⟩ | ⟨t, ht, rfl | rfl⟩)
    · exact .point hs hq
    · exact .left ht
    · exact .right ht
  · rintro (⟨hs, hq⟩ | ht | ht)
    · exact .inl ⟨_, hs, _, hq, rfl⟩
    · exact .inr ⟨_, ht, .inl rfl⟩
    · exact .inr ⟨_, ht, .inr rfl⟩

def Series.Inside (w : Window) (s : Series) : Prop :=
  ∀ q ∈ s.points, w.contains q.1 = true

def Tile.Inside (w : Window) (t : Tile) : Prop :=
  w.contains t.x.1 = true ∧ w.contains t.x.2 = true

namespace Curves

theorem inside_of_mem_perRun {series : Nat → RunData → List Series} {s : Series}
    (hseries : ∀ i, ∀ d ∈ data, ∀ s ∈ series i d, s.Inside w) (hs : s ∈ perRun data series) :
    s.Inside w := by
  obtain ⟨x, hx, hs⟩ := List.mem_flatMap.mp hs
  exact hseries x.2 x.1 (List.fst_mem_of_mem_zipIdx hx) s hs

theorem powerSeries_inside (h : d.Inside w) (i : Nat) : ∀ s ∈ powerSeries i d, s.Inside w := by
  unfold powerSeries
  cases hpower : d.power with
  | none => simp
  | some ps =>
    simp only [List.mem_singleton, forall_eq, Series.Inside, List.mem_map]
    rintro q ⟨p, hp, rfl⟩
    exact h.power ps hpower p hp

theorem energySeries_inside (h : d.Inside w) (i : Nat) : ∀ s ∈ energySeries i d, s.Inside w := by
  unfold energySeries
  cases henergy : d.energy with
  | none => simp
  | some rs =>
    simp only [List.mem_singleton, forall_eq, Series.Inside, List.mem_map]
    rintro q ⟨r, hr, rfl⟩
    exact h.energy rs henergy r hr

theorem measurePoints_inside {samples : List Queue.Sample}
    (h : ∀ s ∈ samples, w.contains s.date = true) (m : Queue.Measure) :
    ∀ q ∈ measurePoints samples m, w.contains q.1 = true := by
  intro q hq
  obtain ⟨s, hs, hq⟩ := List.mem_filterMap.mp hq
  obtain ⟨v, -, rfl⟩ := Option.map_eq_some_iff.mp hq
  exact h s hs

theorem queueSeries_inside (h : d.Inside w) (m : Queue.Measure) (i : Nat) :
    ∀ s ∈ queueSeries m i d, s.Inside w := by
  unfold queueSeries
  cases hqueue : d.queue with
  | none => simp
  | some samples =>
    simp only [List.mem_singleton, forall_eq]
    exact measurePoints_inside (h.queue samples hqueue) m

theorem waitPoints_inside (w : Window) (jobs : List Job) :
    ∀ q ∈ waitPoints w jobs, w.contains q.1 = true := by
  intro q hq
  obtain ⟨j, hj, hq⟩ := List.mem_filterMap.mp hq
  obtain ⟨v, -, rfl⟩ := Option.map_eq_some_iff.mp hq
  exact (List.mem_filter.mp hj).2

theorem horizonSeries_inside (h : d.Inside w) (i : Nat) :
    ∀ s ∈ horizonSeries w i d, s.Inside w := by
  intro s hs
  rcases List.mem_append.mp hs with hs | hs
  · cases hqueue : d.queue with
    | none => simp [hqueue] at hs
    | some samples =>
      simp only [hqueue, List.mem_singleton] at hs
      rw [hs]
      exact measurePoints_inside (h.queue samples hqueue) .loadHorizon
  · cases hjobs : d.jobs with
    | none => simp [hjobs] at hs
    | some jobs =>
      simp only [hjobs, List.mem_singleton] at hs
      rw [hs]
      exact waitPoints_inside w jobs

theorem boundSeries_inside (h : ∀ d ∈ data, d.Inside w) (label : String) (bound : Option Float) :
    ∀ s ∈ boundSeries data label bound, s.Inside w := by
  have hdates : ∀ x ∈ (data.filterMap (·.queue)).flatten.map (·.date), w.contains x = true := by
    intro x hx
    obtain ⟨s, hs, rfl⟩ := List.mem_map.mp hx
    obtain ⟨samples, hsamples, hs⟩ := List.mem_flatten.mp hs
    obtain ⟨d, hd, hqueue⟩ := List.mem_filterMap.mp hsamples
    exact (h d hd).queue samples hqueue s hs
  unfold boundSeries
  cases bound with
  | none => simp
  | some b =>
    cases hspan : Number.bounds? ((data.filterMap (·.queue)).flatten.map (·.date)) with
    | none => simp
    | some span =>
      obtain ⟨hfirst, hlast⟩ := Number.mem_of_bounds? hspan
      simp only [forall_eq, Series.Inside, List.mem_cons, List.not_mem_nil, or_false,
        forall_eq_or_imp]
      exact ⟨hdates _ hfirst, hdates _ hlast⟩

end Curves

namespace Gantt

theorem jobTiles_inside (hw : w.Proper) (i : Nat) (j : Job) :
    ∀ t ∈ jobTiles w i j, t.Inside w := by
  unfold jobTiles
  split
  · simp
  · next span hspan =>
    obtain ⟨bounds, -, hclip⟩ := Option.bind_eq_some_iff.mp hspan
    intro t ht
    obtain ⟨r, -, rfl⟩ := List.mem_map.mp ht
    exact Window.contains_of_clip? hw hclip

theorem roleTile?_inside (hw : w.Proper) {roles : PowerState.Roles} {s : PowerState.Spell}
    {t : Tile} (h : roleTile? roles w s = some t) : t.Inside w := by
  obtain ⟨role, -, h⟩ := Option.bind_eq_some_iff.mp h
  obtain ⟨span, hclip, rfl⟩ := Option.map_eq_some_iff.mp h
  exact Window.contains_of_clip? hw hclip

theorem panel_inside (hw : w.Proper) (roles : PowerState.Roles) (d : RunData) :
    ∀ t ∈ (panel roles w d).tiles, t.Inside w := by
  intro t ht
  rcases List.mem_append.mp ht with ht | ht
  · cases hchanges : d.changes with
    | none => simp [hchanges] at ht
    | some changes =>
      simp only [hchanges, stateLayer, Layer.foldl_draw_tiles, List.reverse_nil,
        List.nil_append] at ht
      obtain ⟨s, -, hs⟩ := List.mem_filterMap.mp ht
      exact roleTile?_inside hw hs
  · obtain ⟨j, -, ht⟩ := List.mem_flatMap.mp ht
    exact jobTiles_inside hw j.2 j.1 t ht

end Gantt

/-- Nothing in the panel sticks out of the window. -/
structure Panel.Inside (w : Window) (p : Panel) : Prop where
  series : ∀ s ∈ p.series, s.Inside w
  tiles : ∀ t ∈ p.tiles, t.Inside w

theorem Panel.inside_addAll {title : String} {series : List Series}
    (h : ∀ s ∈ series, s.Inside w) : (({ title } : Panel).addAll series).Inside w :=
  ⟨by simpa using h, by simp⟩

theorem Panel.Inside.contains (h : p.Inside w) (hx : p.Draws x) : w.contains x = true := by
  cases hx with
  | point hs hq => exact h.series _ hs _ hq
  | left ht => exact (h.tiles _ ht).1
  | right ht => exact (h.tiles _ ht).2

theorem Curves.queuePanel_inside (h : ∀ d ∈ data, d.Inside w) (title : String) (m : Queue.Measure)
    (bound : Option Float) : (queuePanel title m bound data).Inside w := by
  refine Panel.inside_addAll fun s hs => ?_
  rcases List.mem_append.mp hs with hs | hs
  · exact inside_of_mem_perRun (fun i d hd => queueSeries_inside (h d hd) m i) hs
  · exact boundSeries_inside h _ _ s hs

theorem PanelSpec.draw_inside {c : Config} (hw : c.window.Proper) (roles : PowerState.Roles)
    (h : ∀ d ∈ data, d.Inside c.window) (spec : PanelSpec) :
    (spec.draw c roles data).Inside c.window := by
  obtain ⟨f, shown⟩ := spec
  cases f with
  | gantt =>
    simp only [draw]
    split
    · exact ⟨by simp [Gantt.panel], Gantt.panel_inside hw roles _⟩
    · exact ⟨by simp, by simp⟩
  | power =>
    exact Panel.inside_addAll fun s hs => Curves.inside_of_mem_perRun
      (fun i d hd => Curves.powerSeries_inside (h d hd) i) hs
  | energy =>
    exact Panel.inside_addAll fun s hs => Curves.inside_of_mem_perRun
      (fun i d hd => Curves.energySeries_inside (h d hd) i) hs
  | unresponsiveness =>
    refine Panel.inside_addAll fun s hs => ?_
    rcases List.mem_append.mp hs with hs | hs
    · exact Curves.inside_of_mem_perRun
        (fun i d hd => Curves.horizonSeries_inside (h d hd) i) hs
    · exact Curves.boundSeries_inside h _ _ s hs
  | _ => exact Curves.queuePanel_inside h _ _ _

theorem Figure.contains_of_draws {files : Files} {c : Config} {l : Layout} (hw : c.window.Proper)
    (hdata : files.loadAll c l = .ok data) (hx : (l.draw c data).Draws x) :
    c.window.contains x = true := by
  have hinside : ∀ d ∈ data, d.Inside c.window := by
    intro d hd
    obtain ⟨k, hk, rfl⟩ := List.mem_iff_getElem.mp hd
    have hloaded := (List.forall₂_iff_get.mp (Files.loadAll_eq_ok_iff.mp hdata)).2 k
      (by rw [← Files.length_of_loadAll hdata]; exact hk) hk
    exact hloaded.inside
  obtain ⟨p, hp, hx⟩ := hx
  obtain ⟨spec, -, rfl⟩ := List.mem_map.mp hp
  exact (PanelSpec.draw_inside hw l.roles hinside spec).contains hx

end TracePlot
