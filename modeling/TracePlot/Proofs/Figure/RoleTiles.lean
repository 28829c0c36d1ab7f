import TracePlot.Figure.Gantt
import TracePlot.Proofs.Number.Whole
import TracePlot.Proofs.Records.Roles
import TracePlot.Proofs.Records.Spells
import TracePlot.Proofs.Resource.Ranges
import TracePlot.Proofs.Window

/-! The tiles of power states in a Gantt chart. At each machine and time that the window shows there
is one tile, in the role of the last change, and the legend names the roles that have a tile. -/

namespace TracePlot

/-- The point is in the tile, its right and upper edges left out. -/
def Tile.Covers (x : Tile) (t y : Float) : Prop :=
  (x.x.1 ≤ t ∧ t < x.x.2) ∧ x.y.1 ≤ y ∧ y < x.y.2

instance (x : Tile) (t y : Float) : Decidable (x.Covers t y) :=
  inferInstanceAs (Decidable (_ ∧ _))

namespace Gantt

open PowerState

variable {roles : Roles} {window : Window} {jobs : List Job} {changes : List Change}

/-- The times of all finishes and changes. -/
def knownTimes (jobs : List Job) (changes : List Change) : List Float :=
  jobs.filterMap (·.finish) ++ changes.map (·.time)

theorem lt_endTime_iff (h : ∀ u ∈ knownTimes jobs changes, u.isNaN = false) {t : Float} :
    t < endTime jobs changes ↔ ∃ u ∈ knownTimes jobs changes, t < u := by
  have hbottom : (-(1.0 / 0.0) : Float).isNaN = false := by decide
  have hend : endTime jobs changes =
      (knownTimes jobs changes).foldl Number.larger (-(1.0 / 0.0)) := rfl
  rw [hend, Number.lt_foldl_larger_iff hbottom h]
  simp [Number.not_lt_bottom]

/-- The tile of a spell, if its state has a role and the window shows some of it. -/
def roleTile? (roles : Roles) (window : Window) (s : Spell) : Option Tile :=
  (roles.classify s.state).bind fun role =>
    (window.clip? s.start s.stop).map fun x =>
      { x, y := (Float.ofNat s.machine, Float.ofNat s.machine + 1.0), tint := .role role }

def Layer.ownsTile (l : Layer) (role : Role) : Bool :=
  l.tiles.any fun x => decide (x.tint = .role role)

/-- Each role of the legend is marked just when it has a tile. -/
def Layer.Marked (l : Layer) : Prop :=
  l.drawn = roleOrder.map l.ownsTile

theorem Layer.draw_tiles (l : Layer) (s : Spell) :
    (l.draw roles window s).tiles = (roleTile? roles window s).toList ++ l.tiles := by
  unfold draw roleTile?
  cases roles.classify s.state with
  | none => rfl
  | some role => cases window.clip? s.start s.stop <;> rfl

theorem exists_slot (role : Role) : ∃ slot, roleOrder.idxOf? role = some slot ∧
    ∀ owns : Role → Bool, (roleOrder.map owns).set slot true =
      roleOrder.map fun r => decide (role = r) || owns r := by
  cases role with
  | off => exact ⟨0, rfl, fun owns => by simp [roleOrder]⟩
  | switchingOn => exact ⟨1, rfl, fun owns => by simp [roleOrder]⟩
  | switchingOff => exact ⟨2, rfl, fun owns => by simp [roleOrder]⟩

theorem Layer.Marked.draw {l : Layer} (h : l.Marked) (s : Spell) :
    (l.draw roles window s).Marked := by
  unfold Layer.draw
  cases roles.classify s.state with
  | none => exact h
  | some role =>
    cases window.clip? s.start s.stop with
    | none => exact h
    | some x =>
      obtain ⟨slot, hslot, hmark⟩ := exists_slot role
      unfold Marked at h ⊢
      dsimp only
      rw [hslot, h]
      dsimp only
      rw [hmark]
      simp [ownsTile]

theorem Layer.foldl_draw_tiles (l : Layer) (ss : List Spell) :
    (ss.foldl (draw roles window) l).tiles.reverse =
      l.tiles.reverse ++ ss.filterMap (roleTile? roles window) := by
  induction ss generalizing l with
  | nil => simp
  | cons s ss ih =>
    rw [List.foldl_cons, ih, draw_tiles, List.filterMap_cons]
    cases roleTile? roles window s <;> simp

theorem Layer.Marked.foldl_draw {l : Layer} (h : l.Marked) (ss : List Spell) :
    (ss.foldl (Layer.draw roles window) l).Marked := by
  induction ss generalizing l with
  | nil => exact h
  | cons s ss ih => exact ih (h.draw s)

theorem Layer.Marked.entries {l : Layer} (h : l.Marked) :
    l.entries =
      (roleOrder.filter l.ownsTile).map fun role => ⟨role.label, .role role, .square⟩ := by
  have hzip : roleOrder.zip l.drawn = roleOrder.map fun role => (role, l.ownsTile role) := by
    have hpairs := @List.zip_map' _ _ _ id l.ownsTile roleOrder
    rwa [List.map_id, ← h] at hpairs
  rw [Layer.entries, hzip, List.filter_map, List.map_map]
  rfl

theorem roleTile?_covers_iff (hroles : roles.Apart) (hwindow : window.Proper) {s : Spell}
    (hlength : s.start < s.stop) (hmachine : s.machine ≤ Resource.maxId) {k : Nat}
    (hk : k ≤ Resource.maxId) (role : Role) (t : Float) :
    (∃ x, roleTile? roles window s = some x ∧ x.tint = .role role ∧ x.Covers t (Float.ofNat k)) ↔
      s.state ∈ roles.states role ∧ (s.machine = k ∧ s.Covers t) ∧ window.Shows t := by
  obtain ⟨hstart, hstop, -⟩ := Number.lt_iff.mp hlength
  unfold Resource.maxId at hmachine hk
  have hy : Float.ofNat s.machine ≤ Float.ofNat k ∧ Float.ofNat k < Float.ofNat s.machine + 1.0 ↔
      s.machine = k := by
    rw [Number.ofNat_le_ofNat (by omega) (by omega),
      Number.ofNat_lt_ofNat_add_one (by omega) (by omega)]
    omega
  have hclip := Window.clip?_covers_iff hwindow hstart hstop (t := t)
  rw [← Roles.classify_eq_some_iff hroles]
  constructor
  · rintro ⟨x, hx, htint, ht, hyk⟩
    obtain ⟨owner, howner, hx⟩ := Option.bind_eq_some_iff.mp hx
    obtain ⟨span, hspan, rfl⟩ := Option.map_eq_some_iff.mp hx
    cases htint
    obtain ⟨hcovers, hshows⟩ := hclip.mp ⟨span, hspan, ht⟩
    exact ⟨howner, ⟨hy.mp hyk, hcovers⟩, hshows⟩
  · rintro ⟨hrole, ⟨hm, hcovers⟩, hshows⟩
    obtain ⟨span, hspan, ht⟩ := hclip.mpr ⟨hcovers, hshows⟩
    have htile : roleTile? roles window s = some
        { x := span, y := (Float.ofNat s.machine, Float.ofNat s.machine + 1.0),
          tint := .role role } := by
      simp [roleTile?, hrole, hspan]
    exact ⟨_, htile, rfl, ht, hy.mpr hm⟩

theorem covering_states_until_end (h : ∀ u ∈ knownTimes jobs changes, u.isNaN = false) (k : Nat)
    (t : Float) :
    ((spells changes (endTime jobs changes)).filter
        fun s => decide (s.machine = k ∧ s.Covers t)).map (·.state) =
      if ∃ u ∈ knownTimes jobs changes, t < u then
        ((lastChange? changes k t).map (·.state)).toList
      else [] := by
  have htime : ∀ c ∈ changes, c.time ∈ knownTimes jobs changes := fun c hc =>
    List.mem_append_right _ (List.mem_map_of_mem hc)
  rw [covering_states (fun c hc => h c.time (htime c hc))]
  congr 1
  rw [lt_endTime_iff h, eq_iff_iff]
  exact or_iff_left_of_imp fun ⟨c, hc, _, ht⟩ => ⟨c.time, htime c hc, ht⟩

/-- The last change of the machine led to a state of the role, a finish or change is still to come,
and the window shows the time. -/
structure InRole (roles : Roles) (window : Window) (jobs : List Job) (changes : List Change)
    (role : Role) (k : Nat) (t : Float) : Prop where
  state : ∃ c, lastChange? changes k t = some c ∧ c.state ∈ roles.states role
  pending : ∃ u ∈ knownTimes jobs changes, t < u
  shown : window.Shows t

def countRole (tiles : List Tile) (role : Role) (k : Nat) (t : Float) : Nat :=
  tiles.countP fun x => decide (x.tint = .role role ∧ x.Covers t (Float.ofNat k))

/-- The log names only machines whose ids there are. -/
def MachinesFit (changes : List Change) : Prop :=
  ∀ c ∈ changes, ∀ k ∈ c.machines.ids, k ≤ Resource.maxId

section Count

variable (hroles : roles.Apart) (hwindow : window.Proper) (hfit : MachinesFit changes) {k : Nat}
  (hk : k ≤ Resource.maxId) (role : Role) {t : Float}

include hroles hwindow hfit hk

theorem tile_of_spell_iff {stop : Float} {s : Spell} (hs : s ∈ spells changes stop) :
    (∃ x, roleTile? roles window s = some x ∧ x.tint = .role role ∧ x.Covers t (Float.ofNat k)) ↔
      s.state ∈ roles.states role ∧ (s.machine = k ∧ s.Covers t) ∧ window.Shows t := by
  obtain ⟨c, hc, hm⟩ := exists_change_of_mem_spells hs
  exact roleTile?_covers_iff hroles hwindow (start_lt_stop_of_mem_spells hs) (hfit c hc _ hm) hk
    role t

theorem countRole_of_shows (htimes : ∀ u ∈ knownTimes jobs changes, u.isNaN = false)
    (hshows : window.Shows t) :
    countRole ((spells changes (endTime jobs changes)).filterMap (roleTile? roles window))
        role k t =
      (if ∃ u ∈ knownTimes jobs changes, t < u then
        ((lastChange? changes k t).map (·.state)).toList
      else []).countP fun p => decide (p ∈ roles.states role) := by
  have hspell : ∀ s ∈ spells changes (endTime jobs changes),
      (((roleTile? roles window s).map fun x =>
        decide (x.tint = .role role ∧ x.Covers t (Float.ofNat k))).getD false = true ↔
      (decide (s.state ∈ roles.states role) && decide (s.machine = k ∧ s.Covers t)) = true) := by
    intro s hs
    have hiff := tile_of_spell_iff hroles hwindow hfit hk role hs (t := t)
    simp only [hshows, and_true] at hiff
    rw [Bool.and_eq_true, decide_eq_true_eq, decide_eq_true_eq, ← hiff]
    cases roleTile? roles window s <;> simp
  rw [countRole, List.countP_filterMap, List.countP_congr hspell, ← List.countP_filter,
    ← covering_states_until_end htimes, List.countP_map]
  rfl

theorem countRole_of_not_shows (stop : Float) (hshows : ¬ window.Shows t) :
    countRole ((spells changes stop).filterMap (roleTile? roles window)) role k t = 0 := by
  rw [countRole, List.countP_eq_zero]
  intro x hx hcovers
  obtain ⟨s, hs, hx⟩ := List.mem_filterMap.mp hx
  have htile := (tile_of_spell_iff hroles hwindow hfit hk role hs).mp
    ⟨x, hx, of_decide_eq_true hcovers⟩
  exact hshows htile.2.2

theorem countRole_spells (htimes : ∀ u ∈ knownTimes jobs changes, u.isNaN = false) :
    (InRole roles window jobs changes role k t →
      countRole ((spells changes (endTime jobs changes)).filterMap (roleTile? roles window))
        role k t = 1) ∧
    (¬ InRole roles window jobs changes role k t →
      countRole ((spells changes (endTime jobs changes)).filterMap (roleTile? roles window))
        role k t = 0) := by
  -- Outside the window no spell has a tile, so the last change does not matter there.
  by_cases hshows : window.Shows t
  · rw [countRole_of_shows hroles hwindow hfit hk role htimes hshows]
    constructor
    · rintro ⟨⟨c, hc, hstate⟩, hpending, -⟩
      rw [if_pos hpending, hc]
      simp [hstate]
    · intro hout
      rw [List.countP_eq_zero]
      intro p hp hstate
      split at hp
      · next hpending =>
        obtain ⟨c, hc, rfl⟩ := Option.map_eq_some_iff.mp (Option.mem_toList.mp hp)
        exact hout ⟨⟨c, hc, of_decide_eq_true hstate⟩, hpending, hshows⟩
      · cases hp
  · have hnone := countRole_of_not_shows hroles hwindow hfit hk role (endTime jobs changes) hshows
    exact ⟨fun hin => absurd hin.shown hshows, fun _ => hnone⟩

end Count

theorem tint_of_mem_jobTiles {i : Nat} {j : Job} {x : Tile} (h : x ∈ jobTiles window i j) :
    x.tint = .job i := by
  unfold jobTiles at h
  split at h
  · simp at h
  · obtain ⟨r, -, rfl⟩ := List.mem_map.mp h
    rfl

theorem tint_of_mem_allJobTiles {x : Tile} (h : x ∈ allJobTiles window jobs) :
    ∃ i, x.tint = .job i := by
  obtain ⟨⟨j, i⟩, -, hx⟩ := List.mem_flatMap.mp h
  exact ⟨i, tint_of_mem_jobTiles hx⟩

theorem tint_of_roleTile? {s : Spell} {x : Tile} (h : roleTile? roles window s = some x) :
    ∃ role, x.tint = .role role := by
  obtain ⟨role, -, hx⟩ := Option.bind_eq_some_iff.mp h
  obtain ⟨span, -, rfl⟩ := Option.map_eq_some_iff.mp hx
  exact ⟨role, rfl⟩

theorem tint_ne_role_of_mem_allJobTiles {x : Tile} (h : x ∈ allJobTiles window jobs) (role : Role) :
    x.tint ≠ .role role := by
  obtain ⟨i, hi⟩ := tint_of_mem_allJobTiles h
  simp [hi]

theorem countRole_jobTiles (role : Role) (k : Nat) (t : Float) :
    countRole (allJobTiles window jobs) role k t = 0 := by
  rw [countRole, List.countP_eq_zero]
  intro x hx hrole
  exact tint_ne_role_of_mem_allJobTiles hx role (of_decide_eq_true hrole).1

section Panel

variable {data : RunData}

theorem panel_tiles (hchanges : data.changes = some changes) :
    (panel roles window data).tiles =
      (spells changes (endTime (data.jobs.getD []) changes)).filterMap (roleTile? roles window) ++
        allJobTiles window (data.jobs.getD []) := by
  unfold panel
  rw [hchanges]
  dsimp only
  rw [stateLayer, Layer.foldl_draw_tiles]
  rfl

theorem panel_legend (hchanges : data.changes = some changes) :
    (panel roles window data).legend =
      (roleOrder.filter fun role =>
        (panel roles window data).tiles.any fun x => decide (x.tint = .role role)).map
        fun role => ⟨role.label, .role role, .square⟩ := by
  have hmarked : (stateLayer roles window (data.jobs.getD []) changes).Marked :=
    Layer.Marked.foldl_draw (l := {}) rfl _
  have howns (role : Role) : (stateLayer roles window (data.jobs.getD []) changes).ownsTile role =
      (panel roles window data).tiles.any fun x => decide (x.tint = .role role) := by
    have hjobs : ((allJobTiles window (data.jobs.getD [])).any
        fun x => decide (x.tint = .role role)) = false := by
      rw [List.any_eq_false]
      intro x hx hrole
      exact tint_ne_role_of_mem_allJobTiles hx role (of_decide_eq_true hrole)
    rw [panel_tiles hchanges, List.any_append, hjobs, Bool.or_false, Layer.ownsTile,
      ← List.any_reverse, stateLayer, Layer.foldl_draw_tiles]
    rfl
  have hlegend : (panel roles window data).legend =
      (stateLayer roles window (data.jobs.getD []) changes).entries := by
    unfold panel
    rw [hchanges]
  rw [hlegend, hmarked.entries, List.filter_congr fun role _ => howns role]

/-- Where a machine is in a role it has one tile of that role, and elsewhere none; these tiles lie
below those of the jobs, and the legend names the roles that have a tile. -/
theorem role_tiles_follow_last_change (data : RunData) {given : Roles}
    (hroles : given.check = .ok roles) (hchanges : data.changes = some changes)
    (hwindow : window.Proper)
    (htimes : ∀ u ∈ knownTimes (data.jobs.getD []) changes, u.isNaN = false)
    (hfit : MachinesFit changes) :
    (∀ role k t, k ≤ Resource.maxId →
      (InRole roles window (data.jobs.getD []) changes role k t →
        countRole (panel roles window data).tiles role k t = 1) ∧
      (¬ InRole roles window (data.jobs.getD []) changes role k t →
        countRole (panel roles window data).tiles role k t = 0)) ∧
    (∃ below above, (panel roles window data).tiles = below ++ above ∧
      (∀ x ∈ below, ∃ role, x.tint = .role role) ∧ ∀ x ∈ above, ∃ i, x.tint = .job i) ∧
    (panel roles window data).legend =
      ([Role.off, .switchingOn, .switchingOff].filter fun role =>
        (panel roles window data).tiles.any fun x => decide (x.tint = .role role)).map
        fun role => ⟨role.label, .role role, .square⟩ := by
  obtain ⟨rfl, hapart⟩ := Roles.check_eq_ok_iff.mp hroles
  refine ⟨fun role k t hk => ?_, ⟨_, _, panel_tiles hchanges, fun x hx => ?_, fun x hx => ?_⟩,
    panel_legend hchanges⟩
  · rw [panel_tiles hchanges, countRole, List.countP_append, ← countRole, ← countRole,
      countRole_jobTiles, Nat.add_zero]
    exact countRole_spells hapart hwindow hfit hk role htimes
  · obtain ⟨s, -, hs⟩ := List.mem_filterMap.mp hx
    exact tint_of_roleTile? hs
  · exact tint_of_mem_allJobTiles hx

end Panel

def tiedRun : RunData :=
  { name := "tied", jobs := some [{ finish := some 30.0 }], changes := some tiedLog }

theorem tiedRun_has_one_off_tile :
    (Roles.check ⟨[13], [14], [15]⟩ = .ok ⟨[13], [14], [15]⟩ ∧
      Window.Proper ⟨some 12.0, some 20.0⟩ ∧
      (∀ u ∈ knownTimes [{ finish := some 30.0 }] tiedLog, u.isNaN = false) ∧
      MachinesFit tiedLog) ∧
    countRole (panel ⟨[13], [14], [15]⟩ ⟨some 12.0, some 20.0⟩ tiedRun).tiles .off 1 15.0 = 1 := by
  have hroles : Roles.check ⟨[13], [14], [15]⟩ = .ok ⟨[13], [14], [15]⟩ := rfl
  have htimes : ∀ u ∈ knownTimes [{ finish := some 30.0 }] tiedLog, u.isNaN = false := by decide
  have hfit : MachinesFit tiedLog := by
    unfold MachinesFit Resource.maxId
    decide
  have hwindow : Window.Proper ⟨some 12.0, some 20.0⟩ :=
    ⟨fun lo hlo => by cases hlo; decide, fun hi hhi => by cases hhi; decide⟩
  have hlast : (lastChange? tiedLog 1 15.0).map (·.state) = some 13 := by
    rw [lastChange?, chronological_tiedLog]
    decide
  obtain ⟨c, hc, hstate⟩ := Option.map_eq_some_iff.mp hlast
  have hin : InRole ⟨[13], [14], [15]⟩ ⟨some 12.0, some 20.0⟩ [{ finish := some 30.0 }] tiedLog
      .off 1 15.0 := by
    refine ⟨⟨c, hc, by simp [hstate, Roles.states]⟩, by decide,
      ⟨fun lo hlo => by cases hlo; decide, fun hi hhi => by cases hhi; decide⟩⟩
  have hk : 1 ≤ Resource.maxId := by decide
  exact ⟨⟨hroles, hwindow, htimes, hfit⟩, ((role_tiles_follow_last_change tiedRun hroles rfl
    hwindow htimes hfit).1 .off 1 15.0 hk).1 hin⟩

end Gantt

end TracePlot
