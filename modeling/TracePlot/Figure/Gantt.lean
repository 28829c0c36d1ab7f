import TracePlot.Figure.Panel
import TracePlot.Run.Data

/-! Gantt charts: the jobs of an instance as tiles over machines and time, drawn above the spells
that machines were off or switching. -/

namespace TracePlot.Gantt

def jobTiles (window : Window) (index : Nat) (j : Job) : List Tile :=
  match j.span?.bind fun (start, finish) => window.clip? start finish with
  | none => []
  | some x =>
    j.resources.ranges.map fun r =>
      { x, y := (Float.ofNat r.first, Float.ofNat r.last + 1.0), tint := .job index }

def allJobTiles (window : Window) (jobs : List Job) : List Tile :=
  jobs.zipIdx.flatMap fun (j, i) => jobTiles window i j

/-- The latest time of any finish or change. -/
def endTime (jobs : List Job) (changes : List PowerState.Change) : Float :=
  (jobs.filterMap (·.finish) ++ changes.map (·.time)).foldl Number.larger (-(1.0 / 0.0))

def roleOrder : List PowerState.Role :=
  [.off, .switchingOn, .switchingOff]

/-- The tiles drawn so far, latest first, and for each role of the legend whether it has one. -/
structure Layer where
  tiles : List Tile := []
  drawn : List Bool := roleOrder.map fun _ => false

namespace Layer

/-- Draws a spell in a state that has a role, as far as it is in the window. -/
def draw (roles : PowerState.Roles) (window : Window) (l : Layer) (s : PowerState.Spell) : Layer :=
  match roles.classify s.state with
  | none => l
  | some role =>
    match window.clip? s.start s.stop with
    | none => l
    | some x =>
      let machine := Float.ofNat s.machine
      { tiles := { x, y := (machine, machine + 1.0), tint := .role role } :: l.tiles
        drawn := match roleOrder.idxOf? role with
          | some slot => l.drawn.set slot true
          | none => l.drawn }

def entries (l : Layer) : List LegendEntry :=
  ((roleOrder.zip l.drawn).filter (·.2)).map fun (r, _) => ⟨r.label, .role r, .square⟩

end Layer

/-- The spells of all machines, drawn up to the latest time known. -/
def stateLayer (roles : PowerState.Roles) (window : Window) (jobs : List Job)
    (changes : List PowerState.Change) : Layer :=
  (PowerState.spells changes (endTime jobs changes)).foldl (Layer.draw roles window) {}

def panel (roles : PowerState.Roles) (window : Window) (data : RunData) : Panel :=
  let jobs := data.jobs.getD []
  let states : Layer := match data.changes with
    | some changes => stateLayer roles window jobs changes
    | none => {}
  { title := "Gantt chart: " ++ data.name
    yTitle := some "Machines"
    tiles := states.tiles.reverse ++ allJobTiles window jobs
    legend := states.entries }

end TracePlot.Gantt
