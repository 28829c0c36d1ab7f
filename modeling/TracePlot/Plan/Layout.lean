import TracePlot.Plan.Config

/-! Planning a figure: a configuration is either refused or laid out as a stack of panels. No
file is read for it. -/

namespace TracePlot

structure Instance where
  name : String
  jobs : Option String
  changes : Option String
  energy : Option String
  queue : Option String
  deriving Repr, DecidableEq, Inhabited

/-- A panel to be drawn. A Gantt chart shows one instance and the other panels show all. -/
structure PanelSpec where
  feature : Feature
  shown : Option Nat := none
  deriving Repr, DecidableEq, Inhabited

/-- Borders of the plots as fractions of the figure; the legends start at the right one. -/
structure Margins where
  left : Float := 0.05
  right : Float := 0.95
  top : Float := 0.95
  bottom : Float := 0.05
  deriving Inhabited

structure Layout where
  panels : List PanelSpec
  instances : List Instance
  roles : PowerState.Roles
  margins : Margins
  deriving Inhabited

inductive Plan where
  /-- Nothing was asked for, which is no failure. -/
  | nothing
  | draw (layout : Layout)
  deriving Inhabited

namespace Config

/-- Refuses the first requested feature that has no file. -/
def checkSources (c : Config) : Except Failure Unit :=
  match c.requested.find? fun f => (c.sources.of f.source).isEmpty with
  | some f => .error (.missingSource f.flag f.source.flag)
  | none => .ok ()

/-- The length of the first list that is not empty, which the lists after it have to share. -/
def commonCount : List (String × Nat) → Except Failure Nat
  | [] => .ok 0
  | (name, count) :: rest =>
    if count = 0 then commonCount rest
    else
      match rest.find? fun (_, other) => other ≠ 0 && other ≠ count with
      | some (other, found) => .error (.instanceCount other found name count)
      | none => .ok count

/-- The number of instances. Logs of changes have to match the lists of jobs. -/
def instanceCount (c : Config) : Except Failure Nat :=
  let s := c.sources
  if !s.jobs.isEmpty && !s.changes.isEmpty && s.changes.length ≠ s.jobs.length then
    .error (.instanceCount "pstatesCSV" s.changes.length "jobsCSV" s.jobs.length)
  else
    commonCount
      ([Source.jobs, .energy, .queue].map fun source => (source.flag, (s.of source).length))

def panelsOf (count : Nat) : Feature → List PanelSpec
  | .gantt => (List.range count).map fun i => ⟨.gantt, some i⟩
  | f => [⟨f, none⟩]

def margins (c : Config) : Margins :=
  let right := if c.requested.any Feature.widensLegend then 0.85 else 0.95
  { right := c.right.getD right }

def instances (c : Config) : List Instance :=
  let s := c.sources
  c.names.zipIdx.map fun (name, i) => ⟨name, s.jobs[i]?, s.changes[i]?, s.energy[i]?, s.queue[i]?⟩

/-- Plans the figure. Of several faults that of the earliest check is reported: roles, files,
counts, names. -/
def plan (c : Config) : Except Failure Plan := do
  let roles ← c.roles.check
  c.checkSources
  let count ← c.instanceCount
  if c.requested.isEmpty then pure .nothing
  else if c.names.length ≠ count then .error (.nameCount c.names.length count)
  else
    pure (.draw {
      panels := c.requested.flatMap (panelsOf count)
      instances := c.instances
      roles
      margins := c.margins })

end Config

end TracePlot
