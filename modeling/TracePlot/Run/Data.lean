import TracePlot.Failure
import TracePlot.Plan.Layout
import TracePlot.Records.Energy
import TracePlot.Records.Job

/-! The records of the instances, read from those of their files that somebody looks at. -/

namespace TracePlot

/-- The records of one instance; a list that was not read is missing. -/
structure RunData where
  name : String
  jobs : Option (List Job) := none
  changes : Option (List PowerState.Change) := none
  energy : Option (List Energy.Reading) := none
  power : Option (List Energy.Power) := none
  queue : Option (List Queue.Sample) := none
  deriving Inhabited

namespace Config

def wantsJobs (c : Config) : Bool :=
  c.features.contains .gantt || c.features.contains .unresponsiveness || c.summary

def wantsChanges (c : Config) : Bool :=
  c.features.contains .gantt

/-- What is shown of the queue, in the order of the panels. -/
def measures (c : Config) : List Queue.Measure :=
  c.requested.filterMap Feature.measure?

def wantsQueue (c : Config) : Bool :=
  !c.measures.isEmpty || c.summary

end Config

/-- Reads a file if there is one and it is wanted. -/
def Files.loadOptional {α : Type} (files : Files) (wanted : Bool)
    (read : List UInt8 → Except Table.Fault α) (path : Option String) :
    Except Failure (Option α) :=
  match path with
  | some path => if wanted then (files.load read path).map some else .ok none
  | none => .ok none

/-- Reads the files of an instance in the order jobs, changes, energy, queue. -/
def Files.loadInstance (files : Files) (c : Config) (i : Instance) : Except Failure RunData := do
  let jobs ← files.loadOptional c.wantsJobs Job.readAll i.jobs
  let changes ← files.loadOptional c.wantsChanges PowerState.Change.readAll i.changes
  let energy ← files.loadOptional true (Energy.readAll c.window) i.energy
  let queue ← files.loadOptional c.wantsQueue (Queue.readAll c.window c.measures) i.queue
  pure { name := i.name, jobs, changes, energy, power := energy.map Energy.power, queue }

def Files.loadAll (files : Files) (c : Config) (layout : Layout) :
    Except Failure (List RunData) :=
  layout.instances.mapM (files.loadInstance c)

end TracePlot
