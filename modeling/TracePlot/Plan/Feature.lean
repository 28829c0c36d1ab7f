import TracePlot.Records.Queue

/-! The kinds of panels that can be asked for, and the lists of files they are drawn from. -/

namespace TracePlot

inductive Feature where
  | gantt
  | power
  | energy
  | unresponsiveness
  | loadInQueue
  | jobsInQueue
  | priorityJobSize
  | priorityJobWait
  | priorityJobImminence
  deriving Repr, DecidableEq, Inhabited

inductive Source where
  | jobs
  | energy
  | queue
  deriving Repr, DecidableEq, Inhabited

def Source.flag : Source → String
  | .jobs => "jobsCSV"
  | .energy => "energyCSV"
  | .queue => "llhCSV"

namespace Feature

def all : List Feature :=
  [.gantt, .power, .energy, .unresponsiveness, .loadInQueue, .jobsInQueue, .priorityJobSize,
    .priorityJobWait, .priorityJobImminence]

def flag : Feature → String
  | .gantt => "gantt"
  | .power => "power"
  | .energy => "energy"
  | .unresponsiveness => "llh"
  | .loadInQueue => "load-in-queue"
  | .jobsInQueue => "nb-jobs-in-queue"
  | .priorityJobSize => "priority-job-size"
  | .priorityJobWait => "priority-job-expected-waiting-time"
  | .priorityJobImminence => "priority-job-starting-expected-soon"

def source : Feature → Source
  | .gantt => .jobs
  | .power => .energy
  | .energy => .energy
  | _ => .queue

/-- What is measured of the queue, for the panels that show it. -/
def measure? : Feature → Option Queue.Measure
  | .gantt => none
  | .power => none
  | .energy => none
  | .unresponsiveness => some .loadHorizon
  | .loadInQueue => some .load
  | .jobsInQueue => some .jobs
  | .priorityJobSize => some .priorityJobSize
  | .priorityJobWait => some .priorityJobWait
  | .priorityJobImminence => some .priorityJobStartsSoon

theorem source_eq_queue_iff {f : Feature} : f.source = .queue ↔ ∃ m, f.measure? = some m := by
  cases f <;> simp [source, measure?]

def widensLegend : Feature → Bool
  | .power => true
  | .energy => true
  | .unresponsiveness => true
  | _ => false

end Feature

end TracePlot
