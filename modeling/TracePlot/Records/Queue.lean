import TracePlot.Table.Rows
import TracePlot.Window

/-! Samples of the state of the queue. -/

namespace TracePlot.Queue

inductive Measure where
  | loadHorizon
  | load
  | jobs
  | priorityJobSize
  | priorityJobWait
  | priorityJobStartsSoon
  deriving Repr, DecidableEq, Inhabited

def Measure.all : List Measure :=
  [.loadHorizon, .load, .jobs, .priorityJobSize, .priorityJobWait, .priorityJobStartsSoon]

def Measure.column : Measure → String
  | .loadHorizon => "liquid_load_horizon"
  | .load => "load_in_queue"
  | .jobs => "nb_jobs_in_queue"
  | .priorityJobSize => "first_job_size"
  | .priorityJobWait => "priority_job_expected_waiting_time"
  | .priorityJobStartsSoon => "priority_job_starting_expected_soon"

structure Sample where
  date : Float := 0.0
  loadHorizon : Option Float := none
  load : Option Float := none
  jobs : Option Float := none
  priorityJobSize : Option Float := none
  priorityJobWait : Option Float := none
  priorityJobStartsSoon : Option Float := none
  deriving Inhabited

def Sample.value? (s : Sample) : Measure → Option Float
  | .loadHorizon => s.loadHorizon
  | .load => s.load
  | .jobs => s.jobs
  | .priorityJobSize => s.priorityJobSize
  | .priorityJobWait => s.priorityJobWait
  | .priorityJobStartsSoon => s.priorityJobStartsSoon

def columns : List (Table.Column Sample) :=
  [.number "date" fun v s => { s with date := v },
    .optional Measure.loadHorizon.column fun v s => { s with loadHorizon := v },
    .optional Measure.load.column fun v s => { s with load := v },
    .optional Measure.jobs.column fun v s => { s with jobs := v },
    .optional Measure.priorityJobSize.column fun v s => { s with priorityJobSize := v },
    .optional Measure.priorityJobWait.column fun v s => { s with priorityJobWait := v },
    .flag Measure.priorityJobStartsSoon.column fun v s => { s with priorityJobStartsSoon := v }]

/-- Reads the samples dated inside the window. The columns of the wanted measures have to be
there. -/
def readAll (window : Window) (wanted : List Measure) (bytes : List UInt8) :
    Except Table.Fault (List Sample) :=
  (Table.readTable columns {} ("date" :: wanted.map (·.column)) bytes).map fun samples =>
    samples.filter fun s => window.contains s.date

end TracePlot.Queue
