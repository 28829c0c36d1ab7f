import TracePlot.Figure.Panel
import TracePlot.Run.Data

/-! Panels of curves over time, one or two for each instance. -/

namespace TracePlot.Curves

/-- The series that each instance gives, in order of the instances. -/
def perRun (data : List RunData) (series : Nat → RunData → List Series) : List Series :=
  data.zipIdx.flatMap fun (d, i) => series i d

def powerSeries (i : Nat) (d : RunData) : List Series :=
  match d.power with
  | none => []
  | some power =>
    [{ style := .stepPre, tint := .run i, points := power.map fun p => (p.time, p.power)
       label := some d.name }]

def powerPanel (data : List RunData) : Panel :=
  ({ title := "Power (W)" } : Panel).addAll (perRun data powerSeries)

def energySeries (i : Nat) (d : RunData) : List Series :=
  match d.energy with
  | none => []
  | some energy =>
    [{ style := .line, tint := .run i, points := energy.map fun r => (r.time, r.energy)
       label := some d.name }]

def energyPanel (data : List RunData) : Panel :=
  ({ title := "Energy (J)" } : Panel).addAll (perRun data energySeries)

/-- The samples that have a value of the measure. -/
def measurePoints (samples : List Queue.Sample) (m : Queue.Measure) : List Point :=
  samples.filterMap fun s => (s.value? m).map fun v => (s.date, v)

def waitPoints (window : Window) (jobs : List Job) : List Point :=
  (jobs.filter fun j => window.contains j.submission).filterMap fun j =>
    j.waiting.map fun w => (j.submission, w)

/-- A horizontal line at the bound over all dates of all samples. -/
def boundSeries (data : List RunData) (label : String) (bound : Option Float) : List Series :=
  match bound, Number.bounds? ((data.filterMap (·.queue)).flatten.map (·.date)) with
  | some bound, some (first, last) =>
    [{ style := .line, tint := .reference, points := [(first, bound), (last, bound)]
       label := some (label ++ " (" ++ Number.label bound ++ ")"), stroke := 2 }]
  | _, _ => []

def horizonSeries (window : Window) (i : Nat) (d : RunData) : List Series :=
  (match d.queue with
    | none => []
    | some samples =>
      [{ style := .line, tint := .run i, points := measurePoints samples .loadHorizon
         label := some (d.name ++ " LLH (s)") }]) ++
  match d.jobs with
  | none => []
  | some jobs =>
    [{ style := .scatter, tint := .run i, points := waitPoints window jobs
       label := some (d.name ++ " Waiting Time (s)") }]

/-- The liquid load horizon against the waiting times that jobs came to have. -/
def horizonPanel (window : Window) (bound : Option Float) (data : List RunData) : Panel :=
  ({ title := "Unresponsiveness estimation" } : Panel).addAll
    (perRun data (horizonSeries window) ++ boundSeries data "LLH bound" bound)

def queueSeries (m : Queue.Measure) (i : Nat) (d : RunData) : List Series :=
  match d.queue with
  | none => []
  | some samples =>
    [{ style := .stepPost, tint := .run i, points := measurePoints samples m
       label := some d.name }]

def queuePanel (title : String) (m : Queue.Measure) (bound : Option Float)
    (data : List RunData) : Panel :=
  ({ title } : Panel).addAll (perRun data (queueSeries m) ++ boundSeries data "Bound" bound)

end TracePlot.Curves
