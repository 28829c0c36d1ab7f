import TracePlot.Number.Format
import TracePlot.Run.Data
import TracePlot.Text.Lines

/-! Key figures of the instances and the report of them. -/

namespace TracePlot

/-- The key figures of an instance; one is missing where its records are or are too few. -/
structure Summary where
  name : String
  jobs : Option Nat := none
  rejected : Option Nat := none
  meanWait : Option Float := none
  maxWait : Option Float := none
  energy : Option Float := none
  meanPower : Option Float := none
  peakPower : Option Float := none
  peakHorizon : Option Float := none
  deriving Inhabited

/-- The mean, summed from the front. -/
def mean? (values : List Float) : Option Float :=
  if values.isEmpty then none
  else some (values.foldl (· + ·) (-0.0) / Float.ofNat values.length)

namespace Summary

def energyUsed? (rs : List Energy.Reading) : Option Float :=
  match rs.head?, rs.getLast? with
  | some first, some last => some (last.energy - first.energy)
  | _, _ => none

def meanPower? (rs : List Energy.Reading) : Option Float :=
  match rs.head?, rs.getLast? with
  | some first, some last =>
    let duration := last.time - first.time
    if 0.0 < duration then some ((last.energy - first.energy) / duration) else none
  | _, _ => none

/-- Summarises an instance; of its jobs those submitted inside the window count. -/
def ofData (window : Window) (d : RunData) : Summary :=
  let jobs := d.jobs.map (·.filter fun j => window.contains j.submission)
  let waits := ((jobs.getD []).filter fun j => !j.isRejected).filterMap (·.waiting)
  { name := d.name
    jobs := jobs.map (·.length)
    rejected := jobs.map fun js => (js.filter Job.isRejected).length
    meanWait := mean? waits
    maxWait := Number.largest? waits
    energy := d.energy.bind energyUsed?
    meanPower := d.energy.bind meanPower?
    peakPower := d.power.bind fun power => Number.largest? (power.map (·.power))
    peakHorizon := d.queue.bind fun samples =>
      Number.largest? (samples.filterMap (·.loadHorizon)) }

def amountText (unit : String) : Option Float → String
  | some x => Number.amount x ++ " " ++ unit
  | none => "n/a"

def jobLines (s : Summary) : List String :=
  match s.jobs, s.rejected with
  | some jobs, some rejected =>
    ["  Jobs: " ++ Number.grouped jobs ++ " (" ++ Number.grouped rejected ++ " rejected)",
      "  Waiting time: mean " ++ amountText "s" s.meanWait ++ ", max " ++
        amountText "s" s.maxWait]
  | _, _ => []

def energyLines (s : Summary) : List String :=
  if s.energy.isSome then
    ["  Energy consumed: " ++ amountText "J" s.energy,
      "  Power: mean " ++ amountText "W" s.meanPower ++ ", peak " ++ amountText "W" s.peakPower]
  else []

def horizonLines (s : Summary) : List String :=
  if s.peakHorizon.isSome then ["  Peak LLH: " ++ amountText "s" s.peakHorizon] else []

def lines (s : Summary) : List String :=
  [s.name ++ ":"] ++ s.jobLines ++ s.energyLines ++ s.horizonLines ++ [""]

def ruler : String :=
  Text.repeated 60 "="

def report (summaries : List Summary) : List String :=
  [ruler, "                      RUN SUMMARY", ruler] ++ summaries.flatMap lines ++ [ruler]

/-- The report as it is printed, after an empty line. -/
def printed (window : Window) (data : List RunData) : List String :=
  "" :: report (data.map (ofData window))

end Summary

end TracePlot
