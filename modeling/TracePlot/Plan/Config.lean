import TracePlot.Plan.Feature
import TracePlot.Records.PowerState

/-! What a plot is asked to show. -/

namespace TracePlot

/-- The files of the instances, list by list; the files at one position belong together. -/
structure Sources where
  jobs : List String := []
  changes : List String := []
  energy : List String := []
  queue : List String := []
  deriving Repr, DecidableEq, Inhabited

def Sources.of (s : Sources) : Source → List String
  | .jobs => s.jobs
  | .energy => s.energy
  | .queue => s.queue

structure Config where
  features : List Feature := []
  sources : Sources := {}
  names : List String := ["Unnamed"]
  roles : PowerState.Roles := {}
  horizonBound : Option Float := none
  waitBound : Option Float := none
  window : Window := {}
  right : Option Float := none
  summary : Bool := false
  deriving Inhabited

/-- The features asked for, in the order of their panels. -/
def Config.requested (c : Config) : List Feature :=
  Feature.all.filter c.features.contains

end TracePlot
