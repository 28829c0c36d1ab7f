import TracePlot.Number.Order

/-! Time windows. Both bounds are part of the window, and a missing one does not restrict. -/

namespace TracePlot

structure Window where
  min : Option Float := none
  max : Option Float := none
  deriving Inhabited

namespace Window

def contains (w : Window) (time : Float) : Bool :=
  (match w.min with | some lo => lo ≤ time | none => true) &&
    (match w.max with | some hi => time ≤ hi | none => true)

/-- The part of the span inside the window, unless nothing of positive length is left. -/
def clip? (w : Window) (start stop : Float) : Option (Float × Float) :=
  let start := match w.min with | some lo => Number.larger start lo | none => start
  let stop := match w.max with | some hi => Number.smaller stop hi | none => stop
  if start < stop then some (start, stop) else none

end Window

end TracePlot
