import TracePlot.Table.Rows
import TracePlot.Window

/-! Energy used since the start of a run, and the mean power between two readings. -/

namespace TracePlot.Energy

/-- The energy in joules used up to a time. The time is kept as its word, which has the sign of a
NaN too. -/
structure Reading where
  timeWord : UInt64 := 0
  energy : Float := 0.0
  deriving Inhabited

def Reading.time (r : Reading) : Float :=
  Float.ofBits r.timeWord

def required : List String :=
  ["time", "energy"]

def columns : List (Table.Column Reading) :=
  [.word "time" fun v r => { r with timeWord := v },
    .number "energy" fun v r => { r with energy := v }]

def readAll (window : Window) (bytes : List UInt8) : Except Table.Fault (List Reading) :=
  (Table.readTable columns {} required bytes).map fun rs =>
    rs.filter fun r => window.contains r.time

/-- Keeps the first reading of each time not in `seen`; times are told apart by their words. -/
def firstsFrom (seen : List UInt64) : List Reading → List Reading
  | [] => []
  | r :: rest =>
    if seen.contains r.timeWord then firstsFrom seen rest
    else r :: firstsFrom (r.timeWord :: seen) rest

def firsts (rs : List Reading) : List Reading :=
  firstsFrom [] rs

/-- The mean power in watts over the time before `time`. -/
structure Power where
  time : Float
  power : Float
  deriving Inhabited

/-- The mean power between two readings, unless the quotient is not finite. -/
def meanPower? (before after : Reading) : Option Power :=
  let power := (after.energy - before.energy) / (after.time - before.time)
  if power.isFinite then some ⟨after.time, power⟩ else none

/-- The mean power between each reading and the next. -/
def differences : List Reading → List Power
  | before :: after :: rest =>
    (meanPower? before after).toList ++ differences (after :: rest)
  | _ => []

def power (rs : List Reading) : List Power :=
  differences (firsts rs)

end TracePlot.Energy
