import Std.Data.TreeMap
import TracePlot.Failure
import TracePlot.Number.Order
import TracePlot.Table.Rows

/-! Power states of machines: the log of changes, the role of a state, and the spells that each
machine spent in one state. -/

namespace TracePlot.PowerState

/-- From a time on the machines are in the power state. The time is kept as its word, which has the
sign of a NaN too. -/
structure Change where
  timeWord : UInt64 := 0
  machines : Resource.IdSet := {}
  state : Int := 0
  deriving Inhabited

namespace Change

def time (c : Change) : Float :=
  Float.ofBits c.timeWord

def required : List String :=
  ["time", "machine_id", "new_pstate"]

def columns : List (Table.Column Change) :=
  [.word "time" fun v c => { c with timeWord := v },
    .resources "machine_id" fun v c => { c with machines := v },
    .integer "new_pstate" fun v c => { c with state := v }]

/-- Reads a whole log. The state of a machine depends on all changes before, so none is left
out. -/
def readAll (bytes : List UInt8) : Except Table.Fault (List Change) :=
  Table.readTable columns {} required bytes

end Change

inductive Role where
  | off
  | switchingOn
  | switchingOff
  deriving Repr, DecidableEq, Inhabited

def Role.label : Role → String
  | .off => "OFF"
  | .switchingOn => "Switching on"
  | .switchingOff => "Switching off"

/-- The states of each role, ascending and without repetition. -/
structure Roles where
  off : List Int := []
  switchOn : List Int := []
  switchOff : List Int := []
  deriving Repr, DecidableEq, Inhabited

/-- Adds a number to an ascending list unless it is there. -/
def insertState (s : Int) : List Int → List Int
  | [] => [s]
  | t :: rest =>
    if s < t then s :: t :: rest else if s = t then t :: rest else t :: insertState s rest

/-- The given states in ascending order, each once. -/
def stateSet (states : List Int) : List Int :=
  states.foldr insertState []

def shared (a b : List Int) : List Int :=
  a.filter b.contains

namespace Roles

/-- Accepts roles that share no state, and otherwise reports the first two that do. -/
def check (r : Roles) : Except Failure Roles :=
  let pairs :=
    [("off", r.off, "switchon", r.switchOn), ("off", r.off, "switchoff", r.switchOff),
      ("switchon", r.switchOn, "switchoff", r.switchOff)]
  match pairs.find? fun (_, a, _, b) => !(shared a b).isEmpty with
  | some (first, a, second, b) => .error (.powerStates first second (shared a b))
  | none => .ok r

def classify (r : Roles) (state : Int) : Option Role :=
  if r.off.contains state then some .off
  else if r.switchOn.contains state then some .switchingOn
  else if r.switchOff.contains state then some .switchingOff
  else none

end Roles

/-- A stretch of time that a machine spent in one state. -/
structure Spell where
  machine : Nat
  start : Float
  stop : Float
  state : Int
  deriving Inhabited

/-- The state of each machine mentioned so far, with the time it was entered. -/
abbrev Current := Std.TreeMap Nat (Int × Float)

/-- The spell ended at `stop`, if it has any length. -/
def endSpell? (machine : Nat) (entered : Int × Float) (stop : Float) : Option Spell :=
  if entered.2 < stop then some ⟨machine, entered.2, stop, entered.1⟩ else none

/-- Applies a change to one machine: the spell it ends, and the new states. -/
def switch (c : Change) (spells : List Spell) (current : Current) (machine : Nat) :
    List Spell × Current :=
  let ended := (current[machine]?).bind fun entered => endSpell? machine entered c.time
  (ended.toList ++ spells, current.insert machine (c.state, c.time))

/-- Applies a change; the spells ended so far are kept latest first. -/
def apply (done : List Spell × Current) (c : Change) : List Spell × Current :=
  c.machines.ids.foldl (fun (spells, current) m => switch c spells current m) done

/-- The changes in the total order of their times; those of one time stay in their order. -/
def chronological (changes : List Change) : List Change :=
  changes.mergeSort fun a b => Number.wordRankLE a.timeWord b.timeWord

/-- The spells of all machines, in the order in which they end. A machine stays in its last state
until `stop`; those last spells come in ascending order of machines. -/
def spells (changes : List Change) (stop : Float) : List Spell :=
  let (ended, current) := (chronological changes).foldl apply ([], ∅)
  ended.reverse ++ current.toList.filterMap fun (m, entered) => endSpell? m entered stop

end TracePlot.PowerState
