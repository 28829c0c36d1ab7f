import TracePlot.Table.Rows

/-! Jobs of a run, one row each. -/

namespace TracePlot

structure Job where
  id : String := ""
  submission : Float := 0.0
  waiting : Option Float := none
  starting : Option Float := none
  finish : Option Float := none
  resources : Resource.IdSet := {}
  deriving Inhabited

namespace Job

/-- A job without resources was rejected. -/
def isRejected (j : Job) : Bool :=
  j.resources.isEmpty

/-- The times between which the job held its resources. -/
def span? (j : Job) : Option (Float × Float) :=
  match j.starting, j.finish with
  | some start, some finish =>
    if start ≤ finish && !j.isRejected then some (start, finish) else none
  | _, _ => none

def required : List String :=
  ["job_id", "submission_time", "waiting_time", "allocated_resources"]

def columns : List (Table.Column Job) :=
  [.text "job_id" fun v j => { j with id := v },
    .number "submission_time" fun v j => { j with submission := v },
    .optional "waiting_time" fun v j => { j with waiting := v },
    .optional "starting_time" fun v j => { j with starting := v },
    .optional "finish_time" fun v j => { j with finish := v },
    .resources "allocated_resources" fun v j => { j with resources := v }]

def readAll (bytes : List UInt8) : Except Table.Fault (List Job) :=
  Table.readTable columns {} required bytes

end Job

end TracePlot
