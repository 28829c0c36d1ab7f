/-! Messages about the progress of a command. -/

namespace TracePlot

inductive Log.Level where
  | error
  | warn
  | info
  deriving Repr, DecidableEq

def Log.Level.text : Log.Level → String
  | .error => "ERROR"
  | .warn => "WARN"
  | .info => "INFO"

inductive Log.Origin where
  | command
  | panels
  | drawing
  | histogram
  | allocation
  deriving Repr, DecidableEq

def Log.Origin.text : Log.Origin → String
  | .command => "batplot"
  | .panels => "batplot::render"
  | .drawing => "batplot::plot"
  | .histogram => "batplot::histogram"
  | .allocation => "batplot::verify"

structure Log where
  level : Log.Level
  origin : Log.Origin
  message : String
  deriving Repr, DecidableEq

end TracePlot
