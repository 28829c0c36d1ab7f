import TracePlot.Command.Usage
import TracePlot.Plan.Config

/-! The commands and what their arguments mean. -/

namespace TracePlot.Command

def helpOption : Parameter :=
  { long := "help", short := some 'h' }

def outputOption : Parameter :=
  { long := "output", short := some 'o', arity := .exactly 1, kind := .path }

def filesOption (long : String) (short : Char) : Parameter :=
  { long, short := some short, arity := .several, kind := .path, appends := true }

def statesOption (long : String) : Parameter :=
  { long, arity := .several, kind := .integer, appends := true, negative := true }

def numberOption (long : String) : Parameter :=
  { long, arity := .exactly 1, kind := .number }

def plotGrammar : Grammar where
  options :=
    [filesOption "jobsCSV" 'j', filesOption "pstatesCSV" 'p', filesOption "energyCSV" 'e',
      filesOption "llhCSV" 'l', { long := "names", arity := .several, appends := true }] ++
    (Feature.all.map fun f => { long := f.flag }) ++
    [statesOption "off", statesOption "switchon", statesOption "switchoff",
      numberOption "llh-bound", numberOption "priority-job-waiting-time-bound",
      { long := "time-window", arity := .exactly 2, kind := .number, appends := true,
        negative := true },
      numberOption "force-right-adjust", { long := "summary" }, outputOption, helpOption]

def histogramGrammar : Grammar where
  options := [outputOption, helpOption]
  positional := [{ long := "input", arity := .exactly 1, kind := .path }]

def verifyGrammar : Grammar where
  options :=
    [{ long := "jobs", arity := .exactly 1, kind := .path },
      { long := "workload", arity := .exactly 1, kind := .path }, helpOption]
  required := ["jobs", "workload"]

/-- What the program is asked to do. -/
inductive Request where
  /-- Plot; the numbers given for the time window are not looked at yet. -/
  | plot (config : Config) (window : List Float) (output : Option String)
  | histogram (input : String) (output : Option String)
  | verify (jobs workload : String)
  deriving Inhabited

def numbersOf (uses : Uses) (name : String) : List Float :=
  (valuesOf uses name).filterMap Number.float?

def statesOf (uses : Uses) (name : String) : List Int :=
  PowerState.stateSet ((valuesOf uses name).filterMap fun v =>
    (Number.integer 10 Number.minInt32 Number.maxInt32 v.toList).toOption)

def plotRequest (uses : Uses) : Request :=
  let names := valuesOf uses "names"
  .plot
    { features := Feature.all.filter fun f => isUsed uses f.flag
      sources :=
        { jobs := valuesOf uses "jobsCSV"
          changes := valuesOf uses "pstatesCSV"
          energy := valuesOf uses "energyCSV"
          queue := valuesOf uses "llhCSV" }
      names := if names.isEmpty then ["Unnamed"] else names
      roles :=
        { off := statesOf uses "off"
          switchOn := statesOf uses "switchon"
          switchOff := statesOf uses "switchoff" }
      horizonBound := (numbersOf uses "llh-bound").head?
      waitBound := (numbersOf uses "priority-job-waiting-time-bound").head?
      right := (numbersOf uses "force-right-adjust").head?
      summary := isUsed uses "summary" }
    (numbersOf uses "time-window") (valuesOf uses "output").head?

/-- The configuration with its window. A window given more than once is none. -/
def withWindow (c : Config) : List Float → Except Failure Config
  | [min, max] =>
    if max < min then .error (.reversedWindow min max)
    else .ok { c with window := ⟨some min, some max⟩ }
  | _ => .ok c

/-- The commands; `help` shows the help of the command after it. -/
def commandNames : List String :=
  ["plot", "histogram", "verify", "help"]

/-- Options in front of any command. -/
def topLetter (c : Char) : Usage :=
  if c = 'h' then .displayHelp else if c = 'V' then .displayVersion else .unknownArgument

def topLong (cs : List Char) : Usage :=
  let (name, attached) := splitLong cs
  if name = "help" ∨ name = "version" then
    if attached.isSome then .tooManyValues
    else if name = "help" then .displayHelp else .displayVersion
  else .unknownArgument

def helpUsage : List String → Usage
  | [] => .displayHelp
  | [name] => if commandNames.contains name then .displayHelp else .invalidSubcommand
  | _ => .invalidSubcommand

def parse : List String → Except Usage Request
  | [] => .error .displayHelpOnMissingArgumentOrSubcommand
  | arg :: rest =>
    if arg = "plot" then (plotGrammar.read rest).map plotRequest
    else if arg = "histogram" then
      (histogramGrammar.read rest).map fun uses =>
        .histogram ((valuesOf uses "input").headD "energy_data.csv") (valuesOf uses "output").head?
    else if arg = "verify" then
      (verifyGrammar.read rest).map fun uses =>
        .verify ((valuesOf uses "jobs").headD "") ((valuesOf uses "workload").headD "")
    else if arg = "help" then .error (helpUsage rest)
    else
      match arg.toList with
      | ['-', '-'] =>
        match rest with
        | [] => .error .displayHelpOnMissingArgumentOrSubcommand
        | name :: _ =>
          .error (if commandNames.contains name then .unknownArgument else .invalidSubcommand)
      | '-' :: '-' :: name => .error (topLong name)
      | '-' :: c :: _ => .error (topLetter c)
      | _ => .error .invalidSubcommand

end TracePlot.Command
