import TracePlot.Allocation.Check
import TracePlot.Command.Arguments
import TracePlot.Drawing.Output
import TracePlot.Figure.Draw
import TracePlot.Run.Summary
import TracePlot.Screen.View

/-! Running a request over the files at hand. -/

namespace TracePlot.Command

/-- What a run leads to, in the order in which it happens: messages, a drawing or, when no file is
to be written, a view on the screen, printed lines, and the failure that ended it. -/
structure Outcome where
  logs : List Log := []
  drawing : Option (String × Drawing.Document) := none
  view : Option Screen.View := none
  printed : List String := []
  failure : Option Failure := none

def Outcome.ofFailure (logs : List Log) (f : Failure) : Outcome :=
  { logs, failure := some f }

/-- Adds what a drawing leads to; the printed lines follow if it is written. -/
def Outcome.draw (logs : List Log) (output : Drawing.Output) (printed : List String) : Outcome :=
  let logs := logs ++ output.before
  match output.written with
  | .error f => .ofFailure logs f
  | .ok none => { logs, printed }
  | .ok (some (path, document, log)) =>
    { logs := logs ++ [log], drawing := some (path, document), printed }

def layoutLog (l : Layout) : Log :=
  ⟨.info, .command, "Drawing " ++ toString l.panels.length ++ " panel(s) for " ++
    toString l.instances.length ++ " instance(s)"⟩

def runPlot (files : Files) (c : Config) (output : Option String) : Outcome :=
  match c.plan with
  | .error f => .ofFailure [] f
  | .ok .nothing => { logs := [⟨.info, .command, "Nothing to draw"⟩] }
  | .ok (.draw l) =>
    match files.loadAll c l with
    | .error f => .ofFailure [layoutLog l] f
    | .ok data =>
      let figure := l.draw c data
      let logs := layoutLog l :: figure.warnings
      let printed := if c.summary then Summary.printed c.window data else []
      match output with
      | some path => .draw logs (Drawing.figureOutput files figure path) printed
      | none => { logs, view := some (.figure figure), printed }

def histogramError (message : String) : Log :=
  ⟨.error, .histogram, message⟩

def readLog (files : Files) (path : String) : Except String (List Char) :=
  match files.read path with
  | .error .notFound => .error ("Input file '" ++ path ++ "' not found")
  | .error fault => .error ("Error: " ++ fault.message)
  | .ok bytes =>
    match Text.Utf8.decode bytes with
    | .ok cs => .ok cs
    | .error _ => .error ("Error: " ++ FileReason.notText.message)

/-- Draws the histogram of a log. Failures are reported as messages. -/
def runHistogram (files : Files) (input : String) (output : Option String) : Outcome :=
  match readLog files input with
  | .error message => { logs := [histogramError message] }
  | .ok cs =>
    match Histogram.ofValues (Probe.values cs) with
    | .error f => { logs := [histogramError ("Error: " ++ f.message)] }
    | .ok h =>
      let log : Log := ⟨.info, .histogram, toString h.total ++ " value(s) in " ++
        toString h.counts.length ++ " bin(s)"⟩
      match output with
      | none => { logs := [log], view := some (.histogram h) }
      | some path =>
        let outcome := Outcome.draw [log] (Drawing.histogramOutput files h path) []
        match outcome.failure with
        | none => outcome
        | some f =>
          { logs := outcome.logs ++ [histogramError ("Error: " ++ f.message)] }

def runVerify (files : Files) (jobs workload : String) : Outcome :=
  match Allocation.verifyFiles files jobs workload with
  | .error f => .ofFailure [] f
  | .ok v =>
    { logs := [v.log]
      printed := v.lines
      failure := match v.result with | .ok _ => none | .error f => some f }

def Request.run (files : Files) : Request → Outcome
  | .plot c window output =>
    match withWindow c window with
    | .error f => .ofFailure [] f
    | .ok c => runPlot files c output
  | .histogram input output => runHistogram files input output
  | .verify jobs workload => runVerify files jobs workload

def Request.inputs : Request → List String
  | .plot c _ _ =>
    c.sources.jobs ++ c.sources.changes ++ c.sources.energy ++ c.sources.queue
  | .histogram input _ => [input]
  | .verify jobs workload => [workload, jobs]

def Request.output? : Request → Option String
  | .plot _ _ output => output
  | .histogram _ output => output
  | .verify .. => none

/-- A message as it goes to the terminal; further lines of it are indented. -/
def logText (l : Log) : String :=
  "[" ++ Text.padRight 5 l.level.text ++ " " ++ l.origin.text ++ "] " ++
    l.message.replace "\n" "\n    "

/-- The report of the failure that ended a run, with its causes below. -/
def failureLines (f : Failure) : List String :=
  match f.chain with
  | [] => []
  | [message] => ["Error: " ++ message]
  | message :: causes => ["Error: " ++ message, "", "Caused by:"] ++ causes.map ("    " ++ ·)

namespace Outcome

def errorLines (o : Outcome) : List String :=
  o.logs.map logText ++ (o.failure.map failureLines).getD []

def exitCode (o : Outcome) : Nat :=
  if o.failure.isSome then 1 else 0

end Outcome

def versionText : String := "batplot 0.1.0"

def helpText : String :=
  "Usage: batplot plot [OPTIONS]\n" ++
  "       batplot histogram [OPTIONS] [INPUT]\n" ++
  "       batplot verify --jobs <JOBS> --workload <WORKLOAD>"

/-- Help and version end well, and other refusals of a command line do not. -/
def Usage.exitCode : Usage → Nat
  | .displayHelp => 0
  | .displayVersion => 0
  | _ => 2

end TracePlot.Command
