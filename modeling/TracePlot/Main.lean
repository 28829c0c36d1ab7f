import TracePlot.Command.Run

/-! The program: runs a command line on the files at hand. A view is shown as text, and every line
typed is taken as a series of keys. -/

namespace TracePlot.Main

def faultOf : IO.Error → FileFault
  | .noFileOrDirectory _ _ _ => .notFound
  | .inappropriateType _ code _ => if code = 21 then .isADirectory else .notADirectory
  | e => .other (toString e)

def readFile (path : String) : IO (Except FileFault (List UInt8)) := do
  match ← (IO.FS.readBinFile path).toBaseIO with
  | .ok bytes => return .ok bytes.toList
  | .error e => return .error (faultOf e)

def readInputs (paths : List String) : IO Files := do
  let contents ← paths.mapM fun path => return (path, ← readFile path)
  return { read := fun path => ((contents.find? (·.1 = path)).map (·.2)).getD (.error .notFound) }

/-- Runs a request and writes its drawing. If that fails, the outcome is the one of a run that
knows of the fault. -/
def runRequest (request : Command.Request) : IO Command.Outcome := do
  let files ← readInputs request.inputs
  let outcome := request.run files
  match outcome.drawing with
  | none => return outcome
  | some (path, document) =>
    match ← (IO.FS.writeFile path document.svg).toBaseIO with
    | .ok _ => return outcome
    | .error e => return request.run { files with writeFault? := fun _ => some (faultOf e) }

def lengthFrom (name : String) (otherwise : Nat) : IO Nat := do
  return ((← IO.getEnv name).bind String.toNat?).getD otherwise

/-- The page after the keys of a line, or `none` when they end the view. -/
def afterKeys (count : Nat) : Nat → List Char → Option Nat
  | offset, [] => some offset
  | offset, c :: rest =>
    (Screen.react? count offset (.press (.char c))).bind fun next => afterKeys count next rest

partial def browse (v : Screen.View) (columns rows offset : Nat) : IO Unit := do
  for line in (v.grid columns rows (Screen.page offset v.panelCount)).lines do
    IO.println line
  let input ← (← IO.getStdin).getLine
  if input.isEmpty then return
  match afterKeys v.panelCount offset input.toList with
  | none => return
  | some next => browse v columns rows next

def showView (v : Screen.View) : IO Unit := do
  browse v (← lengthFrom "COLUMNS" 80) (← lengthFrom "LINES" 24) 0

def answerUsage (u : Command.Usage) : IO UInt32 := do
  match u with
  | .displayVersion => IO.println Command.versionText
  | .displayHelp => IO.println Command.helpText
  | _ => IO.eprintln u.message
  return u.exitCode.toUInt32

end TracePlot.Main

open TracePlot Main

def main (args : List String) : IO UInt32 := do
  match Command.parse args with
  | .error u => answerUsage u
  | .ok request =>
    let outcome ← runRequest request
    for log in outcome.logs do
      IO.eprintln (Command.logText log)
    match outcome.view with
    | some v => showView v
    | none => pure ()
    for line in outcome.printed do
      IO.println line
    for line in (outcome.failure.map Command.failureLines).getD [] do
      IO.eprintln line
    return outcome.exitCode.toUInt32
