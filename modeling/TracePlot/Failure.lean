import TracePlot.Files
import TracePlot.Json.Fault
import TracePlot.Table.Fault

/-! The failures that end a command, and their wording. -/

namespace TracePlot

/-- Why an input file is refused. -/
inductive FileReason where
  | unreadable (fault : FileFault)
  | table (fault : Table.Fault)
  | notText
  | json (error : Json.Error)
  /-- The extra data of a workload job cannot be read. -/
  | job (id : String) (error : Json.Error)

def FileReason.message : FileReason → String
  | .unreadable fault => fault.message
  | .table fault => fault.message
  | .notText => "stream did not contain valid UTF-8"
  | .json error => error.message
  | .job id error => "job " ++ id ++ ": " ++ error.message

inductive Failure where
  | fileFormat (path : String) (reason : FileReason)
  /-- A requested feature has no file to be drawn from. -/
  | missingSource (feature required : String)
  | instanceCount (foundIn : String) (found : Nat) (referenceIn : String) (reference : Nat)
  | nameCount (names instances : Nat)
  /-- Power states with two roles. -/
  | powerStates (first second : String) (states : List Int)
  | allocations (count : Nat)
  | noValues (marker : String)
  | reversedWindow (min max : Float)
  | unwritten (what path : String) (fault : FileFault)

/-- The message of a failure followed by those of its causes. -/
def Failure.chain : Failure → List String
  | .fileFormat path reason => [path ++ ": " ++ reason.message]
  | .missingSource feature required =>
    ["--" ++ feature ++ " requires at least one " ++ required ++ " file"]
  | .instanceCount foundIn found referenceIn reference =>
    ["inconsistent instance count: " ++ foundIn ++ " has " ++ toString found ++
      " file(s) but " ++ referenceIn ++ " has " ++ toString reference]
  | .nameCount names instances =>
    ["the number of names (" ++ toString names ++ ") must equal the number of instances (" ++
      toString instances ++ ")"]
  | .powerStates first second states =>
    ["power state collision between " ++ first ++ " and " ++ second ++ ": [" ++
      ", ".intercalate (states.map toString) ++ "]"]
  | .allocations count => [toString count ++ " job(s) have an unexpected allocation"]
  | .noValues marker => ["no non-zero energy value found after '" ++ marker ++ "'"]
  | .reversedWindow min max =>
    ["time window minimum (" ++ Number.plain min ++ ") exceeds its maximum (" ++
      Number.plain max ++ ")"]
  | .unwritten what path fault =>
    ["Failed to write " ++ what ++ " to " ++ path,
      "backend error: Drawing backend error: " ++ fault.message]

def Failure.message (f : Failure) : String :=
  ": ".intercalate f.chain

def Files.load {α : Type} (files : Files) (read : List UInt8 → Except Table.Fault α)
    (path : String) : Except Failure α :=
  match files.read path with
  | .error fault => .error (.fileFormat path (.unreadable fault))
  | .ok bytes =>
    match read bytes with
    | .error fault => .error (.fileFormat path (.table fault))
    | .ok rows => .ok rows

end TracePlot
