import TracePlot.Failure
import TracePlot.Json.Printer
import TracePlot.Json.Shape
import TracePlot.Text.Blank

/-! Workloads: the jobs that were asked to run, with the allocation that some of them desire. -/

namespace TracePlot.Workload

structure Entry where
  id : Json.Value := .null
  extra : Option Json.Value := none
  deriving Inhabited

def entryShape : Json.Shape Entry where
  title := "struct WorkloadJob"
  blank := {}
  fields :=
    [{ name := "id", required := true
       read := fun depth cs => (Json.readValue depth cs).map fun (v, rest) =>
         (fun e => { e with id := v }, rest) },
      { name := "extra_data", required := false
        read := fun depth cs => (Json.readOptional depth cs).map fun (v, rest) =>
          (fun e => { e with extra := v }, rest) }]

def shape : Json.Shape (List Entry) where
  title := "struct Workload"
  blank := []
  fields :=
    [{ name := "jobs", required := true
       read := fun depth cs => (Json.readList entryShape.read depth cs).map fun (es, rest) =>
         (fun _ => es, rest) }]

/-- Extra data, of which only the desired allocation counts. -/
def extraShape : Json.Shape Json.Value where
  title := "struct ExtraData"
  blank := .null
  fields :=
    [{ name := "desired_allocation", required := true
       read := fun depth cs => (Json.readValue depth cs).map fun (v, rest) =>
         (fun _ => v, rest) }]

def parse (cs : List Char) : Except Json.Error (List Entry) :=
  Json.readWhole (shape.read Json.depthLimit) cs

/-- A text without the blanks around it, and any other value as JSON. -/
def plainText : Json.Value → String
  | .string s => Text.trim s
  | v => v.text

/-- What a value is called when it is not the extra data it should be. -/
def foundIn : Json.Value → Json.Found
  | .null => .null
  | .bool b => .bool b
  | .integer n => .integer n
  | .float x => .float x
  | .string s => .string s
  | .array _ => .sequence
  | .object _ => .map

/-- The desired allocation of extra data that is given as a document. -/
def desiredIn (extra : Json.Value) : Except Json.Cause Json.Value :=
  match extra with
  | .object members =>
    match (Json.Value.object members).member? "desired_allocation" with
    | some v => .ok v
    | none => .error (.missingField "desired_allocation")
  | .array [] => .error (.invalidLength 0 extraShape.sizeText)
  | .array [v] => .ok v
  | .array items => .error (.invalidLength items.length "fewer elements in array")
  | v => .error (.invalidType (foundIn v) extraShape.title)

/-- The desired allocation of extra data, which is a document or a text that holds one. -/
def desired (extra : Json.Value) : Except Json.Error String :=
  match extra with
  | .string text =>
    (Json.readWhole (extraShape.read Json.depthLimit) text.toList).map plainText
  | v => ((desiredIn v).mapError fun cause => ⟨cause, none⟩).map plainText

/-- The id of a job with the allocation it desires, if it has extra data. -/
def Entry.desired? (e : Entry) : Except FileReason (Option (String × String)) :=
  match e.extra with
  | none => .ok none
  | some extra =>
    let id := plainText e.id
    ((desired extra).mapError (.job id)).map fun allocation => some (id, allocation)

/-- The desired allocations of all jobs that have extra data, up to the first that cannot be
read. -/
def desiredOf (entries : List Entry) : Except FileReason (List (String × String)) :=
  (entries.mapM Entry.desired?).map (·.filterMap id)

def read (bytes : List UInt8) : Except FileReason (List (String × String)) :=
  match Text.Utf8.decode bytes with
  | .error _ => .error .notText
  | .ok cs =>
    match parse cs with
    | .error e => .error (.json e)
    | .ok entries => desiredOf entries

/-- The allocation that the last job of this id desires. -/
def lookup? (desired : List (String × String)) (id : String) : Option String :=
  (desired.reverse.find? fun d => d.1 = id).map (·.2)

end TracePlot.Workload
