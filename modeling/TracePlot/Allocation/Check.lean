import TracePlot.Allocation.Workload
import TracePlot.Log
import TracePlot.Table.Rows
import TracePlot.Text.Lines

/-! Checking that jobs were given the resources that their workload asked for. Allocations are
compared as texts. -/

namespace TracePlot.Allocation

/-- The allocation of a job as its table has it. -/
structure Row where
  id : String := ""
  resources : String := ""
  deriving Repr, DecidableEq, Inhabited

def required : List String :=
  ["job_id", "allocated_resources"]

def columns : List (Table.Column Row) :=
  [.text "job_id" fun v r => { r with id := v },
    .text "allocated_resources" fun v r => { r with resources := v }]

structure Mismatch where
  id : String
  expected : String
  allocated : String
  deriving Repr, DecidableEq, Inhabited

structure Verification where
  checked : Nat
  mismatches : List Mismatch
  deriving Repr, DecidableEq, Inhabited

def Verification.isValid (v : Verification) : Bool :=
  v.mismatches.isEmpty

/-- The row with the allocation its job desires. -/
def desiredFor (desired : List (String × String)) (r : Row) : Option (Row × String) :=
  (Workload.lookup? desired (Text.trim r.id)).map fun expected => (r, expected)

def mismatch? (r : Row) (expected : String) : Option Mismatch :=
  let allocated := Text.trim r.resources
  if allocated ≠ expected then some ⟨r.id, expected, allocated⟩ else none

/-- Compares the rows whose jobs desire an allocation with it. -/
def verify (desired : List (String × String)) (rows : List Row) : Verification :=
  let checked := rows.filterMap (desiredFor desired)
  ⟨checked.length, checked.filterMap fun (r, expected) => mismatch? r expected⟩

def verifyFiles (files : Files) (jobs workload : String) : Except Failure Verification := do
  let desired ←
    match files.read workload with
    | .error fault => .error (.fileFormat workload (.unreadable fault))
    | .ok bytes => (Workload.read bytes).mapError (.fileFormat workload)
  let rows ← files.load (Table.readTable columns {} required) jobs
  pure (verify desired rows)

def tableLine (a b c : String) : String :=
  Text.padRight 12 a ++ " " ++ Text.padRight 24 b ++ " " ++ Text.padRight 24 c

namespace Verification

def log (v : Verification) : Log :=
  ⟨.info, .allocation, "Checked " ++ toString v.checked ++ " job(s)"⟩

/-- What is printed: that all is well, or a table of the mismatches. -/
def lines (v : Verification) : List String :=
  if v.isValid then ["All jobs are valid! (" ++ toString v.checked ++ " checked)"]
  else
    ["Some jobs have an unexpected allocation", tableLine "job_id" "expected" "allocated",
      Text.repeated 60 "-"] ++
    v.mismatches.map fun m => tableLine m.id m.expected m.allocated

def result (v : Verification) : Except Failure Unit :=
  if v.isValid then .ok () else .error (.allocations v.mismatches.length)

end Verification

end TracePlot.Allocation
