/-! JSON documents. The members of an object are kept in ascending order of their names, each
name once. -/

namespace TracePlot.Json

inductive Value where
  | null
  | bool (b : Bool)
  | integer (n : Int)
  | float (x : Float)
  | string (s : String)
  | array (items : List Value)
  | object (members : List (String × Value))
  deriving Inhabited

/-- Sets a member; a later value of the same name replaces an earlier one. -/
def insertMember (name : String) (value : Value) : List (String × Value) → List (String × Value)
  | [] => [(name, value)]
  | (n, v) :: rest =>
    if name = n then (name, value) :: rest
    else if name < n then (name, value) :: (n, v) :: rest
    else (n, v) :: insertMember name value rest

def Value.ofMembers (members : List (String × Value)) : Value :=
  .object (members.foldl (fun sorted (n, v) => insertMember n v sorted) [])

def Value.member? (name : String) : Value → Option Value
  | .object members => (members.find? fun m => m.1 = name).map (·.2)
  | _ => none

end TracePlot.Json
