/-! Files as the program meets them: what reading a path gives, and whether a path can be
written. -/

namespace TracePlot

inductive FileFault where
  | notFound
  | notADirectory
  | isADirectory
  | other (text : String)
  deriving Repr, DecidableEq

def FileFault.message : FileFault → String
  | .notFound => "No such file or directory (os error 2)"
  | .notADirectory => "Not a directory (os error 20)"
  | .isADirectory => "Is a directory (os error 21)"
  | .other text => text

structure Files where
  read : String → Except FileFault (List UInt8)
  /-- What stands against writing a path. -/
  writeFault? : String → Option FileFault := fun _ => none

namespace Files

/-- The places that a path leads to, one after the other. -/
def prefixes : List String → List String
  | [] => []
  | part :: rest => part :: (prefixes rest).map fun tail => part ++ "/" ++ tail

/-- The fault of a path whose parts before the last do not lead to a directory. -/
def parentFault? (names : List String) (parts : List String) : Option FileFault :=
  (prefixes parts.dropLast).findSome? fun place =>
    if names.contains place then some .notADirectory
    else if place = "." ∨ names.any (·.startsWith (place ++ "/")) then none
    else some .notFound

def ofList (contents : List (String × List UInt8)) : Files :=
  let names := contents.map (·.1)
  let parts (path : String) := path.splitOn "/"
  let isDirectory (path : String) : Bool :=
    path = "." || path.endsWith "/" || names.any (·.startsWith (path ++ "/"))
  { read := fun path =>
      if path = "" then .error .notFound
      else match parentFault? names (parts path) with
      | some fault => .error fault
      | none =>
        match contents.find? fun c => c.1 = path with
        | some (_, bytes) => .ok bytes
        | none => .error (if isDirectory path then .isADirectory else .notFound)
    writeFault? := fun path =>
      if path = "" then some .notFound
      else match parentFault? names (parts path) with
      | some fault => some fault
      | none => if isDirectory path then some .isADirectory else none }

end Files

end TracePlot
