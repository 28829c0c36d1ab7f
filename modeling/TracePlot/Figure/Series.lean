import TracePlot.Records.PowerState

/-! Series of points and how they are joined. -/

namespace TracePlot

abbrev Point := Float × Float

inductive Tint where
  | run (index : Nat)
  | job (index : Nat)
  | reference
  | role (role : PowerState.Role)
  deriving Repr, DecidableEq, Inhabited

inductive Style where
  | line
  /-- Each value holds since the point before. -/
  | stepPre
  /-- Each value holds until the next point. -/
  | stepPost
  | scatter
  deriving Repr, DecidableEq, Inhabited

structure Series where
  style : Style
  tint : Tint
  points : List Point
  label : Option String := none
  stroke : Nat := 1
  deriving DecidableEq, Inhabited

/-- The vertices after a point when each value holds since the point before. -/
def stepPreFrom : Point → List Point → List Point
  | _, [] => []
  | p, q :: rest => (p.1, q.2) :: q :: stepPreFrom q rest

def stepPre : List Point → List Point
  | [] => []
  | p :: rest => p :: stepPreFrom p rest

/-- The vertices after a point when each value holds until the next point. -/
def stepPostFrom : Point → List Point → List Point
  | _, [] => []
  | p, q :: rest => (q.1, p.2) :: q :: stepPostFrom q rest

def stepPost : List Point → List Point
  | [] => []
  | p :: rest => p :: stepPostFrom p rest

/-- The vertices that are joined. -/
def Series.path (s : Series) : List Point :=
  match s.style with
  | .stepPre => stepPre s.points
  | .stepPost => stepPost s.points
  | .line => s.points
  | .scatter => s.points

end TracePlot
