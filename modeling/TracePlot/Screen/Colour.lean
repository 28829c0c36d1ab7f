import TracePlot.Figure.Series

/-! Colours of a terminal. -/

namespace TracePlot.Screen

inductive Colour where
  | red
  | green
  | yellow
  | blue
  | magenta
  | cyan
  | darkGray
  | lightRed
  | lightGreen
  | lightYellow
  | lightBlue
  | lightMagenta
  deriving Repr, DecidableEq, Inhabited

namespace Colour

def palette : List Colour :=
  [.cyan, .green, .yellow, .magenta, .blue, .lightRed, .lightGreen, .lightBlue]

/-- The colour of a number; numbers beyond the palette start it again. -/
def pick (i : Nat) : Colour :=
  palette.getD (i % palette.length) .cyan

def ofTint : Tint → Colour
  | .run i => pick i
  | .job i => pick i
  | .reference => .red
  | .role .off => .darkGray
  | .role .switchingOn => .lightYellow
  | .role .switchingOff => .lightMagenta

end Colour

end TracePlot.Screen
