import TracePlot.Figure.Series

/-! Colours of a drawing. -/

namespace TracePlot.Drawing

structure Colour where
  red : Nat
  green : Nat
  blue : Nat
  alpha : Float := 1.0
  deriving Inhabited

namespace Colour

def white : Colour := { red := 255, green := 255, blue := 255 }
def black : Colour := { red := 0, green := 0, blue := 0 }
def pureRed : Colour := { red := 255, green := 0, blue := 0 }
def pureBlue : Colour := { red := 0, green := 0, blue := 255 }

def withAlpha (c : Colour) (alpha : Float) : Colour :=
  { c with alpha }

def palette : List Colour :=
  [{ red := 230, green := 25, blue := 75 }, { red := 60, green := 180, blue := 75 },
    { red := 255, green := 225, blue := 25 }, { red := 0, green := 130, blue := 200 },
    { red := 245, green := 130, blue := 48 }, { red := 145, green := 30, blue := 180 },
    { red := 70, green := 240, blue := 240 }, { red := 240, green := 50, blue := 230 },
    { red := 210, green := 245, blue := 60 }, { red := 250, green := 190, blue := 190 },
    { red := 0, green := 128, blue := 128 }, { red := 230, green := 190, blue := 255 },
    { red := 170, green := 110, blue := 40 }, { red := 255, green := 250, blue := 200 },
    { red := 128, green := 0, blue := 0 }, { red := 170, green := 255, blue := 195 },
    { red := 128, green := 128, blue := 0 }, { red := 255, green := 215, blue := 180 },
    { red := 0, green := 0, blue := 128 }, { red := 128, green := 128, blue := 128 },
    { red := 0, green := 0, blue := 0 }]

/-- The colour of a number; numbers beyond the palette start it again. -/
def pick (i : Nat) : Colour :=
  palette.getD (i % palette.length) black

def ofTint : Tint → Colour
  | .run i => pick i
  | .job i => (pick i).withAlpha 0.75
  | .reference => pureRed
  | .role .off => { red := 60, green := 60, blue := 60 }
  | .role .switchingOn => { red := 255, green := 165, blue := 0 }
  | .role .switchingOff => { red := 148, green := 0, blue := 211 }

def hexPair (n : Nat) : List Char :=
  [Nat.digitChar (n / 16 % 16), Nat.digitChar (n % 16)].map Char.toUpper

/-- The colour without its transparency, as `#` and six digits. -/
def hexText (c : Colour) : String :=
  String.ofList ('#' :: (hexPair c.red ++ hexPair c.green ++ hexPair c.blue))

end Colour

end TracePlot.Drawing
