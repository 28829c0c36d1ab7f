import TracePlot.Number.Format

/-! Ticks of an axis: the multiples of a round step that lie in a range. A round step is one, two
or five times a power of ten. -/

namespace TracePlot.Drawing.Ticks

def most : Nat := 11

/-- Round steps in descending order, from `10 ^ k` on over two decades. -/
def steps (k : Int) : List Number.Decimal :=
  [⟨1, k⟩, ⟨5, k - 1⟩, ⟨2, k - 1⟩, ⟨1, k - 1⟩, ⟨5, k - 2⟩, ⟨2, k - 2⟩, ⟨1, k - 2⟩]

/-- How many steps make up a number, as a fraction. -/
def quotient? (x : Float) (step : Number.Decimal) : Option (Int × Nat) :=
  match Number.parts x with
  | .finite negative mantissa exponent =>
    let (n, d) := Number.fractionOf mantissa exponent
    let (n, d) := Number.shiftDecimal n d step.exponent
    some (if negative then -(n : Int) else n, d * step.digits)
  | _ => none

/-- The first multiple of the step in a range, and how many there are. -/
def multiples? (lo hi : Float) (step : Number.Decimal) : Option (Int × Nat) := do
  let (n, d) ← quotient? lo step
  let (m, e) ← quotient? hi step
  let first := -((-n) / (d : Int))
  some (first, (m / (e : Int) + 1 - first).toNat)

def valueOf (d : Number.Decimal) (multiple : Int) : Float :=
  let size := Float.ofScientific (multiple.natAbs * d.digits) (d.exponent < 0) d.exponent.natAbs
  if multiple < 0 then -size else size

def fits (lo hi : Float) (step : Number.Decimal) : Bool :=
  (multiples? lo hi step).any fun (_, count) => count ≤ most

/-- The finest step reached before there are too many ticks. -/
def step? (lo hi : Float) : Option Number.Decimal :=
  match Number.parts (hi - lo) with
  | .finite false (m + 1) exponent =>
    let (n, d) := Number.fractionOf (m + 1) exponent
    ((steps (Number.magnitude n d - 1)).takeWhile (fits lo hi)).getLast?
  | _ => none

def between (lo hi : Float) : List Float :=
  match step? lo hi with
  | none => []
  | some step =>
    match multiples? lo hi step with
    | none => []
    | some (first, count) => (List.range count).map fun (i : Nat) => valueOf step (first + i)

end TracePlot.Drawing.Ticks
