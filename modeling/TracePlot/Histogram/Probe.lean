import TracePlot.Number.Literal
import TracePlot.Text.Lines

/-! The energy values that probes leave in a log. A block of values starts after a line that
begins with the marker and ends at the first blank line. -/

namespace TracePlot.Probe

def marker : String := "Event: ProbeDataEmittedEvent"

/-- Digits with at most one point, and at least one digit. -/
def isPlainDecimal (cs : List Char) : Bool :=
  cs.all (fun c => Number.isDigit c || c = '.') && cs.any Number.isDigit && cs.count '.' ≤ 1

/-- The value of a plain decimal, unless it is zero or too large to be finite. -/
def value? (line : List Char) : Option Float :=
  if isPlainDecimal line then
    (Number.unsignedFloat? line).filter fun x => x != 0.0 && x.isFinite
  else none

/-- The values on the lines from one of them on; `inside` tells whether it lies in a block. -/
def valuesFrom (inside : Bool) : List (List Char) → List Float
  | [] => []
  | line :: rest =>
    if marker.toList.isPrefixOf line then valuesFrom true rest
    else if line.isEmpty then valuesFrom false rest
    else (if inside then (value? line).toList else []) ++ valuesFrom inside rest

def values (log : List Char) : List Float :=
  valuesFrom false ((Text.lines log).map Text.trimChars)

end TracePlot.Probe
