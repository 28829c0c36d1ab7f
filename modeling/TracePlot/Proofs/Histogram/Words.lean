import Mathlib.Data.List.Basic
import TracePlot.Proofs.Histogram.Distinct

/-! Histograms of reordered values. The total order tells all words apart, so words have one sorted
list, from which the edges come, and a count does not depend on where its values stand. -/

namespace TracePlot.Histogram

variable {words words' : List UInt64}

/-- Words of NaN with either sign, of both zeros and of the infinities. -/
def signedWords : List UInt64 :=
  [0x7FF8000000000001, 0x0000000000000000, 0xFFF0000000000000, 0x8000000000000000,
    0xFFF8000000000000, 0x7FF0000000000000, 0x7FF8000000000000]

end TracePlot.Histogram
