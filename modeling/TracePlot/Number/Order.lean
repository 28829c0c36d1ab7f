/-! Comparing binary64 numbers: larger and smaller of two with NaN ignored, and the total order of
words. Words tell more apart than numbers do: in their order `-0.0` comes before `0.0`, and by its
sign a NaN comes before or after all numbers. -/

namespace TracePlot.Number

/-- The larger of two numbers. NaN gives way to the other, and equal numbers to the first. -/
def larger (x y : Float) : Float :=
  if x.isNaN then y else if x < y then y else x

/-- The smaller of two numbers. NaN gives way to the other, and equal numbers to the first. -/
def smaller (x y : Float) : Float :=
  if x.isNaN then y else if y < x then y else x

/-- Brings `x` into `[lo, hi]`; NaN stays. -/
def clamp (lo hi x : Float) : Float :=
  if x < lo then lo else if hi < x then hi else x

/-- The place of a word in the total order. -/
def wordRank (w : UInt64) : Int :=
  if w.toNat < 0x8000000000000000 then w.toNat else -(w.toNat - 0x8000000000000000 : Nat) - 1

def wordRankLE (v w : UInt64) : Bool :=
  wordRank v ≤ wordRank w

def rank (x : Float) : Int :=
  wordRank x.toBits

theorem rank_lt (x : Float) : rank x < 0x8000000000000000 := by
  unfold rank wordRank
  split <;> omega

def bounds? : List Float → Option (Float × Float)
  | [] => none
  | x :: xs => some (xs.foldl (fun (lo, hi) v => (smaller lo v, larger hi v)) (x, x))

@[simp]
theorem bounds?_eq_none_iff (xs : List Float) : bounds? xs = none ↔ xs = [] := by
  cases xs <;> simp [bounds?]

def largest? : List Float → Option Float
  | [] => none
  | x :: xs => some (xs.foldl larger x)

end TracePlot.Number
