import TracePlot.Failure
import TracePlot.Histogram.Probe
import TracePlot.Number.Order

/-! Histograms: evenly spread bins, one for each distinct value. A bin holds the values from its
lower edge up to its upper one, which belongs to the last bin only. Values are given as words, which
keep the sign and the digits of a NaN: both decide where it comes in the total order. -/

namespace TracePlot

structure Histogram where
  /-- One more than there are counts. -/
  edges : List Float
  counts : List Nat
  deriving Inhabited

namespace Histogram

def title : String := "Distribution of consumed energy values (zeros excluded)"

/-- Drops every number that equals the one kept before it. -/
def dedupFrom (kept : Float) : List Float → List Float
  | [] => []
  | x :: rest => if kept == x then dedupFrom kept rest else x :: dedupFrom x rest

def dedup : List Float → List Float
  | [] => []
  | x :: rest => x :: dedupFrom x rest

def sortWords (words : List UInt64) : List UInt64 :=
  words.mergeSort Number.wordRankLE

/-- The distinct values of some words from the least to the greatest. -/
def distinct (words : List UInt64) : List Float :=
  dedup ((sortWords words).map Float.ofBits)

/-- `count` numbers evenly spread from `first` to `last`. -/
def spread (first last : Float) (count : Nat) : List Float :=
  (List.range count).map fun i =>
    if i + 1 = count then last
    else first + (last - first) * Float.ofNat i / Float.ofNat (count - 1)

/-- The edges of the bins of distinct values. A single value lies in the middle of a bin two
wide. -/
def edgesOf (first last : Float) (count : Nat) : List Float :=
  if count = 1 then [first - 1.0, last + 1.0] else spread first last (count + 1)

/-- Halves a stretch of the edges until one is left: the number of edges up to it that are not
above the value, if the edges ascend. -/
def bisect (edges : Array Float) (value : Float) (base size : Nat) : Nat :=
  if size ≤ 1 then
    if (edges[base]?).any (· ≤ value) then base + 1 else base
  else
    let middle := base + size / 2
    if (edges[middle]?).any (· ≤ value) then bisect edges value middle (size - size / 2)
    else bisect edges value base (size - size / 2)
termination_by size

/-- The bin of a value: that of the last edge not above it. -/
def binOf (edges : Array Float) (value : Float) : Nat :=
  min (bisect edges value 0 edges.size - 1) (edges.size - 2)

/-- How often each of the first `bins` numbers occurs. -/
def tally (bins : Nat) (indices : List Nat) : List Nat :=
  (List.range bins).map indices.count

def ofWords? (words : List UInt64) : Option Histogram :=
  let ds := distinct words
  match ds.head?, ds.getLast? with
  | some first, some last =>
    let edges := edgesOf first last ds.length
    some ⟨edges, tally (edges.length - 1) ((words.map Float.ofBits).map (binOf edges.toArray))⟩
  | _, _ => none

/-- The histogram of the values of some words, of which there has to be one. -/
def ofWords (words : List UInt64) : Except Failure Histogram :=
  match ofWords? words with
  | some h => .ok h
  | none => .error (.noValues Probe.marker)

def ofValues (values : List Float) : Except Failure Histogram :=
  ofWords (values.map Float.toBits)

def total (h : Histogram) : Nat :=
  h.counts.foldr (· + ·) 0

def bins (h : Histogram) : List ((Float × Float) × Nat) :=
  (h.edges.zip h.edges.tail).zip h.counts

end Histogram

end TracePlot
