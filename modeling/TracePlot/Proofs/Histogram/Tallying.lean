import TracePlot.Proofs.Histogram.Edges
import TracePlot.Proofs.Histogram.Words

/-! Counting values one by one, where every edge that is read and every count that is raised has to
be there. Nothing is asked of the edges: the search stays among them even if they do not ascend, so
each value raises one count. -/

namespace TracePlot.Histogram

/-- The search as far as the edges that it reads are there. -/
def bisect? (edges : Array Float) (value : Float) (base size : Nat) : Option Nat :=
  if size ≤ 1 then do
    let edge ← edges[base]?
    return if edge ≤ value then base + 1 else base
  else do
    let edge ← edges[base + size / 2]?
    if edge ≤ value then bisect? edges value (base + size / 2) (size - size / 2)
    else bisect? edges value base (size - size / 2)
termination_by size

def raise? (counts : List Nat) (i : Nat) : Option (List Nat) :=
  if i < counts.length then some (counts.modify i (· + 1)) else none

/-- Counts one more value in the bin of the last edge not above it. -/
def count? (edges : Array Float) (counts : List Nat) (value : Float) : Option (List Nat) := do
  let reached ← bisect? edges value 0 edges.size
  raise? counts (min (reached - 1) (edges.size - 2))

/-- Counts the values in turn, from empty bins. -/
def countAll? (edges : Array Float) (values : List Float) : Option (List Nat) :=
  values.foldlM (count? edges) (List.replicate (edges.size - 1) 0)

variable {edges : Array Float} {value : Float}

/-- On a stretch of the edges that is not empty the search reads only edges of that stretch. -/
theorem bisect?_eq {base size : Nat} (hsize : 0 < size) (hfits : base + size ≤ edges.size) :
    bisect? edges value base size = some (bisect edges value base size) := by
  have hread (i : Nat) (hi : i < edges.size) : ∃ edge, edges[i]? = some edge :=
    ⟨edges[i], Array.getElem?_eq_getElem hi⟩
  fun_induction bisect edges value base size with
  | case1 base size hsmall hreached =>
    obtain ⟨edge, hedge⟩ := hread base (by omega)
    rw [bisect?, if_pos hsmall]
    simp_all
  | case2 base size hsmall hnot =>
    obtain ⟨edge, hedge⟩ := hread base (by omega)
    rw [bisect?, if_pos hsmall]
    simp_all
  | case3 base size hlarge middle hreached ih =>
    obtain ⟨edge, hedge⟩ := hread middle (by omega)
    have hle : edge ≤ value := by simpa [hedge] using hreached
    rw [bisect?, if_neg hlarge, hedge, Option.bind_eq_bind, Option.bind_some, if_pos hle]
    exact ih (by omega) (by omega)
  | case4 base size hlarge middle hnot ih =>
    obtain ⟨edge, hedge⟩ := hread middle (by omega)
    have hlt : ¬ edge ≤ value := by simpa [hedge] using hnot
    rw [bisect?, if_neg hlarge, hedge, Option.bind_eq_bind, Option.bind_some, if_neg hlt]
    exact ih (by omega) (by omega)

theorem binOf_lt (hsize : 2 ≤ edges.size) : binOf edges value < edges.size - 1 := by
  unfold binOf
  omega

/-- A value raises the count of its bin, and that count is there. -/
theorem count?_eq {counts : List Nat} (hsize : 2 ≤ edges.size)
    (hcounts : counts.length = edges.size - 1) :
    count? edges counts value = some (counts.modify (binOf edges value) (· + 1)) := by
  have hbin : binOf edges value < counts.length := hcounts ▸ binOf_lt hsize
  rw [count?, bisect?_eq (by omega) (by omega), Option.bind_eq_bind, Option.bind_some]
  exact if_pos hbin

theorem tally_concat (bins i : Nat) (is : List Nat) :
    tally bins (is ++ [i]) = (tally bins is).modify i (· + 1) := by
  refine List.ext_getElem (by simp [tally]) fun j hj hj' => ?_
  simp only [tally, List.getElem_map, List.getElem_range, List.getElem_modify, List.count_append,
    List.count_singleton]
  by_cases hij : i = j <;> simp [hij]

theorem tally_nil (bins : Nat) : tally bins [] = List.replicate bins 0 := by
  simp [tally]

/-- Counting goes on as if all values before had been tallied. -/
theorem foldlM_count? {values : List Float} (hsize : 2 ≤ edges.size) (is : List Nat) :
    values.foldlM (count? edges) (tally (edges.size - 1) is) =
      some (tally (edges.size - 1) (is ++ values.map (binOf edges))) := by
  induction values generalizing is with
  | nil => simp
  | cons v rest ih =>
    have hbins : (tally (edges.size - 1) is).length = edges.size - 1 := by simp [tally]
    rw [List.foldlM_cons, count?_eq hsize hbins, Option.bind_eq_bind, Option.bind_some,
      ← tally_concat, ih]
    simp

theorem countAll?_eq {values : List Float} (hsize : 2 ≤ edges.size) :
    countAll? edges values = some (tally (edges.size - 1) (values.map (binOf edges))) := by
  rw [countAll?, ← tally_nil, foldlM_count? hsize, List.nil_append]

theorem sum_tally {bins : Nat} {is : List Nat} (h : ∀ i ∈ is, i < bins) :
    (tally bins is).sum = is.length := by
  have hcounts : (tally bins is).sum = ∑ i ∈ Finset.range bins, (is : Multiset Nat).count i := by
    simp only [Multiset.coe_count]
    rfl
  rw [hcounts, Multiset.sum_count_eq_card fun i hi => Finset.mem_range.mpr (h i hi),
    Multiset.coe_card]

/-- Over two edges or more, whichever they are, values are counted in turn, and each once. -/
theorem binned_counts {edges : List Float} (values : List Float) (hsize : 2 ≤ edges.length) :
    countAll? edges.toArray values = some (binned values edges).counts ∧
      (binned values edges).total = values.length := by
  have hbin : ∀ i ∈ values.map (binOf edges.toArray), i < edges.length - 1 := by
    intro i hi
    obtain ⟨v, -, rfl⟩ := List.mem_map.mp hi
    exact binOf_lt hsize
  have hsum := sum_tally hbin
  rw [List.length_map] at hsum
  exact ⟨countAll?_eq hsize, hsum⟩

theorem distinct_ne_nil {words : List UInt64} (hne : words ≠ []) : distinct words ≠ [] := by
  have hlength := (sortWords_perm words).length_eq
  unfold distinct
  cases hsorted : sortWords words with
  | nil =>
    rw [hsorted] at hlength
    exact absurd (List.length_eq_zero_iff.mp hlength.symm) hne
  | cons w ws => exact List.cons_ne_nil _ _

/-- Of any words, if only there is one, there is a histogram. Its values can be counted in turn
without leaving the edges or the counts, and none is lost. -/
theorem every_value_is_counted {words : List UInt64} (hne : words ≠ []) :
    ∃ hist, ofWords words = .ok hist ∧
      (∀ values : List Float, values.map Float.toBits = words → ofValues values = .ok hist) ∧
      hist.edges.length = hist.counts.length + 1 ∧ 2 ≤ hist.edges.length ∧
      countAll? hist.edges.toArray (words.map Float.ofBits) = some hist.counts ∧
      hist.total = words.length := by
  have hdistinct := distinct_ne_nil hne
  have hlength := length_edgesOf ((distinct words).head hdistinct)
    ((distinct words).getLast hdistinct) (distinct words).length
  have hbins : 0 < (distinct words).length := List.length_pos_iff.mpr hdistinct
  have hok := ofWords_eq (List.head?_eq_some_head hdistinct)
    (List.getLast?_eq_some_getLast hdistinct)
  generalize edgesOf ((distinct words).head hdistinct) ((distinct words).getLast hdistinct)
    (distinct words).length = edges at *
  have hsize : 2 ≤ edges.length := by omega
  obtain ⟨hcounted, htotal⟩ := binned_counts (words.map Float.ofBits) hsize
  refine ⟨_, hok, fun values hvalues => ?_, ?_, ?_, hcounted, ?_⟩
  · rw [ofValues, hvalues, hok]
  · rw [length_counts_binned]
    change edges.length = _
    omega
  · exact hsize
  · rw [htotal, List.length_map]

theorem signedWords_are_counted : signedWords ≠ [] ∧
    ∃ hist, ofWords signedWords = .ok hist ∧ 2 ≤ hist.edges.length ∧ hist.total = 7 := by
  have hne : signedWords ≠ [] := List.cons_ne_nil _ _
  obtain ⟨hist, hhist, -, -, hedges, -, htotal⟩ := every_value_is_counted hne
  exact ⟨hne, hist, hhist, hedges, htotal⟩

end TracePlot.Histogram
