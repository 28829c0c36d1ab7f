import TracePlot.Proofs.Histogram.Edges

/-! The counts of a histogram. Bisecting edges that ascend finds the last one not above a value, so
that each bin counts the values between its edges. -/

open TracePlot.Number

namespace TracePlot.Histogram

section Bisect

variable {edges : List Float} {v : Float}

/-- There is an edge of this number, and it is not above the value. -/
def Reached (edges : Array Float) (v : Float) (i : Nat) : Prop :=
  (edges[i]?).any (· ≤ v) = true

theorem bisect_spec {edges : Array Float} {v : Float}
    (hdown : ∀ i j, i ≤ j → Reached edges v j → Reached edges v i) {base size : Nat}
    (hbelow : ∀ i < base, Reached edges v i) (habove : ¬ Reached edges v (base + size)) (i : Nat) :
    i < bisect edges v base size ↔ Reached edges v i := by
  fun_induction bisect edges v base size with
  | case1 base size hsize hreached =>
    constructor
    · exact fun hi => hdown i base (by omega) hreached
    · intro h
      by_contra hi
      exact habove (hdown _ _ (by omega) h)
  | case2 base size hsize hnot =>
    constructor
    · exact fun hi => hbelow i hi
    · intro h
      by_contra hi
      exact hnot (hdown base i (by omega) h)
  | case3 base size hsize middle hreached ih =>
    refine ih (fun j hj => hdown j middle hj.le hreached) ?_
    rwa [show middle + (size - size / 2) = base + size by omega]
  | case4 base size hsize middle hnot ih =>
    exact ih hbelow fun h => hnot (hdown _ _ (by omega) h)

theorem reached_iff {e : Float} {i : Nat} (h : edges[i]? = some e) :
    Reached edges.toArray v i ↔ e ≤ v := by
  simp [Reached, h]

theorem Reached.mono (hascending : edges.Pairwise (· ≤ ·)) {i j : Nat} (hij : i ≤ j)
    (h : Reached edges.toArray v j) : Reached edges.toArray v i := by
  obtain hij | rfl := hij.lt_or_eq
  · have hj : j < edges.length := by
      by_contra hj
      simp [Reached, List.getElem?_eq_none (not_lt.mp hj)] at h
    have hle : edges[i] ≤ edges[j] := List.pairwise_iff_getElem.mp hascending i j _ hj hij
    rw [reached_iff (List.getElem?_eq_getElem hj)] at h
    exact (reached_iff (List.getElem?_eq_getElem (hij.trans hj))).mpr (Number.le_trans hle h)
  · exact h

theorem lt_bisect_iff (hascending : edges.Pairwise (· ≤ ·)) (i : Nat) :
    i < bisect edges.toArray v 0 edges.toArray.size ↔ Reached edges.toArray v i := by
  refine bisect_spec (fun i j hij => Reached.mono hascending hij) (by simp) ?_ i
  simp [Reached]

end Bisect

/-- The value is in the bin of this number, which has these edges. The upper edge belongs to the
last bin only. -/
def InBin (bins i : Nat) (lo hi v : Float) : Prop :=
  lo ≤ v ∧ if i + 1 = bins then v ≤ hi else v < hi

instance (bins i : Nat) (lo hi v : Float) : Decidable (InBin bins i lo hi v) :=
  inferInstanceAs (Decidable (lo ≤ v ∧ if i + 1 = bins then v ≤ hi else v < hi))

/-- The edges ascend, though not always strictly, and all values are between the outer two. -/
structure Enclosing (edges values : List Float) : Prop where
  ascending : edges.Pairwise (· ≤ ·)
  above : ∀ first ∈ edges.head?, ∀ v ∈ values, first ≤ v
  below : ∀ last ∈ edges.getLast?, ∀ v ∈ values, v ≤ last

theorem binOf_eq_iff {edges values : List Float} (h : Enclosing edges values) {v lo hi : Float}
    (hv : v ∈ values) {bins i : Nat} (hlength : edges.length = bins + 1)
    (hlo : edges[i]? = some lo) (hhi : edges[i + 1]? = some hi) :
    binOf edges.toArray v = i ↔ InBin bins i lo hi v := by
  have hi' : i + 1 < edges.length := (List.getElem?_eq_some_iff.mp hhi).1
  obtain ⟨first, hfirst⟩ : ∃ first, edges[0]? = some first :=
    ⟨_, List.getElem?_eq_getElem (by omega)⟩
  have hfirstle : first ≤ v := h.above first (by rwa [List.head?_eq_getElem?]) v hv
  have hzero := (lt_bisect_iff h.ascending 0).mpr ((reached_iff hfirst).mpr hfirstle)
  have hlower := (lt_bisect_iff h.ascending i).trans (reached_iff (v := v) hlo)
  have hupper := (lt_bisect_iff h.ascending (i + 1)).trans (reached_iff (v := v) hhi)
  have hsize : edges.toArray.size = bins + 1 := by simpa using hlength
  unfold binOf InBin
  by_cases hlastbin : i + 1 = bins
  · have hlast : v ≤ hi := by
      refine h.below hi ?_ v hv
      rw [List.getLast?_eq_getElem?, Option.mem_def, ← hhi]
      congr 1
      omega
    rw [if_pos hlastbin, and_iff_left hlast, ← hlower]
    omega
  · have hle : lo ≤ hi := by
      obtain ⟨hl, rfl⟩ := List.getElem?_eq_some_iff.mp hlo
      obtain ⟨hh, rfl⟩ := List.getElem?_eq_some_iff.mp hhi
      exact List.pairwise_iff_getElem.mp h.ascending i (i + 1) hl hh (Nat.lt_succ_self i)
    rw [if_neg hlastbin, ← Number.not_le (isNaN_right_of_le hle) (isNaN_right_of_le hfirstle),
      ← hlower, ← hupper]
    omega

theorem getElem?_counts_binned {edges values : List Float} {i : Nat} (hi : i + 1 < edges.length) :
    (binned values edges).counts[i]? =
      some (values.countP fun v => decide (binOf edges.toArray v = i)) := by
  have hbin : i < edges.length - 1 := by omega
  simp [binned, tally, hbin, List.count_eq_countP, List.countP_map, Function.comp_def, beq_eq_decide]

/-- Of any finite values there is a histogram with a bin for each value that occurs. When its edges
ascend and enclose the values, it counts for each bin the values in it. -/
theorem counts_are_values_in_bins {values : List Float} (hne : values ≠ [])
    (hfinite : ∀ v ∈ values, v.isFinite = true) :
    ∃ hist, ofValues values = .ok hist ∧
      hist.counts.length = (values.map value).toFinset.card ∧
      hist.edges.length = hist.counts.length + 1 ∧
      (Enclosing hist.edges values →
        ∀ i lo hi, hist.edges[i]? = some lo → hist.edges[i + 1]? = some hi →
          hist.counts[i]? =
            some (values.countP fun v => decide (InBin hist.counts.length i lo hi v))) := by
  obtain ⟨lo, hi, -, hhead, hlast⟩ :=
    exists_extremes hne fun v hv => isNaN_of_isFinite (hfinite v hv)
  have hlength := length_edgesOf lo hi (distinct (values.map Float.toBits)).length
  refine ⟨_, ofValues_eq hhead hlast, ?_, ?_, ?_⟩
  · rw [length_counts_binned, hlength, Nat.add_sub_cancel, length_distinct hfinite]
  · rw [length_counts_binned, hlength, Nat.add_sub_cancel]
    exact hlength
  · intro henclosing i l h hl hh
    have hbin : i + 1 < (edgesOf lo hi (distinct (values.map Float.toBits)).length).length :=
      (List.getElem?_eq_some_iff.mp hh).1
    rw [length_counts_binned, hlength, Nat.add_sub_cancel, getElem?_counts_binned hbin,
      Option.some_inj]
    refine List.countP_congr fun v hv => ?_
    rw [decide_eq_true_eq, decide_eq_true_eq]
    exact binOf_eq_iff henclosing hv hlength hl hh

/-- Two neighbours of the format, the lower one twice. -/
def closeValues : List Float :=
  [1.0000000000000002, 1.0, 1.0]

theorem distinct_closeValues :
    distinct (closeValues.map Float.toBits) = [1.0, 1.0000000000000002] := by
  have hswap : wordRankLE (Float.toBits 1.0000000000000002) (Float.toBits 1.0) = false := by
    decide
  have htie : wordRankLE (Float.toBits 1.0) (Float.toBits 1.0) = true := by decide
  have hsort : sortWords (closeValues.map Float.toBits) =
      [1.0, 1.0, 1.0000000000000002].map Float.toBits := by
    simp [sortWords, closeValues, List.mergeSort, List.MergeSort.Internal.splitInTwo, hswap, htie]
  rw [distinct, hsort]
  decide +kernel

theorem edges_closeValues {hist : Histogram} (h : ofValues closeValues = .ok hist) :
    hist.edges = [1.0, 1.0, 1.0000000000000002] := by
  have hhead : (distinct (closeValues.map Float.toBits)).head? = some 1.0 := by
    rw [distinct_closeValues]
    rfl
  have hlast : (distinct (closeValues.map Float.toBits)).getLast? = some 1.0000000000000002 := by
    rw [distinct_closeValues]
    rfl
  have hedges : edgesOf 1.0 1.0000000000000002 2 = [1.0, 1.0, 1.0000000000000002] := by
    decide +kernel
  rw [ofValues_eq hhead hlast, distinct_closeValues] at h
  rw [← Except.ok.inj h]
  exact hedges

theorem closeValues_all_in_last_bin :
    (closeValues ≠ [] ∧ ∀ v ∈ closeValues, v.isFinite = true) ∧
    ∃ hist, ofValues closeValues = .ok hist ∧ hist.counts[0]? = some 0 ∧
      hist.counts[1]? = some 3 := by
  have hne : closeValues ≠ [] := List.cons_ne_nil _ _
  have hfinite : ∀ v ∈ closeValues, v.isFinite = true := by decide
  obtain ⟨hist, hhist, -, hlength, hcounts⟩ := counts_are_values_in_bins hne hfinite
  rw [edges_closeValues hhist] at hlength hcounts
  have hbins : hist.counts.length = 2 := by simpa using hlength.symm
  have henclosing : Enclosing [1.0, 1.0, 1.0000000000000002] closeValues :=
    ⟨by decide, fun first h => by cases h; decide, fun last h => by cases h; decide⟩
  have hcounts := hcounts henclosing
  rw [hbins] at hcounts
  refine ⟨⟨hne, hfinite⟩, hist, hhist, ?_, ?_⟩
  · rw [hcounts 0 _ _ rfl rfl]
    decide
  · rw [hcounts 1 _ _ rfl rfl]
    decide

end TracePlot.Histogram
