import TracePlot.Histogram.Bins
import TracePlot.Proofs.Number.Words

/-! The distinct values of a histogram. They are sorted, so that the first is the least of all
values and the last is the greatest, and of finite values each occurs once. -/

open TracePlot.Number

namespace TracePlot.Histogram

/-- The least and the greatest of some values. -/
structure Extremes (values : List Float) (lo hi : Float) : Prop where
  least_mem : lo ∈ values
  greatest_mem : hi ∈ values
  between : ∀ v ∈ values, lo ≤ v ∧ v ≤ hi

section Distinct

variable {kept : Float} {values : List Float}

theorem mem_of_mem_dedupFrom {v : Float} (h : v ∈ dedupFrom kept values) : v ∈ values := by
  induction values generalizing kept with
  | nil => exact h
  | cons x rest ih =>
    rw [dedupFrom] at h
    split at h
    · exact List.mem_cons_of_mem _ (ih h)
    · rcases List.mem_cons.mp h with rfl | h
      · exact List.mem_cons_self
      · exact List.mem_cons_of_mem _ (ih h)

/-- The last number that is kept is the greatest. -/
theorem le_last_dedupFrom (hascending : (kept :: values).Pairwise (· ≤ ·))
    (hkept : kept.isNaN = false) {last : Float}
    (hlast : (kept :: dedupFrom kept values).getLast? = some last) :
    ∀ v ∈ kept :: values, v ≤ last := by
  induction values generalizing kept with
  | nil =>
    obtain rfl : kept = last := by simpa [dedupFrom] using hlast
    simpa using Number.le_refl hkept
  | cons x rest ih =>
    obtain ⟨hle, hrest⟩ := List.pairwise_cons.mp hascending
    have hkx : kept ≤ x := hle x List.mem_cons_self
    have hx : x.isNaN = false := isNaN_right_of_le hkx
    rw [dedupFrom] at hlast
    split at hlast
    · next hsame =>
      have hall := ih (List.pairwise_cons.mpr
        ⟨fun v hv => hle v (List.mem_cons_of_mem _ hv), hrest.of_cons⟩) hkept hlast
      obtain ⟨hfirst, hall⟩ := List.forall_mem_cons.mp hall
      have hxlast : x ≤ last := Number.le_trans (le_of_beq hkept hx hsame) hfirst
      exact List.forall_mem_cons.mpr ⟨hfirst, List.forall_mem_cons.mpr ⟨hxlast, hall⟩⟩
    · rw [List.getLast?_cons_cons] at hlast
      have hall := ih hrest hx hlast
      have hfirst : kept ≤ last := Number.le_trans hkx (hall x List.mem_cons_self)
      exact List.forall_mem_cons.mpr ⟨hfirst, hall⟩

theorem sortWords_perm (words : List UInt64) : (sortWords words).Perm words :=
  List.mergeSort_perm _ _

theorem sortWords_sorted (words : List UInt64) :
    (sortWords words).Pairwise fun v w => wordRankLE v w = true := by
  apply List.pairwise_mergeSort
  · exact fun _ _ _ => wordRankLE_trans
  · exact wordRankLE_total

theorem map_ofBits_map_toBits (values : List Float) :
    (values.map Float.toBits).map Float.ofBits = values := by
  simp [Function.comp_def, Float.ofBits_toBits]

theorem sortWords_values_perm (values : List Float) :
    ((sortWords (values.map Float.toBits)).map Float.ofBits).Perm values := by
  have hperm := (sortWords_perm (values.map Float.toBits)).map Float.ofBits
  rwa [map_ofBits_map_toBits] at hperm

theorem sortWords_values_ascending (hnan : ∀ v ∈ values, v.isNaN = false) :
    ((sortWords (values.map Float.toBits)).map Float.ofBits).Pairwise (· ≤ ·) := by
  have hnumber : ∀ w ∈ sortWords (values.map Float.toBits), (Float.ofBits w).isNaN = false :=
    fun w hw => hnan _ ((sortWords_values_perm values).mem_iff.mp (List.mem_map_of_mem hw))
  rw [List.pairwise_map]
  exact (sortWords_sorted _).imp_of_mem fun hv hw =>
    le_of_wordRankLE (hnumber _ hv) (hnumber _ hw)

theorem exists_extremes (hne : values ≠ []) (hnan : ∀ v ∈ values, v.isNaN = false) :
    ∃ lo hi, Extremes values lo hi ∧ (distinct (values.map Float.toBits)).head? = some lo ∧
      (distinct (values.map Float.toBits)).getLast? = some hi := by
  have hperm := sortWords_values_perm values
  have hascending := sortWords_values_ascending hnan
  unfold distinct
  cases hsort : (sortWords (values.map Float.toBits)).map Float.ofBits with
  | nil => exact absurd (hsort ▸ hperm).nil_eq.symm hne
  | cons lo rest =>
    rw [hsort] at hperm hascending
    have hmem (v : Float) : v ∈ values ↔ v ∈ lo :: rest := hperm.mem_iff.symm
    have hlo := hnan lo ((hmem lo).mpr List.mem_cons_self)
    obtain ⟨hi, hlast⟩ : ∃ hi, (lo :: dedupFrom lo rest).getLast? = some hi :=
      ⟨_, List.getLast?_eq_some_getLast (List.cons_ne_nil _ _)⟩
    have hmemlast : hi ∈ lo :: rest := by
      rcases List.mem_cons.mp (List.mem_of_getLast? hlast) with rfl | h
      · exact List.mem_cons_self
      · exact List.mem_cons_of_mem _ (mem_of_mem_dedupFrom h)
    refine ⟨lo, hi, ⟨?_, ?_, fun v hv => ⟨?_, ?_⟩⟩, rfl, hlast⟩
    · exact (hmem lo).mpr List.mem_cons_self
    · exact (hmem hi).mpr hmemlast
    · rcases List.mem_cons.mp ((hmem v).mp hv) with rfl | hv
      · exact Number.le_refl hlo
      · exact (List.pairwise_cons.mp hascending).1 v hv
    · exact le_last_dedupFrom hascending hlo hlast v ((hmem v).mp hv)

/-- Deduplicating finite numbers in ascending order leaves each value once. -/
theorem dedupFrom_values (hfinite : ∀ v ∈ kept :: values, v.isFinite = true)
    (hascending : (kept :: values).Pairwise (· ≤ ·)) :
    ((kept :: dedupFrom kept values).map value).Pairwise (· < ·) ∧
      ∀ q, q ∈ (kept :: dedupFrom kept values).map value ↔ q ∈ (kept :: values).map value := by
  induction values generalizing kept with
  | nil => simp [dedupFrom]
  | cons x rest ih =>
    obtain ⟨hkept, hrest⟩ := List.forall_mem_cons.mp hfinite
    have hx : x.isFinite = true := hrest x List.mem_cons_self
    have hkx : kept ≤ x := List.rel_of_pairwise_cons hascending List.mem_cons_self
    rw [dedupFrom]
    by_cases hsame : (kept == x) = true
    · have hvalue := (beq_iff_value hkept hx).mp hsame
      obtain ⟨hstrict, hmem⟩ := ih
        (List.forall_mem_cons.mpr ⟨hkept, fun v hv => hrest v (List.mem_cons_of_mem _ hv)⟩)
        (hascending.sublist ((List.sublist_cons_self x rest).cons_cons kept))
      rw [if_pos hsame]
      refine ⟨hstrict, fun q => ?_⟩
      rw [hmem]
      simp [hvalue]
    · obtain ⟨hstrict, hmem⟩ := ih hrest hascending.of_cons
      rw [if_neg hsame]
      constructor
      · rw [List.map_cons, List.pairwise_cons]
        refine ⟨fun q hq => ?_, hstrict⟩
        have hlt : value kept < value x :=
          lt_of_le_of_ne ((le_iff_value hkept hx).mp hkx) ((beq_iff_value hkept hx).not.mp hsame)
        obtain ⟨v, hv, rfl⟩ := List.mem_map.mp ((hmem q).mp hq)
        rcases List.mem_cons.mp hv with rfl | hv'
        · exact hlt
        · have hxv : x ≤ v := List.rel_of_pairwise_cons hascending.of_cons hv'
          exact hlt.trans_le ((le_iff_value hx (hrest v hv)).mp hxv)
      · intro q
        simp only [List.map_cons, List.mem_cons] at hmem ⊢
        rw [hmem]

theorem length_distinct (hfinite : ∀ v ∈ values, v.isFinite = true) :
    (distinct (values.map Float.toBits)).length = (values.map value).toFinset.card := by
  have hperm := sortWords_values_perm values
  have hascending := sortWords_values_ascending fun v hv => isNaN_of_isFinite (hfinite v hv)
  unfold distinct
  cases hsort : (sortWords (values.map Float.toBits)).map Float.ofBits with
  | nil =>
    rw [hsort] at hperm
    obtain rfl : values = [] := hperm.nil_eq.symm
    rfl
  | cons kept rest =>
    rw [hsort] at hperm hascending
    obtain ⟨hstrict, hmem⟩ := dedupFrom_values
      (fun v hv => hfinite v (hperm.mem_iff.mp hv)) hascending
    have hnodup : ((dedup (kept :: rest)).map value).Nodup := hstrict.imp ne_of_lt
    rw [← List.length_map value, ← List.toFinset_card_of_nodup hnodup]
    congr 1
    ext q
    rw [List.mem_toFinset, List.mem_toFinset, ← (hperm.map value).mem_iff]
    exact hmem q

end Distinct

end TracePlot.Histogram
