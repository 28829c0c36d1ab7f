import TracePlot.Proofs.Histogram.Blocks
import TracePlot.Proofs.Histogram.Distinct
import TracePlot.Proofs.Number.Literal
import TracePlot.Proofs.Number.Widening

/-! The edges of a histogram. They enclose all values, and they ascend as long as the bins are wide
enough to be told apart and no product on the way to them leaves the range of the format. -/

open TracePlot.Number

namespace TracePlot.Histogram

section Edges

/-- An edge between the least and the greatest value. -/
def edge (lo hi : Float) (n i : Nat) : Float :=
  lo + (hi - lo) * Float.ofNat i / Float.ofNat n

variable {lo hi : Float} {n i j : Nat}

theorem spread_eq (lo hi : Float) (n : Nat) :
    spread lo hi (n + 1) = (List.range n).map (edge lo hi n) ++ [hi] := by
  rw [spread, List.range_succ, List.map_append, List.map_singleton, if_pos rfl]
  congr 1
  refine List.map_congr_left fun i hi => ?_
  rw [if_neg (by have := List.mem_range.mp hi; omega)]
  rfl

/-- The bins are at least sixteen steps of the format wide. -/
def Wide (lo hi : Float) (n : Nat) : Prop :=
  16 * n * step hi ≤ value hi - value lo

theorem Wide.few (hwide : Wide lo hi n) (hnonneg : 0 ≤ value lo) : n < 2 ^ 49 := by
  have hroom := (step_bounds hi).2
  have hpos : 0 < step hi := two_zpow_pos _
  unfold Wide at hwide
  have hlt : (n : ℚ) < 2 ^ 49 := by
    by_contra hge
    have hlarge : 16 * 2 ^ 49 * step hi ≤ 16 * n * step hi :=
      mul_le_mul_of_nonneg_right (by linarith) hpos.le
    linarith
  exact_mod_cast hlt

/-- Below the upper end of a wide bin there is at least the width of the last one missing. -/
theorem Wide.part_le (hwide : Wide lo hi n) (hle : value lo ≤ value hi) (hin : i < n) :
    (value hi - value lo) * (i / n) ≤ value hi - value lo - 16 * step hi := by
  have hn0 : (0 : ℚ) < n := by exact_mod_cast (by omega : 0 < n)
  have hratio : (i : ℚ) / n ≤ 1 - 1 / n := by
    have hin : (i : ℚ) + 1 ≤ n := by exact_mod_cast hin
    rw [div_le_iff₀ hn0]
    field_simp
    linarith
  have hbin : 16 * step hi ≤ (value hi - value lo) * (1 / n) := by
    unfold Wide at hwide
    rw [mul_one_div, le_div_iff₀ hn0]
    linarith
  have hmul := mul_le_mul_of_nonneg_left hratio (by linarith : 0 ≤ value hi - value lo)
  linarith

/-- When a product is short of `2 ^ 53` units, one by a smaller number is short of one unit more. -/
theorem smaller_product_le {d u : ℚ} {m : Nat} (hd : 0 ≤ d) (hu : 0 < u) (him : i < m)
    (hm : m ≤ 2 ^ 49) (h : d * m < 2 ^ 53 * u) : d * i ≤ (2 ^ 53 - 1) * u := by
  have him' : (i + 1 : ℚ) ≤ m := by exact_mod_cast him
  have hproduct : d * (i + 1) ≤ d * m := mul_le_mul_of_nonneg_left him' hd
  by_cases hlarge : u ≤ d
  · linarith
  · have hshort : (i : ℚ) ≤ 2 ^ 49 := by exact_mod_cast (him.le.trans hm)
    have hsmall : d * i ≤ u * 2 ^ 49 :=
      mul_le_mul (not_le.mp hlarge).le hshort (by positivity) hu.le
    linarith

variable (hlo : lo.isFinite = true) (hhi : hi.isFinite = true) (hnonneg : 0 ≤ value lo)
  (hle : value lo ≤ value hi)

include hlo hhi hnonneg hle

theorem gap_spec : (hi - lo).isFinite = true ∧ 0 ≤ value (hi - lo) ∧
    value (hi - lo) ≤ value hi ∧ |value (hi - lo) - (value hi - value lo)| ≤ step hi := by
  obtain ⟨hleast, hroom⟩ := step_bounds hi
  have hrounds := rounds_sub hhi hlo
  have hgap : 0 ≤ value hi - value lo := by linarith
  have hupper : value hi - value lo ≤ value hi := by linarith
  have hfinite := hrounds.isFinite_of_nonneg hhi hgap hupper
  refine ⟨hfinite, hrounds.nonneg hfinite hgap, hrounds.value_le hfinite hhi hupper, ?_⟩
  exact hrounds.error hfinite hgap hleast (by unfold step at hroom; linarith)

theorem product_zero : ((hi - lo) * Float.ofNat 0).isFinite = true ∧
    value ((hi - lo) * Float.ofNat 0) = 0 := by
  obtain ⟨hgap, -⟩ := gap_spec hlo hhi hnonneg hle
  obtain ⟨hzero, hzerovalue⟩ := value_ofNat (show 0 < 2 ^ 53 by norm_num)
  have hrounds := rounds_mul hgap hzero
  rw [hzerovalue, Nat.cast_zero, mul_zero, ← zero_value.2] at hrounds
  exact zero_value.2 ▸ hrounds.value_eq zero_value.1

theorem edge_zero (hn : 0 < n) :
    (edge lo hi n 0).isFinite = true ∧ value (edge lo hi n 0) = value lo := by
  obtain ⟨hnone, hvalue⟩ := product_zero hlo hhi hnonneg hle
  have hpos : 0.0 < Float.ofNat n := by
    have hone : 1.0 ≤ Float.ofNat n := by
      refine (rounds_ofNat n).le value_one.1 ?_
      rw [value_one.2]
      exact_mod_cast hn
    exact Number.lt_of_lt_of_le (by decide) hone
  obtain ⟨hquotient, hquotientvalue⟩ : ((hi - lo) * Float.ofNat 0 / Float.ofNat n).isFinite = true ∧
      value ((hi - lo) * Float.ofNat 0 / Float.ofNat n) = 0 := by
    have hrounds := rounds_zero_div hnone hvalue hpos
    rw [← zero_value.2] at hrounds
    exact zero_value.2 ▸ hrounds.value_eq zero_value.1
  have hrounds := rounds_add hlo hquotient
  rw [hquotientvalue, add_zero] at hrounds
  exact hrounds.value_eq hlo

/-- All products on the way to the edges are in range when the last one is. -/
theorem product_spec (hn : n < 2 ^ 49)
    (hfits : ((hi - lo) * Float.ofNat (n - 1)).isFinite = true) (hin : i < n) :
    ((hi - lo) * Float.ofNat i).isFinite = true ∧
      0 ≤ value ((hi - lo) * Float.ofNat i) ∧
      |value ((hi - lo) * Float.ofNat i) - value (hi - lo) * i| ≤ 2 * n * step hi := by
  obtain ⟨hgap, hgap0, hgaple, -⟩ := gap_spec hlo hhi hnonneg hle
  obtain ⟨hleast, hroom⟩ := step_bounds hi
  obtain ⟨hi0, hivalue⟩ := value_ofNat (hin.trans (hn.trans (by norm_num)))
  obtain ⟨hlast0, hlastvalue⟩ := value_ofNat (n := n - 1) (by omega)
  have hrounds := rounds_mul hgap hi0
  have hlast := rounds_mul hgap hlast0
  rw [hivalue] at hrounds
  rw [hlastvalue] at hlast
  have hproduct0 : 0 ≤ value (hi - lo) * i := by positivity
  have hfinite : ((hi - lo) * Float.ofNat i).isFinite = true := by
    by_cases heq : i = n - 1
    · rwa [heq]
    · refine hrounds.isFinite_of_abs_le ?_
      rw [abs_of_nonneg hproduct0]
      have htop : value (hi - lo) * (n - 1 : Nat) < 2 ^ 53 * 2 ^ (971 : ℤ) := by
        rw [two_pow_mul_zpow (j := 1024) (by norm_num)]
        exact (le_abs_self _).trans_lt (hlast.abs_lt_top hfits)
      exact smaller_product_le hgap0 (two_zpow_pos 971) (by omega) (by omega) htop
  refine ⟨hfinite, hrounds.nonneg hfinite hproduct0, ?_⟩
  -- The product has as many digits more than its factor as `n` has.
  have hdigits : (n : ℚ) < 2 ^ (n.log2 + 1) := by exact_mod_cast Nat.lt_log2_self
  have hstep : (2 : ℚ) ^ (grade hi.toModel.unpack + (n.log2 + 1 : Nat)) =
      step hi * 2 ^ (n.log2 + 1) := by
    rw [zpow_add₀ (by norm_num), zpow_natCast, step]
  have hfits : value (hi - lo) * i <
      2 ^ 53 * 2 ^ (grade hi.toModel.unpack + (n.log2 + 1 : Nat)) := by
    have hin : (i : ℚ) ≤ n := by exact_mod_cast hin.le
    rw [hstep, ← mul_assoc]
    exact mul_lt_mul'' (hgaple.trans_lt hroom) (hin.trans_lt hdigits) hgap0 (by positivity)
  refine (hrounds.error hfinite hproduct0 (by omega) hfits).trans ?_
  have hlog : (2 : ℚ) ^ n.log2 ≤ n := by exact_mod_cast Nat.log2_self_le (by omega)
  have hpos : 0 ≤ step hi := (two_zpow_pos _).le
  rw [hstep, pow_succ]
  calc step hi * (2 ^ n.log2 * 2) ≤ step hi * (n * 2) :=
        mul_le_mul_of_nonneg_left (by linarith) hpos
    _ = 2 * n * step hi := by ring

/-- The part of the gap below an edge is off by at most four steps: one each for the gap and for
the quotient, and two for the product. -/
theorem part_error (hwide : Wide lo hi n)
    (hfits : ((hi - lo) * Float.ofNat (n - 1)).isFinite = true) (hin : i < n) :
    ((hi - lo) * Float.ofNat i / Float.ofNat n).isFinite = true ∧
      0 ≤ value ((hi - lo) * Float.ofNat i / Float.ofNat n) ∧
      |value ((hi - lo) * Float.ofNat i / Float.ofNat n) - (value hi - value lo) * (i / n)| ≤
        4 * step hi := by
  have hn := hwide.few hnonneg
  obtain ⟨hleast, hroom⟩ := step_bounds hi
  obtain ⟨hgap, hgap0, hgaple, hgaperror⟩ := gap_spec hlo hhi hnonneg hle
  obtain ⟨hproduct, hproduct0, hproducterror⟩ := product_spec hlo hhi hnonneg hle hn hfits hin
  obtain ⟨hcount, hcountvalue⟩ := value_ofNat (n := n) (by omega)
  have hpos : 0 < step hi := two_zpow_pos _
  have hn0 : (0 : ℚ) < n := by exact_mod_cast (by omega : 0 < n)
  have hbelow := hwide.part_le hle hin
  have hrounds := rounds_div hproduct hcount (by rw [hcountvalue]; exact hn0.ne')
  rw [hcountvalue] at hrounds
  have hproductpart : |value ((hi - lo) * Float.ofNat i) / n - value (hi - lo) * (i / n)| ≤
      2 * step hi := by
    have hcancel : value ((hi - lo) * Float.ofNat i) / n - value (hi - lo) * (i / n) =
        (value ((hi - lo) * Float.ofNat i) - value (hi - lo) * i) / n := by field_simp
    rw [hcancel, abs_div, abs_of_pos hn0, div_le_iff₀ hn0]
    linarith
  have hgappart : |(value (hi - lo) - (value hi - value lo)) * (i / n)| ≤ step hi := by
    have hratio0 : (0 : ℚ) ≤ i / n := by positivity
    have hratio : (i : ℚ) / n ≤ 1 := (div_le_one hn0).mpr (by exact_mod_cast hin.le)
    rw [abs_mul, abs_of_nonneg hratio0]
    exact (mul_le_mul hgaperror hratio hratio0 hpos.le).trans_eq (mul_one _)
  rw [abs_le] at hproductpart
  rw [abs_le, sub_mul] at hgappart
  have hquotient0 : 0 ≤ value ((hi - lo) * Float.ofNat i) / n := div_nonneg hproduct0 hn0.le
  have hquotientle : value ((hi - lo) * Float.ofNat i) / n ≤ value hi := by linarith
  have hfinite : ((hi - lo) * Float.ofNat i / Float.ofNat n).isFinite = true :=
    hrounds.isFinite_of_nonneg hhi hquotient0 hquotientle
  have herror := hrounds.error hfinite hquotient0 hleast (hquotientle.trans_lt hroom)
  change |_ - _| ≤ step hi at herror
  rw [abs_le] at herror
  refine ⟨hfinite, hrounds.nonneg hfinite hquotient0, abs_le.mpr ⟨?_, ?_⟩⟩
  · linarith
  · linarith

theorem edge_error (hwide : Wide lo hi n)
    (hfits : ((hi - lo) * Float.ofNat (n - 1)).isFinite = true) (hin : i < n) :
    (edge lo hi n i).isFinite = true ∧
      |value (edge lo hi n i) - (value lo + (value hi - value lo) * (i / n))| ≤ 5 * step hi := by
  obtain ⟨hleast, hroom⟩ := step_bounds hi
  obtain ⟨hpart, hpart0, hparterror⟩ := part_error hlo hhi hnonneg hle hwide hfits hin
  have hpos : 0 < step hi := two_zpow_pos _
  have hbelow := hwide.part_le hle hin
  rw [abs_le] at hparterror
  have hrounds := rounds_add hlo hpart
  have hsum0 : 0 ≤ value lo + value ((hi - lo) * Float.ofNat i / Float.ofNat n) := by linarith
  have hsumle : value lo + value ((hi - lo) * Float.ofNat i / Float.ofNat n) ≤ value hi := by
    linarith
  have hfinite : (edge lo hi n i).isFinite = true :=
    hrounds.isFinite_of_nonneg hhi hsum0 hsumle
  have herror := hrounds.error hfinite hsum0 hleast (hsumle.trans_lt hroom)
  change |value (edge lo hi n i) - _| ≤ step hi at herror
  rw [abs_le] at herror
  refine ⟨hfinite, abs_le.mpr ⟨?_, ?_⟩⟩
  · linarith
  · linarith

theorem edge_lt_edge (hwide : Wide lo hi n)
    (hfits : ((hi - lo) * Float.ofNat (n - 1)).isFinite = true) (hij : i < j) (hjn : j < n) :
    edge lo hi n i < edge lo hi n j := by
  obtain ⟨hfinite, herror⟩ := edge_error hlo hhi hnonneg hle hwide hfits (hij.trans hjn)
  obtain ⟨hfinite', herror'⟩ := edge_error hlo hhi hnonneg hle hwide hfits hjn
  have hpos : 0 < step hi := two_zpow_pos _
  have hgap : 16 * step hi ≤ (value hi - value lo) * (j / n) - (value hi - value lo) * (i / n) := by
    have hn0 : (0 : ℚ) < n := by exact_mod_cast (by omega : 0 < n)
    have hij : (i : ℚ) + 1 ≤ j := by exact_mod_cast hij
    have hcancel : ((value hi - value lo) * (j / n) - (value hi - value lo) * (i / n)) * n =
        (value hi - value lo) * (j - i) := by field_simp
    have hmul : (value hi - value lo) * 1 ≤ (value hi - value lo) * (j - i) :=
      mul_le_mul_of_nonneg_left (by linarith) (by linarith)
    unfold Wide at hwide
    rw [← mul_le_mul_iff_left₀ hn0, hcancel]
    linarith
  rw [abs_le] at herror herror'
  rw [lt_iff_value hfinite hfinite']
  linarith

theorem edge_lt_last (hwide : Wide lo hi n)
    (hfits : ((hi - lo) * Float.ofNat (n - 1)).isFinite = true) (hin : i < n) :
    edge lo hi n i < hi := by
  obtain ⟨hfinite, herror⟩ := edge_error hlo hhi hnonneg hle hwide hfits hin
  have hpos : 0 < step hi := two_zpow_pos _
  have hbelow := hwide.part_le hle hin
  rw [abs_le] at herror
  rw [lt_iff_value hfinite hhi]
  linarith

/-- Wide bins have finite ascending edges just when no product is out of range. -/
theorem spread_ascends_iff (hn : 0 < n) (hwide : Wide lo hi n) :
    ((∀ e ∈ spread lo hi (n + 1), e.isFinite = true) ∧
        (spread lo hi (n + 1)).Pairwise (· < ·)) ↔
      ((hi - lo) * Float.ofNat (n - 1)).isFinite = true := by
  rw [spread_eq]
  constructor
  · rintro ⟨hfinite, -⟩
    have hlast : (edge lo hi n (n - 1)).isFinite = true := by
      refine hfinite _ (List.mem_append_left _ (List.mem_map.mpr ⟨n - 1, ?_, rfl⟩))
      exact List.mem_range.mpr (by omega)
    exact isFinite_of_isFinite_div (isFinite_of_isFinite_add hlast)
  · intro hfits
    constructor
    · intro e he
      rcases List.mem_append.mp he with he | he
      · obtain ⟨i, hi', rfl⟩ := List.mem_map.mp he
        exact (edge_error hlo hhi hnonneg hle hwide hfits (List.mem_range.mp hi')).1
      · obtain rfl := List.mem_singleton.mp he
        exact hhi
    · rw [List.pairwise_append]
      refine ⟨?_, List.pairwise_singleton _ _, ?_⟩
      · rw [List.pairwise_map]
        refine List.pairwise_lt_range.imp_of_mem fun _ hj hij => ?_
        exact edge_lt_edge hlo hhi hnonneg hle hwide hfits hij (List.mem_range.mp hj)
      · intro e he last hlast
        obtain ⟨i, hi', rfl⟩ := List.mem_map.mp he
        obtain rfl := List.mem_singleton.mp hlast
        exact edge_lt_last hlo hhi hnonneg hle hwide hfits (List.mem_range.mp hi')

/-- The edges around a single value are apart if its steps are not longer than one. -/
theorem single_ascends (hstep : step hi ≤ 1) :
    (∀ e ∈ [lo - 1.0, hi + 1.0], e.isFinite = true) ∧
      [lo - 1.0, hi + 1.0].Pairwise (· < ·) := by
  have hmiddle : lo ≤ hi := (le_iff_value hlo hhi).mpr hle
  have hsmall := abs_value_lt_of_step_le (hnonneg.trans hle) hstep
  refine ⟨by simp [isFinite_sub_one hlo, isFinite_add_one hhi], List.pairwise_pair.mpr ?_⟩
  exact sub_one_lt_add_one hlo hhi hmiddle hsmall

end Edges

/-- Neighbouring edges can be told apart: the bins are wide, or the steps of a single value are not
longer than one. -/
def Resolved (lo hi : Float) (bins : Nat) : Prop :=
  if bins = 1 then step hi ≤ 1 else Wide lo hi bins

/-- The largest product on the way to the edges is a finite number. -/
def InRange (lo hi : Float) (bins : Nat) : Prop :=
  ((hi - lo) * Float.ofNat (bins - 1)).isFinite = true

section Values

variable {lo hi : Float} {n : Nat} {log : List Char}

theorem length_edgesOf (lo hi : Float) (n : Nat) : (edgesOf lo hi n).length = n + 1 := by
  unfold edgesOf
  split
  · next h => simp [h]
  · simp [spread]

/-- The histogram of values over given edges. -/
def binned (values edges : List Float) : Histogram :=
  ⟨edges, tally (edges.length - 1) (values.map (binOf edges.toArray))⟩

theorem length_counts_binned (values edges : List Float) :
    (binned values edges).counts.length = edges.length - 1 := by
  simp [binned, tally]

theorem ofWords_eq {words : List UInt64} (hhead : (distinct words).head? = some lo)
    (hlast : (distinct words).getLast? = some hi) :
    ofWords words =
      .ok (binned (words.map Float.ofBits) (edgesOf lo hi (distinct words).length)) := by
  simp only [ofWords, ofWords?, hhead, hlast]
  rfl

theorem ofValues_eq {values : List Float}
    (hhead : (distinct (values.map Float.toBits)).head? = some lo)
    (hlast : (distinct (values.map Float.toBits)).getLast? = some hi) :
    ofValues values =
      .ok (binned values (edgesOf lo hi (distinct (values.map Float.toBits)).length)) := by
  rw [ofValues, ofWords_eq hhead hlast, map_ofBits_map_toBits]

theorem edgesOf_enclose (hlo : lo.isFinite = true) (hhi : hi.isFinite = true)
    (hnonneg : 0 ≤ value lo) (hle : value lo ≤ value hi) (hn : 0 < n) :
    ∃ first last, (edgesOf lo hi n).head? = some first ∧ (edgesOf lo hi n).getLast? = some last ∧
      first ≤ lo ∧ hi ≤ last := by
  unfold edgesOf
  split
  · refine ⟨_, _, rfl, rfl, ?_, le_add_one hhi⟩
    refine (rounds_sub hlo value_one.1).ge hlo ?_
    rw [value_one.2]
    linarith
  · obtain ⟨hfinite, hvalue⟩ := edge_zero hlo hhi hnonneg hle hn
    obtain ⟨m, rfl⟩ : ∃ m, n = m + 1 := ⟨n - 1, by omega⟩
    rw [spread_eq, List.range_succ_eq_map]
    refine ⟨_, _, rfl, List.getLast?_concat, ?_, Number.le_refl (isNaN_of_isFinite hhi)⟩
    exact (le_iff_value hfinite hlo).mpr hvalue.le

theorem edgesOf_ascend_iff (hlo : lo.isFinite = true) (hhi : hi.isFinite = true)
    (hnonneg : 0 ≤ value lo) (hle : value lo ≤ value hi) (hn : 0 < n)
    (hresolved : Resolved lo hi n) :
    (∀ e ∈ edgesOf lo hi n, e.isFinite = true) ∧ (edgesOf lo hi n).Pairwise (· < ·) ↔
      InRange lo hi n := by
  unfold edgesOf InRange
  unfold Resolved at hresolved
  by_cases hsingle : n = 1
  · subst hsingle
    refine iff_of_true (single_ascends hlo hhi hnonneg hle hresolved) ?_
    exact (product_zero hlo hhi hnonneg hle).1
  · rw [if_neg hsingle] at hresolved ⊢
    exact spread_ascends_iff hlo hhi hnonneg hle hn hresolved

theorem value_of_mem_values {v : Float} (hv : v ∈ Probe.values log) :
    v.isFinite = true ∧ 0 ≤ value v := by
  obtain ⟨line, -, hvalue⟩ := Probe.exists_line_of_mem hv
  obtain ⟨⟨whole, places, -, rfl⟩, -, hfinite⟩ := Probe.value?_eq_some_iff.mp hvalue
  exact ⟨hfinite, value_ofDecimal_nonneg _ _⟩

/-- The edges of the histogram of a log enclose all its values. They are finite and ascend just
when no product on the way to them is out of range, as long as they can be told apart. -/
theorem edges_enclose_and_ascend_in_range (h : Probe.values log ≠ []) :
    ∃ lo hi hist, Extremes (Probe.values log) lo hi ∧ ofValues (Probe.values log) = .ok hist ∧
      (∃ first last, hist.edges.head? = some first ∧ hist.edges.getLast? = some last ∧
        ∀ v ∈ Probe.values log, first ≤ v ∧ v ≤ last) ∧
      (Resolved lo hi hist.counts.length →
        ((∀ e ∈ hist.edges, e.isFinite = true) ∧ hist.edges.Pairwise (· < ·) ↔
          InRange lo hi hist.counts.length)) := by
  obtain ⟨lo, hi, hextremes, hhead, hlast⟩ :=
    exists_extremes h fun v hv => isNaN_of_isFinite (value_of_mem_values hv).1
  obtain ⟨hlo, hnonneg⟩ := value_of_mem_values hextremes.least_mem
  obtain ⟨hhi, -⟩ := value_of_mem_values hextremes.greatest_mem
  have hle := (le_iff_value hlo hhi).mp (hextremes.between hi hextremes.greatest_mem).1
  have hn : 0 < (distinct ((Probe.values log).map Float.toBits)).length :=
    List.length_pos_of_mem (List.mem_of_mem_head? hhead)
  obtain ⟨first, last, hfirst, hend, hfirstle, hlelast⟩ := edgesOf_enclose hlo hhi hnonneg hle hn
  refine ⟨lo, hi, _, hextremes, ofValues_eq hhead hlast,
    ⟨first, last, hfirst, hend, fun v hv => ?_⟩, ?_⟩
  · obtain ⟨hlov, hvhi⟩ := hextremes.between v hv
    exact ⟨Number.le_trans hfirstle hlov, Number.le_trans hvhi hlelast⟩
  · rw [length_counts_binned, length_edgesOf, Nat.add_sub_cancel]
    exact edgesOf_ascend_iff hlo hhi hnonneg hle hn

/-- A log of the values 1, 2, 2 and 4. -/
def smallLog : List Char :=
  Probe.marker.toList ++ "\n1\n2\n2\n4\n".toList

theorem smallLog_has_ascending_edges : Probe.values smallLog ≠ [] ∧
    ∃ hist, ofValues (Probe.values smallLog) = .ok hist ∧
      (∀ e ∈ hist.edges, e.isFinite = true) ∧ hist.edges.Pairwise (· < ·) := by
  have hvalues : Probe.values smallLog = [1.0, 2.0, 2.0, 4.0] := by decide +kernel
  have hne : Probe.values smallLog ≠ [] := by simp [hvalues]
  obtain ⟨lo, hi, hist, hextremes, hhist, -, hascend⟩ := edges_enclose_and_ascend_in_range hne
  have hlo : lo = 1.0 := by
    have hmem := hextremes.least_mem
    have hle : lo ≤ 1.0 := (hextremes.between 1.0 (by simp [hvalues])).1
    rw [hvalues] at hmem
    simp only [List.mem_cons, List.not_mem_nil, or_false] at hmem
    rcases hmem with rfl | rfl | rfl | rfl
    · rfl
    · exact absurd hle (by decide)
    · exact absurd hle (by decide)
    · exact absurd hle (by decide)
  have hhi : hi = 4.0 := by
    have hmem := hextremes.greatest_mem
    have hge : 4.0 ≤ hi := (hextremes.between 4.0 (by simp [hvalues])).2
    rw [hvalues] at hmem
    simp only [List.mem_cons, List.not_mem_nil, or_false] at hmem
    rcases hmem with rfl | rfl | rfl | rfl
    · exact absurd hge (by decide)
    · exact absurd hge (by decide)
    · exact absurd hge (by decide)
    · rfl
  have hdistinct : distinct ((Probe.values smallLog).map Float.toBits) = [1.0, 2.0, 4.0] := by
    rw [hvalues, distinct, sortWords, List.mergeSort_of_pairwise (by decide)]
    rfl
  have hbins : hist.counts.length = 3 := by
    have hhead : (distinct ((Probe.values smallLog).map Float.toBits)).head? = some 1.0 := by
      rw [hdistinct]
      rfl
    have hlast : (distinct ((Probe.values smallLog).map Float.toBits)).getLast? = some 4.0 := by
      rw [hdistinct]
      rfl
    have hsame := ofValues_eq hhead hlast
    rw [hhist] at hsame
    rw [Except.ok.inj hsame, length_counts_binned, length_edgesOf, hdistinct]
    rfl
  subst hlo hhi
  rw [hbins] at hascend
  have hstep : step 4.0 = 2 ^ (-50 : ℤ) := rfl
  have hone : value 1.0 = 1 := value_one.2
  have hfour : value 4.0 = 4 := by
    have hform : (4.0 : Float).toModel.unpack = .finite .positive (2 ^ 52) (-50) (by positivity) :=
      rfl
    rw [value, hform, exact, withSign]
    norm_num
  have hresolved : Resolved 1.0 4.0 3 := by
    unfold Resolved Wide
    rw [if_neg (by norm_num), hstep, hone, hfour]
    norm_num
  exact ⟨hne, hist, hhist, (hascend hresolved).mpr (by unfold InRange; decide)⟩

/-- A log of `2 ^ 1020` and twice and thirteen times as much. The gap of the extremes is in range,
but twice the gap is not. -/
def largeLog : List Char :=
  Probe.marker.toList ++ '\n' :: Nat.toDigits 10 (2 ^ 1020) ++
    '\n' :: Nat.toDigits 10 (2 ^ 1021) ++ '\n' :: Nat.toDigits 10 (13 * 2 ^ 1020)

theorem largeLog_has_infinite_edge : Probe.values largeLog ≠ [] ∧
    ∃ hist, ofValues (Probe.values largeLog) = .ok hist ∧ ∃ e ∈ hist.edges, e.isFinite = false := by
  have hvalues : Probe.values largeLog =
      [2 ^ 1020, 2 ^ 1021, 13 * 2 ^ 1020].map fun n => ofDecimal n 0 := by decide +kernel
  have hdistinct : distinct ((Probe.values largeLog).map Float.toBits) =
      [2 ^ 1020, 2 ^ 1021, 13 * 2 ^ 1020].map fun n => ofDecimal n 0 := by
    rw [hvalues, distinct, sortWords, List.mergeSort_of_pairwise (by decide +kernel)]
    decide +kernel
  have hhead : (distinct ((Probe.values largeLog).map Float.toBits)).head? =
      some (ofDecimal (2 ^ 1020) 0) := by
    rw [hdistinct]
    rfl
  have hlast : (distinct ((Probe.values largeLog).map Float.toBits)).getLast? =
      some (ofDecimal (13 * 2 ^ 1020) 0) := by
    rw [hdistinct]
    rfl
  have hhist := ofValues_eq hhead hlast
  rw [hdistinct] at hhist
  have hedges : ((edgesOf (ofDecimal (2 ^ 1020) 0) (ofDecimal (13 * 2 ^ 1020) 0) 3).any
      fun e => !e.isFinite) = true := by decide +kernel
  obtain ⟨e, he, hinfinite⟩ := List.any_eq_true.mp hedges
  exact ⟨hvalues ▸ List.cons_ne_nil _ _, _, hhist, e, he, by simpa using hinfinite⟩

end Values

end TracePlot.Histogram
