import Mathlib.Data.List.Basic
import TracePlot.Resource.IdSet

/-! Lists of ranges: the ids that they hold, and joining ranges until a gap separates any two.
Lists with such gaps are equal when they hold the same ids. -/

namespace TracePlot.Resource

/-- The id is in one of the ranges. -/
def Holds (ranges : List IdRange) (n : Nat) : Prop :=
  ∃ r ∈ ranges, r.first ≤ n ∧ n ≤ r.last

instance (ranges : List IdRange) (n : Nat) : Decidable (Holds ranges n) :=
  inferInstanceAs (Decidable (∃ r ∈ ranges, _))

/-- A range of ids that there are. -/
structure IdRange.Proper (r : IdRange) : Prop where
  ordered : r.first ≤ r.last
  fits : r.last ≤ maxId

/-- Proper ranges, ascending, with at least one id between any two. -/
structure Gapped (ranges : List IdRange) : Prop where
  proper : ∀ r ∈ ranges, r.Proper
  gaps : ranges.Pairwise fun a b => a.last + 1 < b.first

theorem holds_nil (n : Nat) : ¬ Holds [] n := by
  simp [Holds]

theorem holds_cons {r : IdRange} {ranges : List IdRange} {n : Nat} :
    Holds (r :: ranges) n ↔ (r.first ≤ n ∧ n ≤ r.last) ∨ Holds ranges n := by
  simp [Holds]

theorem IdSet.mem_idsOf {r : IdRange} {n : Nat} : n ∈ idsOf r ↔ r.first ≤ n ∧ n ≤ r.last := by
  rw [idsOf, List.mem_range'_1]
  omega

theorem IdSet.mem_ids {s : IdSet} {n : Nat} : n ∈ s.ids ↔ Holds s.ranges n := by
  simp only [ids, List.mem_flatMap, mem_idsOf, Holds]

theorem Gapped.tail {r : IdRange} {ranges : List IdRange} (h : Gapped (r :: ranges)) :
    Gapped ranges :=
  ⟨fun q hq => h.proper q (List.mem_cons_of_mem _ hq), h.gaps.tail⟩

theorem Gapped.lt_of_holds_tail {r : IdRange} {ranges : List IdRange} {n : Nat}
    (h : Gapped (r :: ranges)) (hn : Holds ranges n) : r.last + 1 < n := by
  obtain ⟨q, hq, hfirst, -⟩ := hn
  exact Nat.lt_of_lt_of_le (List.rel_of_pairwise_cons h.gaps hq) hfirst

theorem Gapped.holds_tail_iff {r : IdRange} {ranges : List IdRange} {n : Nat}
    (h : Gapped (r :: ranges)) : Holds ranges n ↔ Holds (r :: ranges) n ∧ r.last < n := by
  have hlt : Holds ranges n → r.last < n := fun hn => by
    have := h.lt_of_holds_tail hn
    omega
  rw [holds_cons]
  constructor
  · exact fun hn => ⟨.inr hn, hlt hn⟩
  · rintro ⟨⟨-, hle⟩ | hn, hgt⟩
    · omega
    · exact hn

theorem Gapped.countP_holding {ranges : List IdRange} (h : Gapped ranges) (n : Nat) :
    (ranges.countP fun r => decide (r.first ≤ n ∧ n ≤ r.last)) =
      if Holds ranges n then 1 else 0 := by
  induction ranges with
  | nil => rfl
  | cons r rest ih =>
    rw [List.countP_cons, ih h.tail]
    by_cases hr : r.first ≤ n ∧ n ≤ r.last
    · have hrest : ¬ Holds rest n := by
        intro hn
        have := h.lt_of_holds_tail hn
        omega
      simp [holds_cons, hr, hrest]
    · simp [holds_cons, hr]

theorem Gapped.head_bounds {r q : IdRange} {rs qs : List IdRange} (hr : Gapped (r :: rs))
    (hq : Gapped (q :: qs)) (h : ∀ n, Holds (r :: rs) n → Holds (q :: qs) n) :
    q.first ≤ r.first ∧ (q.first = r.first → r.last ≤ q.last) := by
  have hrp := (hr.proper r (by simp)).ordered
  have hqp := (hq.proper q (by simp)).ordered
  constructor
  · rcases holds_cons.mp (h r.first (holds_cons.mpr (.inl ⟨by omega, hrp⟩))) with hin | hin
    · exact hin.1
    · have := hq.lt_of_holds_tail hin
      omega
  · intro hfirst
    -- Otherwise the id after `q` is held on the left and falls into the gap on the right.
    by_contra hlast
    rcases holds_cons.mp (h (q.last + 1) (holds_cons.mpr (.inl ⟨by omega, by omega⟩))) with
      hin | hin
    · omega
    · have := hq.lt_of_holds_tail hin
      omega

theorem Gapped.eq_of_holds_iff {rs qs : List IdRange} (hr : Gapped rs) (hq : Gapped qs)
    (h : ∀ n, Holds rs n ↔ Holds qs n) : rs = qs := by
  induction rs generalizing qs with
  | nil =>
    cases qs with
    | nil => rfl
    | cons q qs =>
      have hqp := (hq.proper q (by simp)).ordered
      exact absurd ((h q.first).mpr (holds_cons.mpr (.inl ⟨by omega, hqp⟩))) (holds_nil _)
  | cons r rs ih =>
    cases qs with
    | nil =>
      have hrp := (hr.proper r (by simp)).ordered
      exact absurd ((h r.first).mp (holds_cons.mpr (.inl ⟨by omega, hrp⟩))) (holds_nil _)
    | cons q qs =>
      have hle := hr.head_bounds hq fun n => (h n).mp
      have hge := hq.head_bounds hr fun n => (h n).mpr
      have hfirst : r.first = q.first := by omega
      have hlast : r.last = q.last := Nat.le_antisymm (hle.2 hfirst.symm) (hge.2 hfirst)
      have hhead : r = q := by
        cases r
        cases q
        simp_all
      subst hhead
      have htail : rs = qs := ih hr.tail hq.tail fun n => by
        rw [hr.holds_tail_iff, hq.holds_tail_iff, h n]
      rw [htail]

theorem lt_of_not_le_nextId {a b : IdRange} (hb : b.Proper) (h : ¬ b.first ≤ nextId a.last) :
    a.last + 1 < b.first := by
  have hordered := hb.ordered
  have hfits := hb.fits
  -- The cap of `nextId` is harmless: nothing starts after the greatest id.
  unfold nextId at h
  omega

theorem IdRange.Proper.join {a b : IdRange} (ha : a.Proper) (hb : b.Proper) :
    IdRange.Proper ⟨a.first, max a.last b.last⟩ :=
  ⟨Nat.le_trans ha.ordered (Nat.le_max_left _ _), Nat.max_le.mpr ⟨ha.fits, hb.fits⟩⟩

theorem holds_join {a b : IdRange} {ranges : List IdRange} {n : Nat} (hfirst : a.first ≤ b.first)
    (htouch : b.first ≤ nextId a.last) :
    Holds (⟨a.first, max a.last b.last⟩ :: ranges) n ↔ Holds (a :: b :: ranges) n := by
  have hnext : nextId a.last ≤ a.last + 1 := Nat.min_le_left _ _
  have hjoin : a.first ≤ n ∧ n ≤ max a.last b.last ↔
      (a.first ≤ n ∧ n ≤ a.last) ∨ b.first ≤ n ∧ n ≤ b.last := by
    omega
  rw [holds_cons, holds_cons, holds_cons, hjoin, or_assoc]

/-- Joining keeps the ids and their least one, and leaves a gap between any two ranges. -/
theorem mergeInto_spec {current : IdRange} {ranges : List IdRange}
    (hproper : ∀ r ∈ current :: ranges, r.Proper)
    (hsorted : (current :: ranges).Pairwise fun a b => a.first ≤ b.first) :
    Gapped (mergeInto current ranges) ∧
      (∀ r ∈ mergeInto current ranges, current.first ≤ r.first) ∧
      ∀ n, Holds (mergeInto current ranges) n ↔ Holds (current :: ranges) n := by
  induction ranges generalizing current with
  | nil =>
    refine ⟨⟨hproper, List.pairwise_singleton _ _⟩, fun r hr => ?_, fun n => Iff.rfl⟩
    exact Nat.le_of_eq (by rw [List.mem_singleton.mp hr])
  | cons r rest ih =>
    have hr := hproper r (by simp)
    have hfirst : current.first ≤ r.first := List.rel_of_pairwise_cons hsorted (by simp)
    rw [mergeInto]
    split
    · next htouch =>
      have hjoined : ∀ q ∈ (⟨current.first, max current.last r.last⟩ : IdRange) :: rest,
          q.Proper := by
        intro q hq
        rcases List.mem_cons.mp hq with rfl | hq
        · exact (hproper current (by simp)).join hr
        · exact hproper q (by simp [hq])
      obtain ⟨hgapped, hleast, hholds⟩ := ih hjoined (List.pairwise_cons.mpr
        ⟨fun q hq => List.rel_of_pairwise_cons hsorted (by simp [hq]), hsorted.tail.tail⟩)
      exact ⟨hgapped, hleast, fun n => (hholds n).trans (holds_join hfirst htouch)⟩
    · next happart =>
      have hgap := lt_of_not_le_nextId hr happart
      obtain ⟨hgapped, hleast, hholds⟩ :=
        ih (fun q hq => hproper q (List.mem_cons_of_mem _ hq)) hsorted.tail
      refine ⟨⟨fun q hq => ?_, List.pairwise_cons.mpr ⟨fun q hq => ?_, hgapped.gaps⟩⟩,
        fun q hq => ?_, fun n => ?_⟩
      · rcases List.mem_cons.mp hq with rfl | hq
        · exact hproper q (by simp)
        · exact hgapped.proper q hq
      · exact Nat.lt_of_lt_of_le hgap (hleast q hq)
      · rcases List.mem_cons.mp hq with rfl | hq
        · exact Nat.le_refl _
        · exact Nat.le_trans hfirst (hleast q hq)
      · rw [holds_cons, holds_cons, hholds]

theorem mergeSort_sorted (ranges : List IdRange) :
    (ranges.mergeSort IdRange.le).Pairwise fun a b => a.first ≤ b.first := by
  have hle : (ranges.mergeSort IdRange.le).Pairwise fun a b => IdRange.le a b = true := by
    apply List.pairwise_mergeSort
    · intro a b c
      simp only [IdRange.le, Bool.or_eq_true, Bool.and_eq_true, decide_eq_true_eq]
      omega
    · intro a b
      simp only [IdRange.le, Bool.or_eq_true, Bool.and_eq_true, decide_eq_true_eq]
      omega
  refine hle.imp fun h => ?_
  simp only [IdRange.le, Bool.or_eq_true, Bool.and_eq_true, decide_eq_true_eq] at h
  omega

theorem IdSet.ofRanges_spec {ranges : List IdRange} (h : ∀ r ∈ ranges, r.Proper) :
    Gapped (ofRanges ranges).ranges ∧
      ∀ n, Holds (ofRanges ranges).ranges n ↔ Holds ranges n := by
  have hmem (r : IdRange) : r ∈ ranges.mergeSort IdRange.le ↔ r ∈ ranges :=
    (List.mergeSort_perm _ _).mem_iff
  have hsorted := mergeSort_sorted ranges
  have hholds (n : Nat) : Holds (ranges.mergeSort IdRange.le) n ↔ Holds ranges n := by
    simp only [Holds, hmem]
  have hproper : ∀ r ∈ ranges.mergeSort IdRange.le, r.Proper := fun r hr => h r ((hmem r).mp hr)
  simp only [← hholds]
  unfold ofRanges
  cases hs : ranges.mergeSort IdRange.le with
  | nil => exact ⟨⟨by simp [merge], List.Pairwise.nil⟩, fun n => Iff.rfl⟩
  | cons r rest =>
    rw [hs] at hproper hsorted
    obtain ⟨hgapped, -, hsame⟩ := mergeInto_spec hproper hsorted
    exact ⟨hgapped, hsame⟩

theorem IdSet.ids_ascending {s : IdSet} (h : Gapped s.ranges) : s.ids.Pairwise (· < ·) := by
  rw [ids, List.pairwise_flatMap]
  refine ⟨fun r _ => List.pairwise_lt_range', h.gaps.imp_of_mem fun ha hb hgap => ?_⟩
  intro m hm n hn
  have hlast := (mem_idsOf.mp hm).2
  have hfirst := (mem_idsOf.mp hn).1
  omega

end TracePlot.Resource
