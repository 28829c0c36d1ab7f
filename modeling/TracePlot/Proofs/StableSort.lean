import Mathlib.Data.List.Basic

/-! Stable sorting. A sorted list is known by its groups of tied values, and a stable sort leaves
these groups as they are. So whatever is left out of a sorted list may as well be left out before
the list is sorted. -/

namespace TracePlot

variable {α : Type} {le : α → α → Bool} {xs ys : List α} {a b : α}

/-- Neither value has to come before the other. -/
def tied (le : α → α → Bool) (a b : α) : Bool :=
  le a b && le b a

theorem tied_eq_true_iff : tied le a b = true ↔ le a b = true ∧ le b a = true := by
  rw [tied, Bool.and_eq_true]

/-- Of two sorted lists with the same groups each begins with a value of the other, so both begin
with a value of one group. -/
theorem eq_of_filter_tied_eq (hrefl : ∀ a, le a a = true)
    (hxs : xs.Pairwise fun a b => le a b = true) (hys : ys.Pairwise fun a b => le a b = true)
    (h : ∀ a, xs.filter (tied le a) = ys.filter (tied le a)) : xs = ys := by
  have hself (a : α) : tied le a a = true := tied_eq_true_iff.mpr ⟨hrefl a, hrefl a⟩
  induction xs generalizing ys with
  | nil =>
    cases ys with
    | nil => rfl
    | cons y ys => simpa [hself y] using h y
  | cons x xs ih =>
    cases ys with
    | nil => simpa [hself x] using h x
    | cons y ys =>
      have hx : x ∈ y :: ys :=
        List.mem_of_mem_filter (h x ▸ List.mem_filter.mpr ⟨List.mem_cons_self, hself x⟩)
      have hy : y ∈ x :: xs :=
        List.mem_of_mem_filter ((h y).symm ▸ List.mem_filter.mpr ⟨List.mem_cons_self, hself y⟩)
      rw [List.pairwise_cons] at hxs hys
      have hyx : le y x = true := (List.mem_cons.mp hx).elim (fun he => he ▸ hrefl x) (hys.1 x)
      have hxy : le x y = true := (List.mem_cons.mp hy).elim (fun he => he ▸ hrefl y) (hxs.1 y)
      have hfirst := h x
      rw [List.filter_cons_of_pos (hself x),
        List.filter_cons_of_pos (tied_eq_true_iff.mpr ⟨hxy, hyx⟩)] at hfirst
      obtain rfl : x = y := (List.cons.inj hfirst).1
      refine congrArg (x :: ·) (ih hxs.2 hys.2 fun a => ?_)
      have hgroup := h a
      by_cases ha : tied le a x = true
      · rw [List.filter_cons_of_pos ha, List.filter_cons_of_pos ha] at hgroup
        exact (List.cons.inj hgroup).2
      · rwa [List.filter_cons_of_neg ha, List.filter_cons_of_neg ha] at hgroup

section MergeSort

variable (htrans : ∀ a b c, le a b = true → le b c = true → le a c = true)
  (htotal : ∀ a b, (le a b || le b a) = true)

include htrans in
theorem pairwise_filter_tied (xs : List α) (a : α) :
    (xs.filter (tied le a)).Pairwise fun b c => le b c = true := by
  have hties : ∀ b ∈ xs.filter (tied le a), tied le a b = true := fun b hb =>
    (List.mem_filter.mp hb).2
  refine List.pairwise_of_forall_mem_list fun b hb c hc => ?_
  exact htrans b a c (tied_eq_true_iff.mp (hties b hb)).2 (tied_eq_true_iff.mp (hties c hc)).1

include htrans htotal

theorem filter_tied_mergeSort (xs : List α) (a : α) :
    (xs.mergeSort le).filter (tied le a) = xs.filter (tied le a) := by
  have hsub : (xs.filter (tied le a)).Sublist (xs.mergeSort le) :=
    List.sublist_mergeSort htrans htotal (pairwise_filter_tied htrans xs a) List.filter_sublist
  have hgroup := hsub.filter (tied le a)
  simp only [List.filter_filter, Bool.and_self] at hgroup
  exact (hgroup.eq_of_length ((List.mergeSort_perm xs le).filter _).length_eq.symm).symm

theorem mergeSort_eq_mergeSort_iff :
    xs.mergeSort le = ys.mergeSort le ↔
      ∀ a, xs.filter (tied le a) = ys.filter (tied le a) := by
  constructor
  · intro h a
    rw [← filter_tied_mergeSort htrans htotal xs, h, filter_tied_mergeSort htrans htotal]
  · intro h
    refine eq_of_filter_tied_eq (fun a => by simpa using htotal a a)
      (List.pairwise_mergeSort htrans htotal xs) (List.pairwise_mergeSort htrans htotal ys)
      fun a => ?_
    rw [filter_tied_mergeSort htrans htotal, filter_tied_mergeSort htrans htotal, h a]

theorem filter_mergeSort (p : α → Bool) (xs : List α) :
    (xs.mergeSort le).filter p = (xs.filter p).mergeSort le := by
  refine eq_of_filter_tied_eq (fun a => by simpa using htotal a a)
    ((List.pairwise_mergeSort htrans htotal xs).filter p)
    (List.pairwise_mergeSort htrans htotal _) fun a => ?_
  rw [filter_tied_mergeSort htrans htotal, List.filter_comm, filter_tied_mergeSort htrans htotal,
    List.filter_comm]

end MergeSort

end TracePlot
