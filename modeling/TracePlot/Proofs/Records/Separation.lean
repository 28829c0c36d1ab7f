import TracePlot.Proofs.Records.Spells
import TracePlot.Proofs.StableSort

/-! Machines do not interfere. The spells of a machine come from the times and states that the log
gives for it, so they stay the same when changes are split up by machine, when changes of other
machines are added, and when changes that nothing ties together are put in another order. -/

namespace TracePlot.PowerState

/-- The times, as words, and the states that a log gives for a machine, in the order of the log. -/
def entries (changes : List Change) (m : Nat) : List (UInt64 × Int) :=
  (changes.filter fun c => decide (m ∈ c.machines.ids)).map fun c => (c.timeWord, c.state)

def spellsOf (changes : List Change) (stop : Float) (m : Nat) : List Spell :=
  (spells changes stop).filter fun s => decide (s.machine = m)

/-- A spell from each entry to the next and from the last one to the end. -/
def stretches (m : Nat) (stop : Float) : List (UInt64 × Int) → List Spell
  | [] => []
  | [(time, state)] => (endSpell? m (state, Float.ofBits time) stop).toList
  | (time, state) :: (next, state') :: rest =>
    (endSpell? m (state, Float.ofBits time) (Float.ofBits next)).toList ++
      stretches m stop ((next, state') :: rest)

/-- One change for each of the machines. -/
def Change.split (c : Change) (machines : List Nat) : List Change :=
  machines.map fun m => { c with machines := ⟨[⟨m, m⟩]⟩ }

/-- The changes are the same, and those of one time that name one machine come in the same order. -/
structure Reordered (changes changes' : List Change) : Prop where
  perm : changes.Perm changes'
  order : ∀ (m : Nat) (w : UInt64),
    (changes.filter fun c => decide (m ∈ c.machines.ids ∧ c.timeWord = w)) =
      changes'.filter fun c => decide (m ∈ c.machines.ids ∧ c.timeWord = w)

variable {changes changes' : List Change} {m : Nat} {stop : Float}

def entryLE (a b : UInt64 × Int) : Bool :=
  Number.wordRankLE a.1 b.1

theorem entryLE_trans (a b c : UInt64 × Int) (hab : entryLE a b = true)
    (hbc : entryLE b c = true) : entryLE a c = true :=
  Number.wordRankLE_trans hab hbc

theorem entryLE_total (a b : UInt64 × Int) : (entryLE a b || entryLE b a) = true :=
  Number.wordRankLE_total _ _

theorem tied_entryLE_iff {a b : UInt64 × Int} : tied entryLE a b = true ↔ b.1 = a.1 := by
  rw [tied_eq_true_iff]
  refine ⟨fun h => Number.eq_of_wordRankLE h.2 h.1, fun h => ?_⟩
  simp [entryLE, Number.wordRankLE, h]

/-- Sorting the log of all machines sorts the log of each. -/
theorem entries_chronological (changes : List Change) (m : Nat) :
    entries (chronological changes) m = (entries changes m).mergeSort entryLE := by
  have hfilter : ((chronological changes).filter fun c => decide (m ∈ c.machines.ids)) =
      (changes.filter fun c => decide (m ∈ c.machines.ids)).mergeSort
        fun a b => Number.wordRankLE a.timeWord b.timeWord := by
    apply filter_mergeSort
    · exact fun _ _ _ => Number.wordRankLE_trans
    · exact fun _ _ => Number.wordRankLE_total _ _
  rw [entries, hfilter, List.map_mergeSort]
  · rfl
  · intro a _ b _
    rfl

theorem walk_eq_stretches (m : Nat) (stop : Float) (e : UInt64 × Int) (cs : List Change) :
    walk m stop (some (e.2, Float.ofBits e.1)) cs =
      stretches m stop (e :: cs.map fun c => (c.timeWord, c.state)) := by
  induction cs generalizing e with
  | nil => rfl
  | cons c cs ih =>
    have hrest := ih (c.timeWord, c.state)
    rw [List.map_cons, stretches, ← hrest]
    rfl

theorem spellsOf_eq_stretches (changes : List Change) (stop : Float) (m : Nat) :
    spellsOf changes stop m = stretches m stop (entries (chronological changes) m) := by
  have hhistory : entries (chronological changes) m =
      (history changes m).map fun c => (c.timeWord, c.state) := rfl
  rw [spellsOf, spells_of_machine, hhistory]
  cases history changes m with
  | nil => rfl
  | cons c cs => exact walk_eq_stretches m stop (c.timeWord, c.state) cs

theorem spellsOf_congr (h : entries changes m = entries changes' m) :
    spellsOf changes stop m = spellsOf changes' stop m := by
  rw [spellsOf_eq_stretches, spellsOf_eq_stretches, entries_chronological, entries_chronological, h]

theorem entries_append (changes changes' : List Change) (m : Nat) :
    entries (changes ++ changes') m = entries changes m ++ entries changes' m := by
  simp only [entries, List.filter_append, List.map_append]

theorem ids_singleton (m : Nat) : (⟨[⟨m, m⟩]⟩ : Resource.IdSet).ids = [m] := by
  simp [Resource.IdSet.ids, Resource.IdSet.idsOf]

theorem entries_split (c : Change) {machines : List Nat} (h : machines.Nodup) (m : Nat) :
    entries (c.split machines) m = if m ∈ machines then [(c.timeWord, c.state)] else [] := by
  induction machines with
  | nil => rfl
  | cons k machines ih =>
    rw [List.nodup_cons] at h
    have hhead : entries [{ c with machines := ⟨[⟨k, k⟩]⟩ }] m =
        if m = k then [(c.timeWord, c.state)] else [] := by
      by_cases hk : m = k <;> simp [entries, ids_singleton, hk]
    have hsplit : c.split (k :: machines) =
        [{ c with machines := ⟨[⟨k, k⟩]⟩ }] ++ c.split machines := rfl
    rw [hsplit, entries_append, hhead, ih h.2]
    by_cases hk : m = k
    · simp [hk, h.1]
    · simp [hk]

theorem entries_of_one (c : Change) (m : Nat) :
    entries [c] m = if m ∈ c.machines.ids then [(c.timeWord, c.state)] else [] := by
  by_cases h : m ∈ c.machines.ids <;> simp [entries, h]

theorem spellsOf_split (c : Change) (before after : List Change) {machines : List Nat}
    (hnodup : machines.Nodup) (hmachines : ∀ k, k ∈ machines ↔ k ∈ c.machines.ids) :
    spellsOf (before ++ c.split machines ++ after) stop m =
      spellsOf (before ++ c :: after) stop m := by
  apply spellsOf_congr
  have hcons : before ++ c :: after = before ++ [c] ++ after := by simp
  rw [hcons, entries_append, entries_append, entries_append, entries_append,
    entries_split c hnodup, entries_of_one]
  simp only [hmachines]

theorem spellsOf_of_reordered (h : Reordered changes changes') :
    spellsOf changes stop m = spellsOf changes' stop m := by
  rw [spellsOf_eq_stretches, spellsOf_eq_stretches, entries_chronological, entries_chronological]
  refine congrArg (stretches m stop)
    ((mergeSort_eq_mergeSort_iff entryLE_trans entryLE_total).mpr fun a => ?_)
  have hgroup (cs : List Change) : (entries cs m).filter (tied entryLE a) =
      (cs.filter fun c => decide (m ∈ c.machines.ids ∧ c.timeWord = a.1)).map
        fun c => (c.timeWord, c.state) := by
    rw [entries, List.filter_map, List.filter_filter]
    congr 2
    funext c
    rw [Bool.eq_iff_iff]
    simp [tied_entryLE_iff, and_comm]
  rw [hgroup, hgroup, h.order m a.1]

/-- Neighbours may change places unless they share a machine and a time. -/
theorem reordered_swap {a b : Change} (before after : List Change)
    (h : a.timeWord = b.timeWord → ∀ m, m ∈ a.machines.ids → m ∉ b.machines.ids) :
    Reordered (before ++ a :: b :: after) (before ++ b :: a :: after) := by
  refine ⟨(List.Perm.swap b a after).append_left before, fun m w => ?_⟩
  rw [List.filter_append, List.filter_append]
  congr 1
  by_cases ha : m ∈ a.machines.ids ∧ a.timeWord = w
  · have hb : ¬ (m ∈ b.machines.ids ∧ b.timeWord = w) := fun hb =>
      h (ha.2.trans hb.2.symm) m ha.1 hb.1
    simp only [List.filter_cons, ha, hb, decide_false, Bool.false_eq_true, if_false]
  · simp only [List.filter_cons, ha, decide_false, Bool.false_eq_true, if_false]

/-- The spells of a machine lie between the times that the log gives for it. So they do not change
when a change is split up by machine, when the logs differ in other machines only, and when the
changes are put in another order that keeps ties of one machine. -/
theorem machines_do_not_interfere (m : Nat) (stop : Float) :
    (∀ changes, spellsOf changes stop m = stretches m stop (entries (chronological changes) m)) ∧
    (∀ changes changes', entries (chronological changes) m = entries (chronological changes') m →
      spellsOf changes stop m = spellsOf changes' stop m) ∧
    (∀ (before : List Change) (c : Change) (after : List Change) (machines : List Nat),
      machines.Nodup → (∀ k, k ∈ machines ↔ k ∈ c.machines.ids) →
        spellsOf (before ++ c.split machines ++ after) stop m =
          spellsOf (before ++ c :: after) stop m) ∧
    (∀ changes changes' : List Change,
      (changes.filter fun c => decide (m ∈ c.machines.ids)) =
          (changes'.filter fun c => decide (m ∈ c.machines.ids)) →
        spellsOf changes stop m = spellsOf changes' stop m) ∧
    ∀ changes changes', Reordered changes changes' →
      spellsOf changes stop m = spellsOf changes' stop m := by
  refine ⟨fun changes => spellsOf_eq_stretches changes stop m, fun changes changes' h => ?_,
    fun before c after machines hnodup hmachines => spellsOf_split c before after hnodup hmachines,
    fun changes changes' h => ?_, fun changes changes' h => spellsOf_of_reordered h⟩
  · rw [spellsOf_eq_stretches, spellsOf_eq_stretches, h]
  · have hentries : entries changes m = entries changes' m := by rw [entries, h, entries]
    exact spellsOf_congr hentries

def sharedChange : Change := ⟨Float.toBits 5.0, ⟨[⟨1, 2⟩]⟩, 13⟩

def earlierChange : Change := ⟨Float.toBits 0.0, ⟨[⟨0, 1⟩]⟩, 0⟩

def tiedChange : Change := ⟨Float.toBits 5.0, ⟨[⟨1, 1⟩]⟩, 15⟩

/-- A change at a NaN with a minus, which comes before all numbers. -/
def nanChange : Change := ⟨0xFFF8000000000000, ⟨[⟨1, 1⟩]⟩, 13⟩

theorem sharedChange_split_moved_and_alone :
    spellsOf ([] ++ sharedChange.split [2, 1] ++ [earlierChange, tiedChange]) 9.0 1 =
        spellsOf [sharedChange, earlierChange, tiedChange] 9.0 1 ∧
      spellsOf [sharedChange, earlierChange, tiedChange] 9.0 1 =
        spellsOf [earlierChange, sharedChange, tiedChange] 9.0 1 ∧
      spellsOf [sharedChange, earlierChange, tiedChange] 9.0 2 =
        spellsOf [sharedChange] 9.0 2 ∧
      spellsOf [earlierChange, sharedChange, tiedChange] 9.0 1 =
        [⟨1, 0.0, 5.0, 0⟩, ⟨1, 5.0, 9.0, 15⟩] ∧
      spellsOf [earlierChange, tiedChange, nanChange] 9.0 1 =
        [⟨1, 0.0, 5.0, 0⟩, ⟨1, 5.0, 9.0, 15⟩] := by
  have hmachines (k : Nat) : k ∈ [2, 1] ↔ k ∈ sharedChange.machines.ids := by
    have hids : sharedChange.machines.ids = [1, 2] := by decide
    rw [hids]
    simp [or_comm]
  have hmoved : Reordered [sharedChange, earlierChange, tiedChange]
      [earlierChange, sharedChange, tiedChange] :=
    reordered_swap [] [tiedChange] fun htimes => absurd htimes (by decide)
  obtain ⟨hstretches, -, hsplit, -, hreordered⟩ := machines_do_not_interfere 1 9.0
  obtain ⟨-, -, -, hothers, -⟩ := machines_do_not_interfere 2 9.0
  have hlast : Reordered [earlierChange, tiedChange, nanChange]
      [earlierChange, nanChange, tiedChange] :=
    reordered_swap [earlierChange] [] fun htimes => absurd htimes (by decide)
  have hfirst : Reordered [earlierChange, nanChange, tiedChange]
      [nanChange, earlierChange, tiedChange] :=
    reordered_swap [] [tiedChange] fun htimes => absurd htimes (by decide)
  have hbefore : (0.0 : Float) < 5.0 := by decide
  have htie : ¬ (5.0 : Float) < 5.0 := by decide
  have hend : (5.0 : Float) < 9.0 := by decide
  have hnan : ¬ Float.ofBits 0xFFF8000000000000 < 0.0 := by decide
  refine ⟨hsplit [] sharedChange [earlierChange, tiedChange] [2, 1] (by decide) hmachines,
    hreordered _ _ hmoved, hothers _ _ rfl, ?_, ?_⟩
  · have hentries : entries [earlierChange, sharedChange, tiedChange] 1 =
        [(Float.toBits 0.0, 0), (Float.toBits 5.0, 13), (Float.toBits 5.0, 15)] := rfl
    rw [hstretches, entries_chronological, hentries, List.mergeSort_of_pairwise (by decide)]
    simp [stretches, endSpell?, Float.ofBits_toBits, hbefore, htie, hend]
  · have hentries : entries [nanChange, earlierChange, tiedChange] 1 =
        [(0xFFF8000000000000, 13), (Float.toBits 0.0, 0), (Float.toBits 5.0, 15)] := rfl
    rw [hreordered _ _ hlast, hreordered _ _ hfirst, hstretches, entries_chronological, hentries,
      List.mergeSort_of_pairwise (by decide)]
    simp [stretches, endSpell?, Float.ofBits_toBits, hbefore, hend, hnan]

end TracePlot.PowerState
