import TracePlot.Proofs.Number.Words
import TracePlot.Records.PowerState

/-! The spells of all machines against the log they come from. Seen from one machine, the walk
through the log is a walk through the changes of that machine alone, and its spells cover each time
by the last change before it. -/

namespace TracePlot.PowerState

/-- The changes of one machine by time. -/
def history (changes : List Change) (m : Nat) : List Change :=
  (chronological changes).filter fun c => decide (m ∈ c.machines.ids)

/-- The last change of a machine at or before `t`. -/
def lastChange? (changes : List Change) (m : Nat) (t : Float) : Option Change :=
  ((chronological changes).filter fun c => decide (m ∈ c.machines.ids ∧ c.time ≤ t)).getLast?

def Spell.Covers (s : Spell) (t : Float) : Prop :=
  s.start ≤ t ∧ t < s.stop

instance (s : Spell) (t : Float) : Decidable (s.Covers t) :=
  inferInstanceAs (Decidable (_ ∧ _))

/-- What a change does to the ended spells and the state of a machine that it names. -/
def advance (m : Nat) (v : List Spell × Option (Int × Float)) (c : Change) :
    List Spell × Option (Int × Float) :=
  ((v.2.bind fun entered => endSpell? m entered c.time).toList ++ v.1, some (c.state, c.time))

/-- The ended spells and the state of one machine. -/
def view (m : Nat) (done : List Spell × Current) : List Spell × Option (Int × Float) :=
  (done.1.filter fun s => decide (s.machine = m), done.2[m]?)

/-- The spells of a machine going through its changes. -/
def walk (m : Nat) (stop : Float) : Option (Int × Float) → List Change → List Spell
  | entered, [] => (entered.bind fun e => endSpell? m e stop).toList
  | entered, c :: rest =>
    (entered.bind fun e => endSpell? m e c.time).toList ++ walk m stop (some (c.state, c.time)) rest

theorem chronological_perm (changes : List Change) : (chronological changes).Perm changes :=
  List.mergeSort_perm _ _

theorem chronological_sorted {changes : List Change} (h : ∀ c ∈ changes, c.time.isNaN = false) :
    (chronological changes).Pairwise fun a b => a.time ≤ b.time := by
  have hsorted : (chronological changes).Pairwise
      fun a b => Number.wordRankLE a.timeWord b.timeWord = true := by
    apply List.pairwise_mergeSort
    · exact fun _ _ _ => Number.wordRankLE_trans
    · exact fun _ _ => Number.wordRankLE_total _ _
  refine hsorted.imp_of_mem fun ha hb hab => ?_
  exact Number.le_of_wordRankLE (h _ ((chronological_perm changes).mem_iff.mp ha))
    (h _ ((chronological_perm changes).mem_iff.mp hb)) hab

/-- Changes of one time keep their order. -/
theorem chronological_stable {changes : List Change} {a b : Change}
    (hab : Number.wordRankLE a.timeWord b.timeWord = true) (h : [a, b].Sublist changes) :
    [a, b].Sublist (chronological changes) :=
  List.pair_sublist_mergeSort (fun _ _ _ => Number.wordRankLE_trans)
    (fun _ _ => Number.wordRankLE_total _ _) hab h

theorem mem_endSpell? {m : Nat} {entered : Int × Float} {stop : Float} {s : Spell} :
    s ∈ (endSpell? m entered stop).toList ↔
      entered.2 < stop ∧ s = ⟨m, entered.2, stop, entered.1⟩ := by
  unfold endSpell?
  split <;> simp_all

theorem advance_advance (m : Nat) (v : List Spell × Option (Int × Float)) (c : Change) :
    advance m (advance m v c) c = advance m v c := by
  simp [advance, endSpell?, Number.lt_irrefl]

theorem view_switch (m n : Nat) (c : Change) (done : List Spell × Current) :
    view m (switch c done.1 done.2 n) =
      if n = m then advance m (view m done) c else view m done := by
  obtain ⟨ended, current⟩ := done
  simp only [view, switch, List.filter_append]
  have hmachine : ∀ s ∈ ((current[n]?).bind fun entered => endSpell? n entered c.time).toList,
      s.machine = n := by
    intro s hs
    cases h : current[n]? with
    | none => simp [h] at hs
    | some entered =>
      rw [h, Option.bind_some, mem_endSpell?] at hs
      rw [hs.2]
  by_cases h : n = m
  · subst h
    rw [if_pos rfl, advance, List.filter_eq_self.mpr (by simpa using hmachine)]
    simp
  · rw [if_neg h, List.filter_eq_nil_iff.mpr fun s hs => by simp [hmachine s hs, h]]
    simp [Std.TreeMap.getElem?_insert, h]

theorem view_foldl_switch (m : Nat) (c : Change) (ids : List Nat) (done : List Spell × Current) :
    view m (ids.foldl (fun (spells, current) n => switch c spells current n) done) =
      if m ∈ ids then advance m (view m done) c else view m done := by
  induction ids generalizing done with
  | nil => simp
  | cons n ids ih =>
    rw [List.foldl_cons, ih, view_switch]
    by_cases hn : n = m
    · by_cases hm : m ∈ ids <;> simp [hn, hm, advance_advance]
    · by_cases hm : m ∈ ids <;> simp [hn, hm, Ne.symm hn]

/-- To a machine only the changes that name it matter. -/
theorem view_foldl_apply (m : Nat) (cs : List Change) (done : List Spell × Current) :
    view m (cs.foldl apply done) =
      (cs.filter fun c => decide (m ∈ c.machines.ids)).foldl (advance m) (view m done) := by
  induction cs generalizing done with
  | nil => rfl
  | cons c cs ih =>
    rw [List.foldl_cons, ih, apply, view_foldl_switch]
    by_cases h : m ∈ c.machines.ids <;> simp [h]

theorem foldl_advance (m : Nat) (stop : Float) (cs : List Change)
    (v : List Spell × Option (Int × Float)) :
    (cs.foldl (advance m) v).1.reverse ++
        ((cs.foldl (advance m) v).2.bind fun e => endSpell? m e stop).toList =
      v.1.reverse ++ walk m stop v.2 cs := by
  -- The fold puts ended spells in front and the walk puts them behind.
  induction cs generalizing v with
  | nil => rfl
  | cons c cs ih =>
    rw [List.foldl_cons, ih]
    cases hv : v.2.bind fun e => endSpell? m e c.time <;> simp [advance, walk, hv]

theorem filter_key_of_distinct {α : Type} {l : List (Nat × α)} {m : Nat} {e : α}
    (hd : l.Pairwise fun p q => p.1 ≠ q.1) (h : (m, e) ∈ l) :
    (l.filter fun p => decide (p.1 = m)) = [(m, e)] := by
  induction l with
  | nil => simp at h
  | cons p l ih =>
    rw [List.pairwise_cons] at hd
    rcases List.mem_cons.mp h with rfl | h
    · rw [List.filter_cons_of_pos (by simp), List.filter_eq_nil_iff.mpr]
      intro q hq
      simpa using (hd.1 q hq).symm
    · rw [List.filter_cons_of_neg (by simpa using hd.1 _ h), ih hd.2 h]

theorem filter_key_toList (current : Current) (m : Nat) :
    (current.toList.filter fun p => decide (p.1 = m)) =
      (current[m]?.map fun e => (m, e)).toList := by
  cases h : current[m]? with
  | none =>
    rw [List.filter_eq_nil_iff.mpr]
    · rfl
    · rintro ⟨n, e⟩ hmem hn
      have hn : n = m := by simpa using hn
      rw [Std.TreeMap.mem_toList_iff_getElem?_eq_some, hn, h] at hmem
      cases hmem
  | some e =>
    refine filter_key_of_distinct ?_ (Std.TreeMap.mem_toList_iff_getElem?_eq_some.mpr h)
    refine Std.TreeMap.distinct_keys_toList.imp fun hne heq => hne ?_
    rw [heq]
    exact Std.ReflCmp.compare_self

theorem filter_unended (current : Current) (stop : Float) (m : Nat) :
    ((current.toList.filterMap fun (n, e) => endSpell? n e stop).filter
        fun s => decide (s.machine = m)) =
      (current[m]?.bind fun e => endSpell? m e stop).toList := by
  have hsplit : (current.toList.filterMap fun (n, e) => endSpell? n e stop).filter
      (fun s => decide (s.machine = m)) =
        (current.toList.filter fun p => decide (p.1 = m)).filterMap
          fun (n, e) => endSpell? n e stop := by
    rw [List.filter_filterMap, List.filterMap_filter]
    congr 1
    funext ⟨n, e⟩
    by_cases hn : n = m <;> by_cases he : e.2 < stop <;> simp [endSpell?, hn, he]
  rw [hsplit, filter_key_toList]
  cases current[m]? with
  | none => rfl
  | some e => cases h : endSpell? m e stop <;> simp [h]

theorem spells_of_machine (changes : List Change) (stop : Float) (m : Nat) :
    (spells changes stop).filter (fun s => decide (s.machine = m)) =
      walk m stop none (history changes m) := by
  have hview := view_foldl_apply m (chronological changes) ([], ∅)
  have hended := congrArg Prod.fst hview
  have hstate := congrArg Prod.snd hview
  simp only [view] at hended hstate
  have hwalk := foldl_advance m stop (history changes m) (view m ([], ∅))
  simp only [view, List.filter_nil, Std.TreeMap.getElem?_emptyc] at hwalk
  rw [spells, List.filter_append, filter_unended, List.filter_reverse, hended, hstate]
  exact hwalk

theorem filter_endSpell? (m : Nat) (e : Int × Float) (stop t : Float) :
    ((endSpell? m e stop).toList.filter fun s => decide (s.Covers t)).map (·.state) =
      if e.2 ≤ t ∧ t < stop then [e.1] else [] := by
  unfold endSpell?
  by_cases h : e.2 < stop
  · by_cases ht : e.2 ≤ t ∧ t < stop <;> simp [h, ht, Spell.Covers]
  · have ht : ¬ (e.2 ≤ t ∧ t < stop) := fun ht => h (Number.lt_of_le_of_lt ht.1 ht.2)
    simp [h, ht]

/-- What covers `t` on a walk: the state of the last change at or before `t`, or the state at the
start when there is none. -/
theorem walk_some_covers (m : Nat) (stop t : Float) (e : Int × Float) {cs : List Change}
    (hsorted : cs.Pairwise fun a b => a.time ≤ b.time) (hfrom : ∀ c ∈ cs, e.2 ≤ c.time) :
    ((walk m stop (some e) cs).filter fun s => decide (s.Covers t)).map (·.state) =
      if e.2 ≤ t ∧ (t < stop ∨ ∃ c ∈ cs, t < c.time) then
        [((cs.filter fun c => decide (c.time ≤ t)).getLast?.map (·.state)).getD e.1]
      else [] := by
  induction cs generalizing e with
  | nil =>
    rw [walk, Option.bind_some, filter_endSpell?]
    simp
  | cons c rest ih =>
    rw [List.pairwise_cons] at hsorted
    have hc : e.2 ≤ c.time := hfrom c (by simp)
    rw [walk, Option.bind_some, List.filter_append, List.map_append, filter_endSpell?,
      ih (c.state, c.time) hsorted.2 hsorted.1]
    -- From `c` on the rest of the walk decides; before `c` no later change is reached either.
    by_cases hct : c.time ≤ t
    · have het := Number.le_trans hc hct
      have hnot : ¬ t < c.time := fun h => Number.not_le_of_lt h hct
      simp [hct, het, hnot, List.getLast?_cons]
    · have hrest : (rest.filter fun d => decide (d.time ≤ t)) = [] := by
        rw [List.filter_eq_nil_iff]
        intro d hd hdt
        exact hct (Number.le_trans (hsorted.1 d hd) (by simpa using hdt))
      by_cases het : e.2 ≤ t
      · have htc : t < c.time := (Number.not_le (Number.isNaN_right_of_le hc)
          (Number.isNaN_right_of_le het)).mp hct
        simp [hct, het, htc, hrest]
      · simp [hct, het]

theorem walk_none_covers (m : Nat) (stop t : Float) {cs : List Change}
    (hsorted : cs.Pairwise fun a b => a.time ≤ b.time) :
    ((walk m stop none cs).filter fun s => decide (s.Covers t)).map (·.state) =
      if t < stop ∨ ∃ c ∈ cs, t < c.time then
        ((cs.filter fun c => decide (c.time ≤ t)).getLast?.map (·.state)).toList
      else [] := by
  cases cs with
  | nil => simp [walk]
  | cons c rest =>
    rw [List.pairwise_cons] at hsorted
    rw [walk, Option.bind_none, Option.toList_none, List.nil_append,
      walk_some_covers m stop t (c.state, c.time) hsorted.2 hsorted.1]
    by_cases hct : c.time ≤ t
    · have hnot : ¬ t < c.time := fun h => Number.not_le_of_lt h hct
      simp [hct, hnot, List.getLast?_cons]
    · have hrest : (rest.filter fun d => decide (d.time ≤ t)) = [] := by
        rw [List.filter_eq_nil_iff]
        intro d hd hdt
        exact hct (Number.le_trans (hsorted.1 d hd) (by simpa using hdt))
      simp [hct, hrest]

theorem lastChange?_eq (changes : List Change) (m : Nat) (t : Float) :
    lastChange? changes m t =
      ((history changes m).filter fun c => decide (c.time ≤ t)).getLast? := by
  rw [lastChange?, history, List.filter_filter]
  congr 2
  funext c
  rw [Bool.decide_and, Bool.and_comm]

theorem mem_history {changes : List Change} {m : Nat} {c : Change} :
    c ∈ history changes m ↔ c ∈ changes ∧ m ∈ c.machines.ids := by
  rw [history, List.mem_filter, (chronological_perm changes).mem_iff, decide_eq_true_eq]

theorem history_sorted {changes : List Change} (h : ∀ c ∈ changes, c.time.isNaN = false) (m : Nat) :
    (history changes m).Pairwise fun a b => a.time ≤ b.time :=
  (chronological_sorted h).filter _

/-- The spells of a machine that cover a time: one in the state of the last change, if there is
one, as long as the log or the given end goes beyond that time. -/
theorem covering_states {changes : List Change} (h : ∀ c ∈ changes, c.time.isNaN = false)
    (stop : Float) (m : Nat) (t : Float) :
    ((spells changes stop).filter fun s => decide (s.machine = m ∧ s.Covers t)).map (·.state) =
      if t < stop ∨ ∃ c ∈ changes, m ∈ c.machines.ids ∧ t < c.time then
        ((lastChange? changes m t).map (·.state)).toList
      else [] := by
  have hsplit : ((spells changes stop).filter fun s => decide (s.machine = m ∧ s.Covers t)) =
      (walk m stop none (history changes m)).filter fun s => decide (s.Covers t) := by
    rw [← spells_of_machine, List.filter_filter]
    congr 1
    funext s
    rw [Bool.decide_and, Bool.and_comm]
  rw [hsplit, walk_none_covers m stop t (history_sorted h m), lastChange?_eq]
  simp only [mem_history, and_assoc]

theorem start_lt_stop_of_mem_walk {m : Nat} {stop : Float} {e : Option (Int × Float)}
    {cs : List Change} {s : Spell} (h : s ∈ walk m stop e cs) : s.start < s.stop := by
  have hend {e : Option (Int × Float)} {stop : Float}
      (h : s ∈ (e.bind fun e => endSpell? m e stop).toList) : s.start < s.stop := by
    cases e with
    | none => simp at h
    | some e =>
      rw [Option.bind_some, mem_endSpell?] at h
      rw [h.2]
      exact h.1
  induction cs generalizing e with
  | nil => exact hend h
  | cons c rest ih =>
    rw [walk, List.mem_append] at h
    exact h.elim hend ih

theorem mem_walk_of_mem_spells {changes : List Change} {stop : Float} {s : Spell}
    (h : s ∈ spells changes stop) :
    s ∈ walk s.machine stop none (history changes s.machine) := by
  rw [← spells_of_machine]
  exact List.mem_filter.mpr ⟨h, by simp⟩

theorem start_lt_stop_of_mem_spells {changes : List Change} {stop : Float} {s : Spell}
    (h : s ∈ spells changes stop) : s.start < s.stop :=
  start_lt_stop_of_mem_walk (mem_walk_of_mem_spells h)

theorem exists_change_of_mem_spells {changes : List Change} {stop : Float} {s : Spell}
    (h : s ∈ spells changes stop) : ∃ c ∈ changes, s.machine ∈ c.machines.ids := by
  have hmem := mem_walk_of_mem_spells h
  cases hc : history changes s.machine with
  | nil =>
    rw [hc] at hmem
    simp [walk] at hmem
  | cons c rest => exact ⟨c, mem_history.mp (hc ▸ List.mem_cons_self)⟩

/-- At each time a machine is in the state of its last change, and each of its spells has a
length. -/
theorem spells_follow_last_change {changes : List Change}
    (h : ∀ c ∈ changes, c.time.isNaN = false) (stop : Float) :
    (∀ m p t, (∃ s ∈ spells changes stop, s.machine = m ∧ s.state = p ∧ s.Covers t) ↔
        (∃ c, lastChange? changes m t = some c ∧ c.state = p) ∧
          (t < stop ∨ ∃ c ∈ changes, m ∈ c.machines.ids ∧ t < c.time)) ∧
      (∀ m t, ((spells changes stop).filter
        fun s => decide (s.machine = m ∧ s.Covers t)).length ≤ 1) ∧
      ∀ s ∈ spells changes stop, s.start < s.stop := by
  refine ⟨fun m p t => ?_, fun m t => ?_, fun s hs => ?_⟩
  · have hcover := covering_states h stop m t
    have hmem : (∃ s ∈ spells changes stop, s.machine = m ∧ s.state = p ∧ s.Covers t) ↔
        p ∈ ((spells changes stop).filter
          fun s => decide (s.machine = m ∧ s.Covers t)).map (·.state) := by
      simp only [List.mem_map, List.mem_filter, decide_eq_true_eq]
      exact ⟨fun ⟨s, hs, hm, hp, hc⟩ => ⟨s, ⟨hs, hm, hc⟩, hp⟩,
        fun ⟨s, ⟨hs, hm, hc⟩, hp⟩ => ⟨s, hs, hm, hp, hc⟩⟩
    rw [hmem, hcover]
    split
    · next hgo => simp [hgo]
    · next hgo => simp [hgo]
  · rw [← List.length_map (fun s => s.state), covering_states h stop m t]
    split
    · cases lastChange? changes m t <;> simp
    · simp
  · exact start_lt_stop_of_mem_spells hs

/-- Two changes of one time, after an earlier one that stands between them in the log. -/
def tiedLog : List Change :=
  [⟨Float.toBits 10.0, ⟨[⟨1, 1⟩]⟩, 15⟩, ⟨Float.toBits 0.0, ⟨[⟨0, 1⟩]⟩, 0⟩,
    ⟨Float.toBits 10.0, ⟨[⟨1, 2⟩]⟩, 13⟩]

theorem chronological_tiedLog : chronological tiedLog =
    [⟨Float.toBits 0.0, ⟨[⟨0, 1⟩]⟩, 0⟩, ⟨Float.toBits 10.0, ⟨[⟨1, 1⟩]⟩, 15⟩,
      ⟨Float.toBits 10.0, ⟨[⟨1, 2⟩]⟩, 13⟩] := by
  have hswap : Number.wordRankLE (Float.toBits 10.0) (Float.toBits 0.0) = false := by decide
  have hkeep : Number.wordRankLE (Float.toBits 0.0) (Float.toBits 10.0) = true := by decide
  have htie : Number.wordRankLE (Float.toBits 10.0) (Float.toBits 10.0) = true := by decide
  simp [chronological, tiedLog, List.mergeSort, List.MergeSort.Internal.splitInTwo, hswap, hkeep,
    htie]

theorem tiedLog_last_of_tie_holds : (∀ c ∈ tiedLog, c.time.isNaN = false) ∧
    ∃ s ∈ spells tiedLog 20.0, s.machine = 1 ∧ s.state = 13 ∧ s.Covers 15.0 := by
  have htimes : ∀ c ∈ tiedLog, c.time.isNaN = false := by decide
  have hlast : (lastChange? tiedLog 1 15.0).map (·.state) = some 13 := by
    rw [lastChange?, chronological_tiedLog]
    decide
  refine ⟨htimes, ((spells_follow_last_change htimes 20.0).1 1 13 15.0).mpr ⟨?_, .inl ?_⟩⟩
  · exact Option.map_eq_some_iff.mp hlast
  · decide

end TracePlot.PowerState
