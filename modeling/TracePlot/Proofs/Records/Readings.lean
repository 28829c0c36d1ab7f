import TracePlot.Proofs.Window
import TracePlot.Records.Energy

/-! Repeated readings and time windows. Of readings with one time the first is kept, whether the
window is applied before or after, and a window cuts one stretch out of readings in the order of
time. So the power in a window is the power of the whole series between readings of the window.
Keeping the first readings keeps the very first of all, but the last one only if its time is new. -/

namespace TracePlot.Energy

section Firsts

variable {seen seen' : List UInt64} {r : Reading} {rs : List Reading}

theorem firstsFrom_cons_of_mem (h : r.timeWord ∈ seen) :
    firstsFrom seen (r :: rs) = firstsFrom seen rs := by
  simp [firstsFrom, h]

theorem firstsFrom_cons_of_not_mem (h : r.timeWord ∉ seen) :
    firstsFrom seen (r :: rs) = r :: firstsFrom (r.timeWord :: seen) rs := by
  simp [firstsFrom, h]

theorem firstsFrom_sublist (seen : List UInt64) (rs : List Reading) :
    (firstsFrom seen rs).Sublist rs := by
  induction rs generalizing seen with
  | nil => exact List.Sublist.slnil
  | cons r rest ih =>
    by_cases hseen : r.timeWord ∈ seen
    · rw [firstsFrom_cons_of_mem hseen]
      exact (ih seen).cons r
    · rw [firstsFrom_cons_of_not_mem hseen]
      exact (ih _).cons_cons r

theorem firsts_sublist (rs : List Reading) : (firsts rs).Sublist rs :=
  firstsFrom_sublist [] rs

/-- Times that no reading has may be forgotten. -/
theorem firstsFrom_congr (h : ∀ r ∈ rs, r.timeWord ∈ seen ↔ r.timeWord ∈ seen') :
    firstsFrom seen rs = firstsFrom seen' rs := by
  induction rs generalizing seen seen' with
  | nil => rfl
  | cons r rest ih =>
    rw [List.forall_mem_cons] at h
    by_cases hseen : r.timeWord ∈ seen
    · rw [firstsFrom_cons_of_mem hseen, firstsFrom_cons_of_mem (h.1.mp hseen), ih h.2]
    · rw [firstsFrom_cons_of_not_mem hseen, firstsFrom_cons_of_not_mem (h.1.not.mp hseen)]
      refine congrArg (r :: ·) (ih fun q hq => ?_)
      rw [List.mem_cons, List.mem_cons, h.2 q hq]

theorem firstsFrom_filter (p : Float → Bool) :
    firstsFrom seen (rs.filter fun r => p r.time) =
      (firstsFrom seen rs).filter fun r => p r.time := by
  induction rs generalizing seen with
  | nil => rfl
  | cons r rest ih =>
    rw [List.filter_cons]
    by_cases hseen : r.timeWord ∈ seen
    · rw [firstsFrom_cons_of_mem hseen, ← ih]
      by_cases hp : p r.time = true
      · rw [if_pos hp, firstsFrom_cons_of_mem hseen]
      · rw [if_neg hp]
    · rw [firstsFrom_cons_of_not_mem hseen, List.filter_cons, ← ih]
      by_cases hp : p r.time = true
      · rw [if_pos hp, if_pos hp, firstsFrom_cons_of_not_mem hseen]
      · rw [if_neg hp, if_neg hp]
        -- On the left the time of `r` was never seen, but no reading that is left has it.
        refine firstsFrom_congr fun q hq => ?_
        have hne : q.timeWord ≠ r.timeWord := by
          intro hsame
          have htime : q.time = r.time := congrArg Float.ofBits hsame
          rw [← htime] at hp
          exact hp (List.mem_filter.mp hq).2
        rw [List.mem_cons, or_iff_right hne]

theorem firsts_filter (p : Float → Bool) (rs : List Reading) :
    firsts (rs.filter fun r => p r.time) = (firsts rs).filter fun r => p r.time :=
  firstsFrom_filter p

theorem firstsFrom_append (seen : List UInt64) (rs later : List Reading) :
    firstsFrom seen (rs ++ later) =
      firstsFrom seen rs ++ firstsFrom (rs.map (·.timeWord) ++ seen) later := by
  induction rs generalizing seen with
  | nil => rfl
  | cons r rest ih =>
    rw [List.cons_append]
    by_cases hseen : r.timeWord ∈ seen
    · rw [firstsFrom_cons_of_mem hseen, firstsFrom_cons_of_mem hseen, ih]
      congr 1
      refine firstsFrom_congr fun q _ => ?_
      rw [List.map_cons, List.cons_append, List.mem_cons]
      constructor
      · exact Or.inr
      · rintro (hq | hq)
        · exact List.mem_append_right _ (hq ▸ hseen)
        · exact hq
    · rw [firstsFrom_cons_of_not_mem hseen, firstsFrom_cons_of_not_mem hseen, ih, List.cons_append]
      congr 2
      refine firstsFrom_congr fun q _ => ?_
      simp [or_left_comm]

theorem firsts_firsts (rs : List Reading) : firsts (firsts rs) = firsts rs := by
  suffices h : ∀ seen, firstsFrom seen (firstsFrom seen rs) = firstsFrom seen rs from h []
  induction rs with
  | nil => exact fun _ => rfl
  | cons r rest ih =>
    intro seen
    by_cases hseen : r.timeWord ∈ seen
    · rw [firstsFrom_cons_of_mem hseen, ih]
    · rw [firstsFrom_cons_of_not_mem hseen, firstsFrom_cons_of_not_mem hseen, ih]

theorem power_firsts (rs : List Reading) : power (firsts rs) = power rs := by
  rw [power, firsts_firsts, power]

theorem head?_firsts (rs : List Reading) : (firsts rs).head? = rs.head? := by
  cases rs with
  | nil => rfl
  | cons r rest => rw [firsts, firstsFrom_cons_of_not_mem List.not_mem_nil]; rfl

/-- No reading has the time of the last one, except for that itself. -/
def EndsNew (rs : List Reading) : Prop :=
  ∀ last ∈ rs.getLast?, ∀ r ∈ rs.dropLast, r.timeWord ≠ last.timeWord

theorem getLast?_firsts (h : EndsNew rs) : (firsts rs).getLast? = rs.getLast? := by
  cases rs using List.reverseRecOn with
  | nil => rfl
  | append_singleton before last =>
    have hnew : last.timeWord ∉ before.map (·.timeWord) ++ [] := by
      rw [List.append_nil]
      intro hmem
      obtain ⟨r, hr, hsame⟩ := List.mem_map.mp hmem
      exact h last (by simp) r (by simpa using hr) hsame
    rw [firsts, firstsFrom_append, firstsFrom_cons_of_not_mem hnew, firstsFrom,
      List.getLast?_concat, List.getLast?_concat]

end Firsts

/-- Each reading with the next. -/
def neighbours (rs : List Reading) : List (Reading × Reading) :=
  rs.zip rs.tail

theorem neighbours_cons_cons (a b : Reading) (rest : List Reading) :
    neighbours (a :: b :: rest) = (a, b) :: neighbours (b :: rest) :=
  rfl

theorem differences_eq (rs : List Reading) :
    differences rs = (neighbours rs).filterMap fun s => meanPower? s.1 s.2 := by
  induction rs with
  | nil => rfl
  | cons before rest ih =>
    cases rest with
    | nil => rfl
    | cons after rest =>
      rw [differences, ih, neighbours_cons_cons, List.filterMap_cons]
      cases meanPower? before after <;> rfl

/-- A property that holds between any two times it holds at keeps neighbours together. -/
theorem neighbours_filter {p : Float → Bool} {rs : List Reading}
    (hbetween : ∀ s t u, s ≤ t → t ≤ u → p s = true → p u = true → p t = true)
    (hsorted : rs.Pairwise fun a b => a.time ≤ b.time) :
    neighbours (rs.filter fun r => p r.time) =
      (neighbours rs).filter fun s => p s.1.time && p s.2.time := by
  induction rs with
  | nil => rfl
  | cons a rest ih =>
    have hrest := ih hsorted.of_cons
    cases rest with
    | nil => by_cases ha : p a.time = true <;> simp [neighbours, ha]
    | cons b rest =>
      rw [neighbours_cons_cons]
      by_cases ha : p a.time = true
      · by_cases hb : p b.time = true
        · simp only [List.filter_cons, hb, if_true] at hrest
          simp only [List.filter_cons, ha, hb, Bool.and_self, if_true, neighbours_cons_cons, hrest]
        · have hout : (b :: rest).filter (fun r => p r.time) = [] := by
            rw [List.filter_eq_nil_iff]
            intro c hc hpc
            have hab : a.time ≤ b.time := List.rel_of_pairwise_cons hsorted List.mem_cons_self
            rcases List.mem_cons.mp hc with rfl | hc
            · exact hb hpc
            · have hbc : b.time ≤ c.time := List.rel_of_pairwise_cons hsorted.of_cons hc
              exact hb (hbetween _ _ _ hab hbc ha hpc)
          have halone : (a :: b :: rest).filter (fun r => p r.time) = [a] := by
            rw [List.filter_cons, hout, if_pos ha]
          rw [hout] at hrest
          rw [halone, List.filter_cons_of_neg (by simp [hb]), ← hrest]
          rfl
      · have hskip : (a :: b :: rest).filter (fun r => p r.time) =
            (b :: rest).filter fun r => p r.time := by
          rw [List.filter_cons, if_neg ha]
        rw [hskip, hrest, List.filter_cons_of_neg (by simp [ha])]

/-- Each power with the time of the reading that it counts from. -/
def datedPower (rs : List Reading) : List (Float × Power) :=
  (neighbours (firsts rs)).filterMap fun s => (meanPower? s.1 s.2).map (s.1.time, ·)

theorem datedPower_power (rs : List Reading) : (datedPower rs).map (·.2) = power rs := by
  rw [datedPower, List.map_filterMap, power, differences_eq]
  congr 1
  funext s
  cases h : meanPower? s.1 s.2 <;> simp

theorem time_of_meanPower? {before after : Reading} {p : Power}
    (h : meanPower? before after = some p) : p.time = after.time := by
  unfold meanPower? at h
  dsimp only at h
  split at h
  · cases h
    rfl
  · cases h

theorem datedPower_filter (p : Float → Bool) (rs : List Reading) :
    (datedPower rs).filter (fun d => p d.1 && p d.2.time) =
      ((neighbours (firsts rs)).filter fun s => p s.1.time && p s.2.time).filterMap
        fun s => (meanPower? s.1 s.2).map (s.1.time, ·) := by
  rw [datedPower, List.filter_filterMap, List.filterMap_filter]
  congr 1
  funext s
  cases hs : meanPower? s.1 s.2 with
  | none => simp
  | some q => simp [Option.filter, time_of_meanPower? hs]

/-- The power of the readings in a window is that part of the power of all readings which the
window holds together with the reading it counts from. -/
theorem power_of_window (window : Window) {rs : List Reading}
    (hsorted : rs.Pairwise fun a b => a.time ≤ b.time) :
    (datedPower rs).map (·.2) = power rs ∧
      power (rs.filter fun r => window.contains r.time) =
        ((datedPower rs).filter
          fun d => window.contains d.1 && window.contains d.2.time).map (·.2) := by
  refine ⟨datedPower_power rs, ?_⟩
  have hbetween : ∀ s t u, s ≤ t → t ≤ u → window.contains s = true →
      window.contains u = true → window.contains t = true :=
    fun s t u hst htu hs hu => Window.contains_of_between hs hu hst htu
  have hfirsts := hsorted.sublist (firsts_sublist rs)
  rw [datedPower_filter, ← neighbours_filter hbetween hfirsts, ← firsts_filter,
    ← datedPower_power, datedPower]

/-- Readings with a repeated time before, in and after the times of interest. -/
def repeatedReadings : List Reading :=
  [⟨Float.toBits 0.0, 5.0⟩, ⟨Float.toBits 0.0, 7.0⟩, ⟨Float.toBits 1.0, 10.0⟩,
    ⟨Float.toBits 1.0, 40.0⟩, ⟨Float.toBits 2.0, 25.0⟩, ⟨Float.toBits 3.0, 60.0⟩,
    ⟨Float.toBits 3.0, 0.0⟩]

theorem repeatedReadings_between_one_and_two :
    (repeatedReadings.Pairwise fun a b => a.time ≤ b.time) ∧
    (power (repeatedReadings.filter
      fun r => Window.contains ⟨some 1.0, some 2.0⟩ r.time)).map (fun p => (p.time, p.power)) =
        [(2.0, 15.0)] := by
  have hsorted : repeatedReadings.Pairwise fun a b => a.time ≤ b.time := by decide
  refine ⟨hsorted, ?_⟩
  rw [(power_of_window ⟨some 1.0, some 2.0⟩ hsorted).2]
  decide +kernel

end TracePlot.Energy
