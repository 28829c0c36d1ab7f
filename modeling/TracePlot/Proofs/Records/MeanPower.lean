import TracePlot.Proofs.Records.Readings

/-! The mean power of readings in any order. Of readings with one time word the first counts, also
where that word is a NaN, and each two neighbours among those give one power unless their quotient
is not finite. Readings that repeat an earlier time word, wherever they stand behind it, do not
count. -/

namespace TracePlot.Energy

/-- The readings whose time word no earlier reading has. -/
def newcomers (rs : List Reading) : List Reading :=
  (rs.zipIdx.filter fun e => !((rs.take e.2).map (·.timeWord)).contains e.1.timeWord).map (·.1)

theorem firstsFrom_eq_newcomers {seen : List UInt64} (before rs : List Reading)
    (h : ∀ w, w ∈ seen ↔ w ∈ before.map (·.timeWord)) :
    firstsFrom seen rs = ((rs.zipIdx before.length).filter fun e =>
      !(((before ++ rs).take e.2).map (·.timeWord)).contains e.1.timeWord).map (·.1) := by
  induction rs generalizing seen before with
  | nil => rfl
  | cons r rest ih =>
    have hprefix : (before ++ r :: rest).take before.length = before := by simp
    have hsplit : before ++ r :: rest = (before ++ [r]) ++ rest := by simp
    have hlength : before.length + 1 = (before ++ [r]).length := by simp
    rw [List.zipIdx_cons, List.filter_cons, hprefix, hlength, hsplit]
    by_cases hr : r.timeWord ∈ seen
    · have hr' : r.timeWord ∈ before.map (·.timeWord) := (h _).mp hr
      have hnext : ∀ w, w ∈ seen ↔ w ∈ (before ++ [r]).map (·.timeWord) := by
        intro w
        have hw := h w
        grind
      rw [firstsFrom_cons_of_mem hr, ih _ hnext]
      simp [hr']
    · have hr' : r.timeWord ∉ before.map (·.timeWord) := fun hmem => hr ((h _).mpr hmem)
      have hnext : ∀ w, w ∈ r.timeWord :: seen ↔ w ∈ (before ++ [r]).map (·.timeWord) := by
        intro w
        have hw := h w
        grind
      rw [firstsFrom_cons_of_not_mem hr, ih _ hnext]
      simp [hr']

theorem firsts_eq_newcomers (rs : List Reading) : firsts rs = newcomers rs :=
  firstsFrom_eq_newcomers [] rs (by simp)

/-- Two lists of readings after some with the times `seen`, the second with further readings. Each
of these stands behind a reading with its time word. -/
inductive Repeats : List UInt64 → List Reading → List Reading → Prop
  | nil {seen : List UInt64} : Repeats seen [] []
  | keep {seen : List UInt64} {r : Reading} {rs rs' : List Reading}
      (h : Repeats (r.timeWord :: seen) rs rs') : Repeats seen (r :: rs) (r :: rs')
  | insert {seen : List UInt64} {r : Reading} {rs rs' : List Reading}
      (hr : r.timeWord ∈ seen) (h : Repeats seen rs rs') : Repeats seen rs (r :: rs')

namespace Repeats

variable {seen : List UInt64} {rs rs' : List Reading}

theorem refl (seen : List UInt64) (rs : List Reading) : Repeats seen rs rs := by
  induction rs generalizing seen with
  | nil => exact .nil
  | cons r rest ih => exact .keep (ih _)

theorem insertAll {more : List Reading} (hmore : ∀ r ∈ more, r.timeWord ∈ seen)
    (h : Repeats seen rs rs') : Repeats seen rs (more ++ rs') := by
  induction more with
  | nil => exact h
  | cons r rest ih =>
    rw [List.forall_mem_cons] at hmore
    exact .insert hmore.1 (ih hmore.2)

theorem keepAll {before : List Reading}
    (h : Repeats ((before.map (·.timeWord)).reverse ++ seen) rs rs') :
    Repeats seen (before ++ rs) (before ++ rs') := by
  induction before generalizing seen with
  | nil => simpa using h
  | cons r rest ih => exact .keep (ih (by simpa using h))

/-- Readings put in at one place behind `r`. -/
theorem behind {r : Reading} (before between more after : List Reading)
    (hmore : ∀ q ∈ more, q.timeWord = r.timeWord) :
    Repeats [] (before ++ r :: (between ++ after))
      (before ++ r :: (between ++ (more ++ after))) := by
  refine keepAll (.keep (keepAll (insertAll (fun q hq => ?_) (refl _ after))))
  simp [hmore q hq]

theorem firstsFrom_eq (h : Repeats seen rs rs') : firstsFrom seen rs' = firstsFrom seen rs := by
  induction h with
  | nil => rfl
  | @keep seen r rs rs' h ih =>
    by_cases hr : r.timeWord ∈ seen
    · -- A time seen before may be counted once more.
      have hseen (qs : List Reading) : firstsFrom seen qs = firstsFrom (r.timeWord :: seen) qs := by
        refine firstsFrom_congr fun q _ => ?_
        rw [List.mem_cons]
        exact ⟨.inr, fun hq => hq.elim (fun he => he ▸ hr) id⟩
      rw [firstsFrom_cons_of_mem hr, firstsFrom_cons_of_mem hr, hseen, ih, ← hseen]
    · rw [firstsFrom_cons_of_not_mem hr, firstsFrom_cons_of_not_mem hr, ih]
  | insert hr h ih => rw [firstsFrom_cons_of_mem hr, ih]

theorem power_eq (h : Repeats [] rs rs') : power rs' = power rs := by
  have hfirsts : firsts rs' = firsts rs := h.firstsFrom_eq
  rw [power, hfirsts, power]

end Repeats

def quotient (before after : Reading) : Float :=
  (after.energy - before.energy) / (after.time - before.time)

theorem meanPower?_eq (before after : Reading) :
    meanPower? before after =
      if (quotient before after).isFinite then some ⟨after.time, quotient before after⟩
      else none :=
  rfl

theorem power_eq_quotients (rs : List Reading) :
    power rs =
      (((newcomers rs).zip (newcomers rs).tail).filter fun s => (quotient s.1 s.2).isFinite).map
        fun s => ⟨s.2.time, quotient s.1 s.2⟩ := by
  rw [power, firsts_eq_newcomers, differences_eq, neighbours]
  induction (newcomers rs).zip (newcomers rs).tail with
  | nil => rfl
  | cons s rest ih =>
    have hs := meanPower?_eq s.1 s.2
    by_cases hfinite : (quotient s.1 s.2).isFinite = true
    · rw [if_pos hfinite] at hs
      simp [hs, hfinite, ih]
    · rw [if_neg hfinite] at hs
      simp [hs, hfinite, ih]

/-- In any order the power of readings is one for each two neighbours among the newcomers with a
finite quotient, and readings put in behind one with their time word do not change it. -/
theorem power_is_that_of_newcomers :
    (∀ rs : List Reading, power rs =
      (((newcomers rs).zip (newcomers rs).tail).filter fun s => (quotient s.1 s.2).isFinite).map
        fun s => ⟨s.2.time, quotient s.1 s.2⟩) ∧
    (∀ rs : List Reading, ∀ p ∈ power rs, p.power.isFinite = true) ∧
    ∀ rs rs' : List Reading, Repeats [] rs rs' → power rs' = power rs := by
  refine ⟨power_eq_quotients, fun rs p hp => ?_, fun rs rs' h => h.power_eq⟩
  rw [power_eq_quotients] at hp
  obtain ⟨s, hs, rfl⟩ := List.mem_map.mp hp
  exact (List.mem_filter.mp hs).2

/-- Times one, a NaN, zero, zero with a sign and two, not in order. -/
def scatteredReadings : List Reading :=
  [⟨0x3FF0000000000000, 10.0⟩, ⟨0xFFF8000000000000, 0.0⟩, ⟨0x0000000000000000, 1.0⟩,
    ⟨0x8000000000000000, 2.0⟩, ⟨0x4000000000000000, 20.0⟩]

theorem scatteredReadings_with_repeats :
    let more : List Reading := [⟨0x3FF0000000000000, 0.0⟩, ⟨0x3FF0000000000000, 1.0 / 0.0⟩]
    let repeated := scatteredReadings.take 3 ++ (more ++ scatteredReadings.drop 3)
    Repeats [] scatteredReadings repeated ∧ power repeated = power scatteredReadings := by
  intro more repeated
  have hrepeats : Repeats [] scatteredReadings repeated :=
    Repeats.behind (r := ⟨0x3FF0000000000000, 10.0⟩) [] (scatteredReadings.tail.take 2) more
      (scatteredReadings.drop 3) (by decide)
  exact ⟨hrepeats, power_is_that_of_newcomers.2.2 _ _ hrepeats⟩

-- Two neighbours among the newcomers are numbers of different times.
example : (power scatteredReadings).map (fun p => (p.time, p.power)) = [(2.0, 9.0)] := by
  decide +kernel

end TracePlot.Energy
