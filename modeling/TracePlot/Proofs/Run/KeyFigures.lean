import TracePlot.Run.Summary
import TracePlot.Proofs.Records.Readings

/-! Key figures of energy and repeated readings. The peak power depends on the first reading of each
time only, but the energy used and the mean power on the very last reading also, even where it
repeats an earlier time. -/

open TracePlot.Energy

namespace TracePlot

/-- The same records, with only the first energy reading of each time. -/
def RunData.withoutRepeats (d : RunData) : RunData :=
  { d with energy := d.energy.map firsts }

namespace Summary

section Ends

variable {rs rs' : List Reading}

theorem energyUsed?_congr (hhead : rs'.head? = rs.head?) (hlast : rs'.getLast? = rs.getLast?) :
    energyUsed? rs' = energyUsed? rs := by
  rw [energyUsed?, energyUsed?, hhead, hlast]

theorem meanPower?_congr (hhead : rs'.head? = rs.head?) (hlast : rs'.getLast? = rs.getLast?) :
    meanPower? rs' = meanPower? rs := by
  rw [meanPower?, meanPower?, hhead, hlast]

theorem ofData_congr_readings (window : Window) {d : RunData}
    (hpower : d.power = d.energy.map power) (hrs : d.energy = some rs)
    (hfirsts : firsts rs' = firsts rs) (hlast : rs'.getLast? = rs.getLast?) :
    ofData window { d with energy := some rs', power := some (power rs') } = ofData window d := by
  have hhead : rs'.head? = rs.head? := by
    rw [← head?_firsts, hfirsts, head?_firsts]
  have hsame : power rs' = power rs := by
    rw [← power_firsts, hfirsts, power_firsts]
  have hpower : d.power = some (power rs) := by
    rw [hpower, hrs, Option.map_some]
  rw [hsame, ← hpower]
  simp [ofData, hrs, energyUsed?_congr hhead hlast, meanPower?_congr hhead hlast]

end Ends

theorem ofData_withoutRepeats_iff (window : Window) (d : RunData) :
    ofData window d.withoutRepeats = ofData window d ↔
      ∀ rs ∈ d.energy, energyUsed? (firsts rs) = energyUsed? rs ∧
        meanPower? (firsts rs) = meanPower? rs := by
  cases hrs : d.energy <;> simp [ofData, RunData.withoutRepeats, hrs]

end Summary

theorem power_withoutRepeats {d : RunData} (hpower : d.power = d.energy.map power) :
    d.withoutRepeats.power = d.withoutRepeats.energy.map power := by
  show d.power = (d.energy.map firsts).map power
  rw [hpower, Option.map_map]
  exact Option.map_congr fun rs _ => (power_firsts rs).symm

/-- Leaving out the repeated readings keeps the power, and the summary exactly if it keeps the two
figures that are read off the ends. It keeps them when the last reading has a new time, and readings
before the last that repeat an earlier time never matter. -/
theorem summary_depends_on_firsts_and_last (window : Window) {d : RunData}
    (hpower : d.power = d.energy.map power) :
    d.withoutRepeats.power = d.withoutRepeats.energy.map power ∧
    (Summary.ofData window d.withoutRepeats = Summary.ofData window d ↔
      ∀ rs ∈ d.energy, Summary.energyUsed? (firsts rs) = Summary.energyUsed? rs ∧
        Summary.meanPower? (firsts rs) = Summary.meanPower? rs) ∧
    ((∀ rs ∈ d.energy, EndsNew rs) →
      Summary.ofData window d.withoutRepeats = Summary.ofData window d) ∧
    ∀ rs ∈ d.energy, ∀ rs', firsts rs' = firsts rs → rs'.getLast? = rs.getLast? →
      Summary.ofData window { d with energy := some rs', power := some (power rs') } =
        Summary.ofData window d := by
  have hiff := Summary.ofData_withoutRepeats_iff window d
  refine ⟨power_withoutRepeats hpower, hiff, ?_, ?_⟩
  · intro hnew
    refine hiff.mpr fun rs hrs => ?_
    have hhead := head?_firsts rs
    have hlast := getLast?_firsts (hnew rs hrs)
    exact ⟨Summary.energyUsed?_congr hhead hlast, Summary.meanPower?_congr hhead hlast⟩
  · intro rs hrs rs' hfirsts hlast
    exact Summary.ofData_congr_readings window hpower hrs hfirsts hlast

/-- Records of energy only. -/
def energyRun (rs : List Reading) : RunData :=
  { name := "run", energy := some rs, power := some (power rs) }

theorem energyRun_with_inner_repeat_keeps_summary :
    let d := energyRun [⟨Float.toBits 0.0, 0.0⟩, ⟨Float.toBits 1.0, 10.0⟩,
      ⟨Float.toBits 1.0, 20.0⟩, ⟨Float.toBits 2.0, 25.0⟩]
    (d.power = d.energy.map power ∧ ∀ rs ∈ d.energy, EndsNew rs) ∧
    Summary.ofData {} d.withoutRepeats = Summary.ofData {} d := by
  intro d
  have hpower : d.power = d.energy.map power := rfl
  have hnew : ∀ rs ∈ d.energy, EndsNew rs := by
    intro rs hrs
    cases hrs
    intro last hlast
    cases hlast
    decide
  exact ⟨⟨hpower, hnew⟩, (summary_depends_on_firsts_and_last {} hpower).2.2.1 hnew⟩

theorem energyRun_with_closing_repeat_exceeds_peak :
    let d := energyRun [⟨Float.toBits 0.0, 0.0⟩, ⟨Float.toBits 1.0, 10.0⟩,
      ⟨Float.toBits 1.0, 20.0⟩]
    d.power = d.energy.map power ∧
    (Summary.ofData {} d).energy = some 20.0 ∧
    (Summary.ofData {} d).meanPower = some 20.0 ∧
    (Summary.ofData {} d).peakPower = some 10.0 ∧
    (Summary.ofData {} d.withoutRepeats).energy = some 10.0 ∧
    Summary.ofData {} d.withoutRepeats ≠ Summary.ofData {} d := by
  intro d
  have hall : (Summary.ofData {} d).energy = some 20.0 := by decide +kernel
  have hfirsts : (Summary.ofData {} d.withoutRepeats).energy = some 10.0 := by decide +kernel
  refine ⟨rfl, hall, by decide +kernel, by decide +kernel, hfirsts, ?_⟩
  intro hsame
  rw [hsame, hall] at hfirsts
  exact absurd hfirsts (by decide +kernel)

end TracePlot
