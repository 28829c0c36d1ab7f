import TracePlot.Proofs.Number.Bounds
import TracePlot.Window

/-! Clipping a span to a window: the times left are those of the span that the window shows. -/

namespace TracePlot.Window

/-- No bound of the window is NaN. -/
structure Proper (w : Window) : Prop where
  min : ∀ lo ∈ w.min, lo.isNaN = false
  max : ∀ hi ∈ w.max, hi.isNaN = false

/-- The time is in the window and is not its upper bound. -/
structure Shows (w : Window) (t : Float) : Prop where
  min : ∀ lo ∈ w.min, lo ≤ t
  max : ∀ hi ∈ w.max, t < hi

def clippedStart (w : Window) (start : Float) : Float :=
  match w.min with | some lo => Number.larger start lo | none => start

def clippedStop (w : Window) (stop : Float) : Float :=
  match w.max with | some hi => Number.smaller stop hi | none => stop

variable {w : Window} {start stop t : Float} {x : Float × Float}

theorem clippedStart_le_iff (hw : w.Proper) (hstart : start.isNaN = false) :
    w.clippedStart start ≤ t ↔ start ≤ t ∧ ∀ lo ∈ w.min, lo ≤ t := by
  have hmin := hw.min
  unfold clippedStart
  cases hlo : w.min with
  | none => simp
  | some lo =>
    rw [Number.larger_le_iff hstart (hmin lo hlo)]
    simp

theorem lt_clippedStop_iff (hw : w.Proper) (hstop : stop.isNaN = false) :
    t < w.clippedStop stop ↔ t < stop ∧ ∀ hi ∈ w.max, t < hi := by
  have hmax := hw.max
  unfold clippedStop
  cases hhi : w.max with
  | none => simp
  | some hi =>
    rw [Number.lt_smaller_iff hstop (hmax hi hhi)]
    simp

theorem clip?_eq_some_iff : w.clip? start stop = some x ↔
    w.clippedStart start < w.clippedStop stop ∧ x = (w.clippedStart start, w.clippedStop stop) := by
  have hclip : w.clip? start stop =
      if w.clippedStart start < w.clippedStop stop then
        some (w.clippedStart start, w.clippedStop stop)
      else none := rfl
  rw [hclip]
  split
  · next h => simp [h, eq_comm]
  · next h => simp [h]

theorem clip?_covers_iff (hw : w.Proper) (hstart : start.isNaN = false)
    (hstop : stop.isNaN = false) :
    (∃ x, w.clip? start stop = some x ∧ x.1 ≤ t ∧ t < x.2) ↔
      (start ≤ t ∧ t < stop) ∧ w.Shows t := by
  constructor
  · rintro ⟨x, hx, hlo, hhi⟩
    obtain ⟨-, rfl⟩ := clip?_eq_some_iff.mp hx
    obtain ⟨hs, hmin⟩ := (clippedStart_le_iff hw hstart).mp hlo
    obtain ⟨he, hmax⟩ := (lt_clippedStop_iff hw hstop).mp hhi
    exact ⟨⟨hs, he⟩, hmin, hmax⟩
  · rintro ⟨⟨hs, he⟩, hshows⟩
    have hlo := (clippedStart_le_iff hw hstart).mpr ⟨hs, hshows.min⟩
    have hhi := (lt_clippedStop_iff hw hstop).mpr ⟨he, hshows.max⟩
    exact ⟨_, clip?_eq_some_iff.mpr ⟨Number.lt_of_le_of_lt hlo hhi, rfl⟩, hlo, hhi⟩

theorem contains_iff :
    w.contains t = true ↔ (∀ lo ∈ w.min, lo ≤ t) ∧ ∀ hi ∈ w.max, t ≤ hi := by
  unfold contains
  cases w.min <;> cases w.max <;> simp

theorem contains_of_between {s u : Float} (hs : w.contains s = true) (hu : w.contains u = true)
    (hst : s ≤ t) (htu : t ≤ u) : w.contains t = true := by
  rw [contains_iff] at hs hu ⊢
  exact ⟨fun lo hlo => Number.le_trans (hs.1 lo hlo) hst,
    fun hi hhi => Number.le_trans htu (hu.2 hi hhi)⟩

/-- What is left of a span ends inside the window, even if the span itself has an end at NaN. -/
theorem contains_of_clip? (hw : w.Proper) (h : w.clip? start stop = some x) :
    w.contains x.1 = true ∧ w.contains x.2 = true := by
  obtain ⟨hlength, rfl⟩ := clip?_eq_some_iff.mp h
  have hlt := Number.le_of_lt hlength
  have hmin : ∀ lo ∈ w.min, lo ≤ w.clippedStart start := by
    intro lo hlo
    rw [clippedStart, Option.mem_def.mp hlo]
    exact Number.le_larger_right start (hw.min lo hlo)
  have hmax : ∀ hi ∈ w.max, w.clippedStop stop ≤ hi := by
    intro hi hhi
    rw [clippedStop, Option.mem_def.mp hhi]
    exact Number.smaller_le_right stop (hw.max hi hhi)
  exact ⟨contains_iff.mpr ⟨hmin, fun hi hhi => Number.le_trans hlt (hmax hi hhi)⟩,
    contains_iff.mpr ⟨fun lo hlo => Number.le_trans (hmin lo hlo) hlt, hmax⟩⟩

end TracePlot.Window
