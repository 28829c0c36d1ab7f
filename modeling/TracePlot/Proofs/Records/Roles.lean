import Mathlib.Data.List.Sort
import TracePlot.Proofs.Success
import TracePlot.Records.PowerState

/-! Roles that share no state: a state has the role whose list it is in. Of the pairs of roles that
do share states the first is reported, with all states that the two share. -/

namespace TracePlot.PowerState.Roles

def states (r : Roles) : Role → List Int
  | .off => r.off
  | .switchingOn => r.switchOn
  | .switchingOff => r.switchOff

/-- No state has two roles. -/
def Apart (r : Roles) : Prop :=
  ∀ s a b, s ∈ r.states a → s ∈ r.states b → a = b

/-- The states of each role ascend, none twice. -/
def Ascending (r : Roles) : Prop :=
  ∀ role, (r.states role).Pairwise (· < ·)

def Meet (r : Roles) (a b : Role) : Prop :=
  ∃ s, s ∈ r.states a ∧ s ∈ r.states b

/-- The pairs of roles in the order in which they are compared. -/
def pairs : List (Role × Role) :=
  [(.off, .switchingOn), (.off, .switchingOff), (.switchingOn, .switchingOff)]

/-- What a role is called in the options and in a refusal. -/
def nameOf : Role → String
  | .off => "off"
  | .switchingOn => "switchon"
  | .switchingOff => "switchoff"

theorem isEmpty_shared_iff {a b : List Int} : (shared a b).isEmpty = true ↔ ∀ s ∈ a, s ∉ b := by
  rw [List.isEmpty_iff, shared, List.filter_eq_nil_iff]
  simp

theorem check_eq_ok_iff {r r' : Roles} : r.check = .ok r' ↔ r' = r ∧ r.Apart := by
  have hcheck : r.check = .ok r' ↔ r' = r ∧ (shared r.off r.switchOn).isEmpty = true ∧
      (shared r.off r.switchOff).isEmpty = true ∧
      (shared r.switchOn r.switchOff).isEmpty = true := by
    unfold check
    cases h₁ : (shared r.off r.switchOn).isEmpty with
    | false => simp [h₁]
    | true =>
      cases h₂ : (shared r.off r.switchOff).isEmpty with
      | false => simp [h₁, h₂]
      | true =>
        cases h₃ : (shared r.switchOn r.switchOff).isEmpty with
        | false => simp [h₁, h₂, h₃]
        | true => simp [h₁, h₂, h₃, eq_comm]
  rw [hcheck, isEmpty_shared_iff, isEmpty_shared_iff, isEmpty_shared_iff]
  refine and_congr_right fun _ => ⟨?_, fun h => ⟨?_, ?_, ?_⟩⟩
  · rintro ⟨h₁, h₂, h₃⟩ s a b ha hb
    cases a <;> cases b <;> simp_all [states]
  · exact fun s ha hb => by cases h s .off .switchingOn ha hb
  · exact fun s ha hb => by cases h s .off .switchingOff ha hb
  · exact fun s ha hb => by cases h s .switchingOn .switchingOff ha hb

theorem check_eq (r : Roles) :
    r.check =
      match pairs.find? fun p => !(shared (r.states p.1) (r.states p.2)).isEmpty with
      | some (a, b) =>
        .error (.powerStates (nameOf a) (nameOf b) (shared (r.states a) (r.states b)))
      | none => .ok r := by
  unfold check
  cases h₁ : (shared r.off r.switchOn).isEmpty with
  | false => simp [pairs, states, nameOf, h₁]
  | true =>
    cases h₂ : (shared r.off r.switchOff).isEmpty with
    | false => simp [pairs, states, nameOf, h₁, h₂]
    | true =>
      cases h₃ : (shared r.switchOn r.switchOff).isEmpty with
      | false => simp [pairs, states, nameOf, h₁, h₂, h₃]
      | true => simp [pairs, states, h₁, h₂, h₃]

theorem mem_shared_iff {a b : List Int} {s : Int} : s ∈ shared a b ↔ s ∈ a ∧ s ∈ b := by
  simp [shared]

theorem check_eq_error_iff {r : Roles} (h : r.Ascending) {e : Failure} :
    r.check = .error e ↔
      ∃ a b both, IsFirst (fun p => r.Meet p.1 p.2) pairs (a, b) ∧ both.Pairwise (· < ·) ∧
        (∀ s, s ∈ both ↔ s ∈ r.states a ∧ s ∈ r.states b) ∧
        e = .powerStates (nameOf a) (nameOf b) both := by
  have hmeet : ∀ p ∈ pairs,
      (!(shared (r.states p.1) (r.states p.2)).isEmpty) = true ↔ r.Meet p.1 p.2 := by
    intro p hp
    rw [Bool.not_eq_true', Bool.eq_false_iff, ne_eq, isEmpty_shared_iff]
    simp [Meet]
  have hshared (a b : Role) : (shared (r.states a) (r.states b)).Pairwise (· < ·) :=
    (h a).filter _
  rw [check_eq]
  constructor
  · intro he
    split at he
    · next a b hfind =>
      have hfirst := (isFirst_congr hmeet).mp (find?_eq_some_iff_isFirst.mp hfind)
      exact ⟨a, b, _, hfirst, hshared a b, fun s => mem_shared_iff, (Except.error.inj he).symm⟩
    · cases he
  · rintro ⟨a, b, both, hfirst, hascending, hboth, rfl⟩
    have hsame : shared (r.states a) (r.states b) = both :=
      (hshared a b).eq_of_mem_iff hascending fun s => by rw [mem_shared_iff, hboth]
    rw [find?_eq_some_iff_isFirst.mpr ((isFirst_congr hmeet).mpr hfirst)]
    simp only [hsame]

theorem insertState_pairwise {s : Int} {xs : List Int} (h : xs.Pairwise (· < ·)) :
    (insertState s xs).Pairwise (· < ·) ∧ ∀ t, t ∈ insertState s xs ↔ t = s ∨ t ∈ xs := by
  induction xs with
  | nil => simp [insertState]
  | cons x xs ih =>
    obtain ⟨hx, hxs⟩ := List.pairwise_cons.mp h
    obtain ⟨hpairwise, hmem⟩ := ih hxs
    rw [insertState]
    by_cases hlt : s < x
    · rw [if_pos hlt]
      refine ⟨List.pairwise_cons.mpr ⟨fun t ht => ?_, h⟩, by simp⟩
      rcases List.mem_cons.mp ht with rfl | ht
      · exact hlt
      · exact hlt.trans (hx t ht)
    · rw [if_neg hlt]
      by_cases heq : s = x
      · subst heq
        rw [if_pos rfl]
        exact ⟨h, by simp⟩
      · rw [if_neg heq]
        refine ⟨List.pairwise_cons.mpr ⟨fun t ht => ?_, hpairwise⟩, fun t => ?_⟩
        · rcases (hmem t).mp ht with rfl | ht
          · omega
          · exact hx t ht
        · simp only [List.mem_cons, hmem]
          tauto

/-- The states given for a role are kept in ascending order, whatever order they come in. -/
theorem stateSet_pairwise (given : List Int) :
    (stateSet given).Pairwise (· < ·) ∧ ∀ s, s ∈ stateSet given ↔ s ∈ given := by
  induction given with
  | nil => simp [stateSet]
  | cons s given ih =>
    obtain ⟨hpairwise, hmem⟩ := insertState_pairwise (s := s) ih.1
    refine ⟨hpairwise, fun t => ?_⟩
    rw [List.mem_cons, ← ih.2]
    exact hmem t

theorem classify_eq_some_iff {r : Roles} (h : r.Apart) {s : Int} {role : Role} :
    r.classify s = some role ↔ s ∈ r.states role := by
  have hother (a : Role) (ha : s ∈ r.states a) : s ∈ r.states role ↔ a = role :=
    ⟨fun hb => h s a role ha hb, fun hrole => hrole ▸ ha⟩
  unfold classify
  by_cases h₁ : s ∈ r.off
  · rw [hother .off h₁]
    simp [h₁]
  by_cases h₂ : s ∈ r.switchOn
  · rw [hother .switchingOn h₂]
    simp [h₁, h₂]
  by_cases h₃ : s ∈ r.switchOff
  · rw [hother .switchingOff h₃]
    simp [h₁, h₂, h₃]
  · cases role <;> simp [h₁, h₂, h₃, states]

end TracePlot.PowerState.Roles
