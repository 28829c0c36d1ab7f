import Mathlib.Data.List.DropRight
import TracePlot.Json.Shape
import TracePlot.Proofs.Success

/-! What reading a record or a list keeps. What holds of a blank record and is kept by each of its
fields holds of all records that are read, and an optional field never holds null: reading a value
gives null for the word alone. -/

namespace TracePlot.Json

/-- The reading gives no null, if it gives anything. -/
def NotNull (r : Except Fault (Outcome Value)) : Prop :=
  ∀ v rest, r = .ok (v, rest) → v ≠ .null

theorem notNull_fail {cause : Cause} {cs : List Char} : NotNull (fail cause cs) := by
  intro v rest h
  cases h

theorem notNull_failAt {cause : Cause} {cs : List Char} : NotNull (failAt cause cs) := by
  intro v rest h
  cases h

theorem notNull_ok {v : Value} {rest : List Char} (hv : v ≠ .null) : NotNull (.ok (v, rest)) := by
  intro w rest' h
  cases h
  exact hv

section Numbers

variable (negative : Bool) (significand left : Nat) (implied : Int) (cs : List Char)

theorem notNull_floatOf : NotNull (floatOf negative significand implied cs) := by
  unfold floatOf
  split
  · exact notNull_ok nofun
  · exact notNull_fail

theorem notNull_exponentRest : NotNull (exponentRest negative significand implied cs) := by
  unfold exponentRest
  dsimp only
  split
  · exact notNull_fail
  · split
    · exact notNull_failAt
    · split
      · exact notNull_floatOf _ _ _ _
      · split
        · exact notNull_fail
        · exact notNull_ok nofun

theorem notNull_placesRest : NotNull (placesRest negative significand implied cs) := by
  unfold placesRest exponentOrEnd
  dsimp only
  split
  · split
    · exact notNull_failAt
    · exact notNull_failAt
  · split
    · exact notNull_exponentRest _ _ _ _
    · exact notNull_exponentRest _ _ _ _
    · exact notNull_floatOf _ _ _ _

theorem notNull_numberTail : NotNull (numberTail negative significand left cs) := by
  unfold numberTail
  split
  · exact notNull_placesRest _ _ _ _
  · exact notNull_exponentRest _ _ _ _
  · exact notNull_exponentRest _ _ _ _
  · split
    · exact notNull_floatOf _ _ _ _
    · split
      · exact notNull_ok nofun
      · split
        · exact notNull_ok nofun
        · exact notNull_ok nofun

theorem notNull_number : NotNull (number negative cs) := by
  unfold number
  split
  · exact notNull_fail
  · split
    · split
      · exact notNull_failAt
      · exact notNull_numberTail _ _ _ _
    · exact notNull_numberTail _ _ _ _
  · split
    · exact notNull_numberTail _ _ _ _
    · exact notNull_failAt

end Numbers

theorem notNull_scalar? {cs : List Char} {r : Except Fault (Outcome Value)}
    (hn : ∀ rest, cs ≠ 'n' :: rest) (h : scalar? cs = some r) : NotNull r := by
  have hmap {α : Type} {x : Except Fault α} {f : α → Outcome Value}
      (hf : ∀ a, (f a).1 ≠ .null) : NotNull (x.map f) := by
    intro v rest hx
    obtain ⟨a, -, ha⟩ := map_eq_ok_iff.mp hx
    have hv := hf a
    rwa [ha] at hv
  unfold scalar? at h
  split at h
  · next rest => exact absurd rfl (hn rest)
  · cases h
    exact hmap nofun
  · cases h
    exact hmap nofun
  · cases h
    exact hmap nofun
  · cases h
    exact notNull_number _ _
  · split at h
    · cases h
      exact notNull_number _ _
    · cases h
  · cases h

theorem notNull_items (fuel depth : Nat) (first : Bool) (done : List Value) (cs : List Char) :
    NotNull (items fuel depth first done cs) := by
  induction fuel generalizing first done cs with
  | zero => exact notNull_failAt
  | succ fuel ih =>
    intro v rest h
    rw [items] at h
    obtain ⟨next, -, h⟩ := bind_eq_ok_iff.mp h
    split at h
    · obtain ⟨after, -, h⟩ := bind_eq_ok_iff.mp h
      cases h
      exact nofun
    · obtain ⟨⟨item, after⟩, -, h⟩ := bind_eq_ok_iff.mp h
      exact ih _ _ _ v rest h

theorem notNull_members (fuel depth : Nat) (first : Bool) (done : List (String × Value))
    (cs : List Char) : NotNull (members fuel depth first done cs) := by
  induction fuel generalizing first done cs with
  | zero => exact notNull_failAt
  | succ fuel ih =>
    intro v rest h
    rw [members] at h
    obtain ⟨next, -, h⟩ := bind_eq_ok_iff.mp h
    split at h
    · cases h
      exact nofun
    · obtain ⟨⟨name, after⟩, -, h⟩ := bind_eq_ok_iff.mp h
      obtain ⟨after, -, h⟩ := bind_eq_ok_iff.mp h
      obtain ⟨⟨member, after⟩, -, h⟩ := bind_eq_ok_iff.mp h
      exact ih _ _ _ v rest h

theorem notNull_value (fuel depth : Nat) {cs : List Char}
    (hn : ∀ rest, skipSpace cs ≠ 'n' :: rest) : NotNull (value fuel depth cs) := by
  cases fuel with
  | zero => exact notNull_failAt
  | succ fuel =>
    rw [value]
    split
    · exact notNull_failAt
    · next c rest hcs =>
      split
      · split
        · exact notNull_failAt
        · exact notNull_items _ _ _ _ _
      · split
        · split
          · exact notNull_failAt
          · exact notNull_members _ _ _ _ _
        · split
          · next result hresult => exact notNull_scalar? (hcs ▸ hn) hresult
          · exact notNull_failAt

theorem wrongType_ne_ok {α : Type} {expected : String} {cs : List Char} {x : Outcome α} :
    wrongType expected cs ≠ .ok x := by
  intro h
  unfold wrongType at h
  split at h
  · cases h
  · cases h
  · split at h
    · cases h
    · cases h
    · cases h

/-- A value that may be left out is not null when it is there. -/
theorem readOptional_ne_null {depth : Nat} {cs rest : List Char} {v : Option Value}
    (h : readOptional depth cs = .ok (v, rest)) : v ≠ some .null := by
  unfold readOptional at h
  split at h
  · obtain ⟨after, -, h⟩ := map_eq_ok_iff.mp h
    cases h
    exact nofun
  · next hn =>
    obtain ⟨⟨w, after⟩, hw, h⟩ := map_eq_ok_iff.mp h
    have hskip : skipSpace (skipSpace cs) = skipSpace cs :=
      List.dropWhile_idempotent isSpace cs
    have hcs (rest : List Char) (hrest : skipSpace (skipSpace cs) = 'n' :: rest) : False :=
      hn rest (hskip.symm.trans hrest)
    have hnull := notNull_value _ depth hcs w after hw
    cases h
    simpa using hnull

section Shape

variable {σ : Type} {P : σ → Prop}

/-- Whatever the field is read as, the change it makes to a record keeps the property. -/
def Field.Keeps (P : σ → Prop) (f : Field σ) : Prop :=
  ∀ depth cs change rest, f.read depth cs = .ok (change, rest) → ∀ s, P s → P (change s)

namespace Shape

variable {shape : Shape σ} {depth : Nat} {s s' : σ} {cs rest : List Char}

theorem readItems_keeps {fields : List (Field σ)} {index : Nat} (hfields : ∀ f ∈ fields, f.Keeps P)
    (hs : P s) (h : shape.readItems depth index fields s cs = .ok (s', rest)) : P s' := by
  induction fields generalizing index s cs with
  | nil =>
    obtain ⟨after, -, h⟩ := map_eq_ok_iff.mp h
    cases h
    exact hs
  | cons f fields ih =>
    obtain ⟨hf, hfields⟩ := List.forall_mem_cons.mp hfields
    rw [readItems] at h
    obtain ⟨next, -, h⟩ := bind_eq_ok_iff.mp h
    split at h
    · split at h
      · cases h
      · exact ih hfields hs h
    · next item =>
      obtain ⟨⟨change, after⟩, hread, h⟩ := bind_eq_ok_iff.mp h
      exact ih hfields (hf _ _ _ _ hread s hs) h

theorem readMembers_keeps {fuel : Nat} {first : Bool} {seen : List String}
    (hfields : ∀ f ∈ shape.fields, f.Keeps P) (hs : P s)
    (h : shape.readMembers depth fuel first seen s cs = .ok (s', rest)) : P s' := by
  induction fuel generalizing first seen s cs with
  | zero => cases h
  | succ fuel ih =>
    rw [readMembers] at h
    obtain ⟨next, -, h⟩ := bind_eq_ok_iff.mp h
    split at h
    · split at h
      · cases h
      · cases h
        exact hs
    · obtain ⟨⟨name, after⟩, -, h⟩ := bind_eq_ok_iff.mp h
      dsimp only at h
      split at h
      · next f hfind =>
        split at h
        · cases h
        · obtain ⟨after, -, h⟩ := bind_eq_ok_iff.mp h
          obtain ⟨⟨change, after⟩, hread, h⟩ := bind_eq_ok_iff.mp h
          have hf := hfields f (List.mem_of_find?_eq_some hfind)
          exact ih (hf _ _ _ _ hread s hs) h
      · obtain ⟨after, -, h⟩ := bind_eq_ok_iff.mp h
        obtain ⟨after, -, h⟩ := bind_eq_ok_iff.mp h
        exact ih hs h

theorem read_keeps (hfields : ∀ f ∈ shape.fields, f.Keeps P) (hblank : P shape.blank)
    (h : shape.read depth cs = .ok (s, rest)) : P s := by
  unfold read at h
  split at h
  · cases h
  · split at h
    · cases h
    · exact readItems_keeps hfields hblank h
  · split at h
    · cases h
    · exact readMembers_keeps hfields hblank h
  · exact absurd h wrongType_ne_ok

end Shape

theorem readListItems_forall {α : Type} {P : α → Prop}
    {read : List Char → Except Fault (Outcome α)}
    (hread : ∀ cs x rest, read cs = .ok (x, rest) → P x) {fuel : Nat} {first : Bool}
    {done xs : List α} {cs rest : List Char} (hdone : ∀ x ∈ done, P x)
    (h : readListItems read fuel first done cs = .ok (xs, rest)) : ∀ x ∈ xs, P x := by
  induction fuel generalizing first done cs with
  | zero => cases h
  | succ fuel ih =>
    rw [readListItems] at h
    obtain ⟨next, -, h⟩ := bind_eq_ok_iff.mp h
    split at h
    · obtain ⟨after, -, h⟩ := map_eq_ok_iff.mp h
      cases h
      simpa using hdone
    · obtain ⟨⟨x, after⟩, hx, h⟩ := bind_eq_ok_iff.mp h
      exact ih (List.forall_mem_cons.mpr ⟨hread _ _ _ hx, hdone⟩) h

theorem readList_forall {α : Type} {P : α → Prop}
    {read : Nat → List Char → Except Fault (Outcome α)}
    (hread : ∀ depth cs x rest, read depth cs = .ok (x, rest) → P x) {depth : Nat} {xs : List α}
    {cs rest : List Char} (h : readList read depth cs = .ok (xs, rest)) : ∀ x ∈ xs, P x := by
  unfold readList at h
  split at h
  · cases h
  · split at h
    · cases h
    · exact readListItems_forall (hread _) (by simp) h
  · exact absurd h wrongType_ne_ok

end Shape

theorem readWhole_eq_ok {α : Type} {read : List Char → Except Fault (Outcome α)} {cs : List Char}
    {x : α} (h : readWhole read cs = .ok x) : ∃ rest, read cs = .ok (x, rest) := by
  unfold readWhole at h
  split at h
  · cases h
  · next v rest hread =>
    split at h
    · cases h
      exact ⟨rest, hread⟩
    · cases h

end TracePlot.Json
