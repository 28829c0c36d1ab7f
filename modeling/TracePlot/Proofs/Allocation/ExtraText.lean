import TracePlot.Allocation.Workload
import TracePlot.Proofs.Json.Passing

/-! Extra data as a document and as the text of one. Reading the fields of a record from the compact
text of an object gives what the members of the object are, so that the desired allocation does not
depend on which of the two forms the extra data has. -/

namespace TracePlot

namespace Json

theorem readValue_text {d depth : Nat} {v : Value} {rest : List Char} (h : Plain d v)
    (hd : d < depth) (hrest : Ends rest) :
    readValue depth (v.text.toList ++ rest) = .ok (v, rest) :=
  h.readsBack hd _ rest (by rw [fuelFor, List.length_append]; omega) hrest

namespace Shape

variable {σ : Type} {shape : Shape σ} {depth fuel : Nat} {first : Bool} {seen : List String} {s : σ}
  {name : String} {v : Value} {rest : List Char}

/-- A member that is no field of the record is passed over. -/
theorem readMembers_foreign {d : Nat} (hname : ∀ f ∈ shape.fields, f.name ≠ name) (hv : Plain d v)
    (hrest : Ends rest) :
    shape.readMembers depth (fuel + 1) first seen s
        (separator first ++ '"' :: (name.toList.flatMap escape ++
          '"' :: ':' :: (v.text.toList ++ rest))) =
      shape.readMembers depth fuel false seen s rest := by
  have hfind : (shape.fields.find? fun f => f.name = name) = none := by
    simpa using hname
  simp only [readMembers, nextMember_separator, quoted_flatMap_escape, hfind, colon_colon,
    pass_text hv hrest, bind, Except.bind]

/-- A member that is a field not seen before is read as the field says. -/
theorem readMembers_field {f : Field σ} {change : σ → σ}
    (hf : (shape.fields.find? fun f => f.name = name) = some f) (hseen : name ∉ seen)
    (hread : f.read depth (v.text.toList ++ rest) = .ok (change, rest)) :
    shape.readMembers depth (fuel + 1) first seen s
        (separator first ++ '"' :: (name.toList.flatMap escape ++
          '"' :: ':' :: (v.text.toList ++ rest))) =
      shape.readMembers depth fuel false (name :: seen) (change s) rest := by
  have hnew : seen.contains name = false := by simpa using hseen
  simp only [readMembers, nextMember_separator, quoted_flatMap_escape, hf, hnew, colon_colon,
    hread, bind, Except.bind]
  rfl

theorem readMembers_foreigns {ms : List (String × Value)}
    (hms : ∀ m ∈ ms, (∀ f ∈ shape.fields, f.name ≠ m.1) ∧ ∃ d, Plain d m.2) (hrest : Ends rest) :
    shape.readMembers depth (fuel + ms.length) first seen s
        (separated first (memberTexts ms) ++ rest) =
      shape.readMembers depth fuel (first && ms.isEmpty) seen s rest := by
  induction ms generalizing first with
  | nil => simp [memberTexts, separated]
  | cons m ms ih =>
    obtain ⟨name, v⟩ := m
    obtain ⟨⟨hname, d, hv⟩, hms⟩ := List.forall_mem_cons.mp hms
    rw [separated_member_append, List.length_cons, ← Nat.add_assoc,
      readMembers_foreign hname hv (hrest.separated _), ih hms]
    simp

end Shape

end Json

namespace Workload

open Json

section Text

variable {ms : List (String × Value)} {v : Value} {depth d fuel : Nat} {first : Bool}

theorem ne_of_mem_extraShape_fields {name : String} (hname : name ≠ "desired_allocation") :
    ∀ f ∈ extraShape.fields, f.name ≠ name := by
  simpa [extraShape] using hname.symm

theorem readMembers_of_mem (hsorted : ms.Pairwise fun m m' => m.1 < m'.1)
    (hms : ∀ m ∈ ms, Plain d m.2) (hd : d < depth) (hv : ("desired_allocation", v) ∈ ms) :
    extraShape.readMembers depth (fuel + 1 + ms.length) first [] .null
      (separated first (memberTexts ms) ++ ['\x7d']) = .ok (v, []) := by
  have hends : Ends ['\x7d'] := .of_cons (by simp)
  induction ms generalizing first with
  | nil => cases hv
  | cons m ms ih =>
    obtain ⟨name, w⟩ := m
    obtain ⟨hfirst, hsorted⟩ := List.pairwise_cons.mp hsorted
    obtain ⟨hw, hothers⟩ := List.forall_mem_cons.mp hms
    have hrest := hends.separated (memberTexts ms)
    rw [separated_member_append, List.length_cons, ← Nat.add_assoc]
    rcases List.mem_cons.mp hv with heq | hv
    · obtain ⟨rfl, rfl⟩ := Prod.mk.inj heq
      have hforeign : ∀ m ∈ ms, (∀ f ∈ extraShape.fields, f.name ≠ m.1) ∧ ∃ d, Plain d m.2 :=
        fun m hm =>
          ⟨ne_of_mem_extraShape_fields (String.ne_of_lt (hfirst m hm)).symm, d, hothers m hm⟩
      have hread := congrArg (Except.map fun r => ((fun _ : Value => r.1), r.2))
        (readValue_text hw hd hrest)
      rw [Shape.readMembers_field rfl (by simp) hread, Shape.readMembers_foreigns hforeign hends]
      rfl
    · have hname : name ≠ "desired_allocation" := String.ne_of_lt (hfirst _ hv)
      rw [Shape.readMembers_foreign (ne_of_mem_extraShape_fields hname) hw hrest,
        ih hsorted hothers hv]

theorem extraShape_read_object (hdepth : 1 < depth) (cs : List Char) :
    extraShape.read depth ('\x7b' :: cs) =
      extraShape.readMembers (depth - 1) (cs.length + 1) true [] .null cs :=
  if_neg (Nat.not_le_of_lt hdepth)

theorem exists_fuel_beyond_members (ms : List (String × Value)) :
    ∃ fuel, (separated true (memberTexts ms) ++ ['\x7d']).length + 1 = fuel + 1 + ms.length := by
  have hlength := length_le_length_separated_members true ms
  refine ⟨(separated true (memberTexts ms)).length + 1 - ms.length, ?_⟩
  rw [List.length_append, List.length_singleton]
  omega

/-- The text of an object is read as its member with the name of the allocation. -/
theorem read_text_of_member? (h : Plain d (.object ms)) (hd : d < depth)
    (hv : (Value.object ms).member? "desired_allocation" = some v) :
    extraShape.read depth (Value.object ms).text.toList = .ok (v, []) := by
  have hmem : ("desired_allocation", v) ∈ ms := by
    obtain ⟨m, hm, rfl⟩ := Option.map_eq_some_iff.mp hv
    have hname : m.1 = "desired_allocation" := by simpa using List.find?_some hm
    rw [← hname]
    exact List.mem_of_find?_eq_some hm
  cases h with
  | object hsorted hms =>
    obtain ⟨fuel, hfuel⟩ := exists_fuel_beyond_members ms
    rw [toList_text_object, extraShape_read_object (by omega), hfuel,
      readMembers_of_mem hsorted hms (by omega) hmem]

theorem read_text_of_member?_eq_none (h : Plain d (.object ms)) (hd : d < depth)
    (hnone : (Value.object ms).member? "desired_allocation" = none) :
    extraShape.read depth (Value.object ms).text.toList =
      fail (.missingField "desired_allocation") [] := by
  have habsent : ∀ m ∈ ms, m.1 ≠ "desired_allocation" := by
    simpa [Value.member?] using hnone
  cases h with
  | @object d _ _ hms =>
    have hforeign : ∀ m ∈ ms, (∀ f ∈ extraShape.fields, f.name ≠ m.1) ∧ ∃ d, Plain d m.2 :=
      fun m hm => ⟨ne_of_mem_extraShape_fields (habsent m hm), d, hms m hm⟩
    obtain ⟨fuel, hfuel⟩ := exists_fuel_beyond_members ms
    rw [toList_text_object, extraShape_read_object (by omega), hfuel,
      Shape.readMembers_foreigns hforeign (.of_cons (by simp))]
    rfl

end Text

/-- The desired allocation of an object is the same whether the object is given as it is or as a
text; without one there is the same fault in both. -/
theorem desired_text_eq_desired {members : List (String × Value)}
    (h : Plain (depthLimit - 1) (.object members)) :
    (∀ v, (Value.object members).member? "desired_allocation" = some v →
      desired (.object members) = .ok (plainText v) ∧
        desired (.string (Value.object members).text) = .ok (plainText v)) ∧
    ((Value.object members).member? "desired_allocation" = none →
      ∃ e e', desired (.object members) = .error e ∧
        desired (.string (Value.object members).text) = .error e' ∧
        e.cause = .missingField "desired_allocation" ∧ e'.cause = e.cause) := by
  have hd : depthLimit - 1 < depthLimit := by decide
  constructor
  · intro v hv
    have hread := read_text_of_member? h hd hv
    constructor
    · simp [desired, desiredIn, hv, Except.map, Except.mapError]
    · simp only [desired, readWhole, hread]
      rfl
  · intro hnone
    have hread := read_text_of_member?_eq_none h hd hnone
    refine ⟨⟨.missingField "desired_allocation", none⟩,
      Fault.locate ⟨.missingField "desired_allocation", [], 0⟩ (Value.object members).text.toList,
      ?_, ?_, rfl, rfl⟩
    · simp [desired, desiredIn, hnone, Except.map, Except.mapError]
    · simp only [desired, readWhole, hread, fail]
      rfl

/-- Extra data with a nested value beside the allocation and characters that have to be escaped. -/
def notedExtra : List (String × Value) :=
  [("a \"note\"", .array [.integer (-3), .object [("\x01", .null)]]),
    ("desired_allocation", .string "\t\\0-3 \"x\"\n")]

theorem desired_notedExtra :
    Plain (depthLimit - 1) (.object notedExtra) ∧
      desired (.object notedExtra) = .ok "\\0-3 \"x\"" ∧
      desired (.string (Value.object notedExtra).text) = .ok "\\0-3 \"x\"" := by
  have hinner (d : Nat) : Plain (d + 1) (.object [("\x01", .null)]) :=
    .object (List.pairwise_singleton _ _) (by simpa using Plain.null)
  have hnote (d : Nat) : Plain (d + 2) (.array [.integer (-3), .object [("\x01", .null)]]) :=
    .array (by simpa using ⟨.integer (by decide) (by decide), hinner d⟩)
  have h : Plain (depthLimit - 1) (.object notedExtra) :=
    .object (by decide) (by simpa [notedExtra] using ⟨hnote 124, .string _⟩)
  have hv : (Value.object notedExtra).member? "desired_allocation" =
      some (.string "\t\\0-3 \"x\"\n") := rfl
  have htext : plainText (.string "\t\\0-3 \"x\"\n") = "\\0-3 \"x\"" := by
    decide
  exact ⟨h, htext ▸ (desired_text_eq_desired h).1 _ hv⟩

end Workload

end TracePlot
