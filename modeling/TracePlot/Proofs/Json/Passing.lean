import TracePlot.Proofs.Json.RoundTrip

/-! Passing over a document as text. What is passed is the text of the document and nothing behind
it, at any nesting. -/

namespace TracePlot.Json

def Frame.opening : Frame → Char
  | .list => '['
  | .object => '\x7b'

def Frame.closing : Frame → Char
  | .list => ']'
  | .object => '\x7d'

/-- Inside any brackets the text is passed, at a cost of at most two calls for each of its
characters. -/
def PassesOver (v : Value) : Prop :=
  ∀ need fuel stack rest, Ends rest → need + 2 * v.text.toList.length ≤ fuel →
    ∃ left, need ≤ left ∧
      passValue fuel stack (v.text.toList ++ rest) = passRest left true stack rest

/-- The text of an item or a member is passed inside brackets of its kind. -/
def PassesEntry (frame : Frame) (entry : List Char) : Prop :=
  ∀ need fuel stack rest, Ends rest → need + 2 * entry.length + 1 ≤ fuel →
    ∃ left, need ≤ left ∧
      passEntry fuel (frame :: stack) (entry ++ rest) = passRest left true (frame :: stack) rest

section Entries

variable {fuel : Nat} {frame : Frame} {stack : List Frame} {after : List Char}
  {entries : List (List Char)}

theorem Frame.ends_closing (frame : Frame) : Ends (frame.closing :: after) := by
  cases frame with
  | list => exact .of_cons (by simp [closing])
  | object => exact .of_cons (by simp [closing])

theorem passValue_opening {cs : List Char} :
    passValue (fuel + 1) stack (frame.opening :: cs) =
      passRest fuel false (frame :: stack) cs := by
  cases frame <;> rfl

theorem passRest_closing (afterValue : Bool) :
    passRest (fuel + 1) afterValue (frame :: stack) (frame.closing :: after) =
      passRest fuel true stack after := by
  cases frame <;> cases afterValue <;> rfl

theorem passRest_comma {cs : List Char} :
    passRest (fuel + 1) true (frame :: stack) (',' :: cs) =
      passEntry fuel (frame :: stack) cs := rfl

theorem passRest_first {cs : List Char} (hcs : Starts cs) :
    passRest (fuel + 1) false (frame :: stack) (cs ++ after) =
      passEntry fuel (frame :: stack) (cs ++ after) := by
  obtain ⟨c, rest, rfl, hspace, hlist, hobject⟩ := hcs
  simp [passRest, skipSpace_cons hspace, hlist, hobject]

theorem passRest_separated (need fuel : Nat) (stack : List Frame) (after : List Char)
    (h : ∀ entry ∈ entries, PassesEntry frame entry)
    (hfuel : need + 2 * (separated false entries).length + 1 ≤ fuel) :
    ∃ left, need ≤ left ∧
      passRest fuel true (frame :: stack) (separated false entries ++ frame.closing :: after) =
        passRest left true stack after := by
  obtain ⟨fuel, rfl⟩ : ∃ f, fuel = f + 1 := Nat.exists_eq_add_one.mpr (by omega)
  induction entries generalizing fuel with
  | nil => exact ⟨fuel, by omega, passRest_closing true⟩
  | cons entry entries ih =>
    obtain ⟨hentry, hentries⟩ := List.forall_mem_cons.mp h
    have hlength : (separated false (entry :: entries)).length =
        entry.length + (separated false entries).length + 1 := by
      simp [separated, separator]
    -- The first entry is asked to leave as many calls as those behind it need.
    obtain ⟨middle, hmiddle, hpass⟩ :=
      hentry (need + 2 * (separated false entries).length + 1) fuel stack
        (separated false entries ++ frame.closing :: after)
        (frame.ends_closing.separated entries) (by omega)
    obtain ⟨middle, rfl⟩ : ∃ m, middle = m + 1 := Nat.exists_eq_add_one.mpr (by omega)
    obtain ⟨left, hleft, hrest⟩ := ih hentries middle hmiddle
    exact ⟨left, hleft,
      (congrArg _ (separated_cons_append false entry entries)).trans
        (passRest_comma.trans (hpass.trans hrest))⟩

theorem passRest_opened (need fuel : Nat) (stack : List Frame) (after : List Char)
    (h : ∀ entry ∈ entries, Starts entry ∧ PassesEntry frame entry)
    (hfuel : need + 2 * (separated true entries).length + 3 ≤ fuel) :
    ∃ left, need ≤ left ∧
      passRest fuel false (frame :: stack) (separated true entries ++ frame.closing :: after) =
        passRest left true stack after := by
  obtain ⟨fuel, rfl⟩ : ∃ f, fuel = f + 1 := Nat.exists_eq_add_one.mpr (by omega)
  cases entries with
  | nil => exact ⟨fuel, by omega, passRest_closing false⟩
  | cons entry entries =>
    obtain ⟨⟨hstarts, hentry⟩, hentries⟩ := List.forall_mem_cons.mp h
    have hlength : (separated true (entry :: entries)).length =
        entry.length + (separated false entries).length := by
      simp [separated, separator]
    obtain ⟨middle, hmiddle, hpass⟩ :=
      hentry (need + 2 * (separated false entries).length + 1) fuel stack
        (separated false entries ++ frame.closing :: after)
        (frame.ends_closing.separated entries) (by omega)
    obtain ⟨left, hleft, hrest⟩ := passRest_separated need middle stack after
      (fun entry hentry => (hentries entry hentry).2) hmiddle
    exact ⟨left, hleft,
      (congrArg _ (separated_cons_append true entry entries)).trans
        ((passRest_first hstarts).trans (hpass.trans hrest))⟩

end Entries

section Values

variable {fuel : Nat} {stack : List Frame} {cs rest : List Char} {v : Value}

theorem PassesOver.item (h : PassesOver v) : PassesEntry .list v.text.toList := by
  intro need fuel stack rest hrest hfuel
  obtain ⟨fuel, rfl⟩ : ∃ f, fuel = f + 1 := Nat.exists_eq_add_one.mpr (by omega)
  obtain ⟨left, hleft, hpass⟩ := h need fuel (.list :: stack) rest hrest (by omega)
  exact ⟨left, hleft, hpass⟩

theorem passEntry_member (name : String) :
    passEntry (fuel + 1) (.object :: stack) ((stringText name).toList ++ ':' :: cs) =
      passValue fuel (.object :: stack) cs := by
  have hquote : isSpace '"' = false := rfl
  rw [toList_stringText]
  simp [passEntry, skipSpace_cons hquote, passQuoted_flatMap_escape, colon_colon, bind,
    Except.bind]

theorem PassesOver.member (h : PassesOver v) (name : String) :
    PassesEntry .object ((stringText name).toList ++ ':' :: v.text.toList) := by
  intro need fuel stack rest hrest hfuel
  rw [List.length_append, List.length_cons] at hfuel
  obtain ⟨fuel, rfl⟩ : ∃ f, fuel = f + 1 := Nat.exists_eq_add_one.mpr (by omega)
  obtain ⟨left, hleft, hpass⟩ := h need fuel (.object :: stack) rest hrest (by omega)
  refine ⟨left, hleft, ?_⟩
  rw [List.append_assoc, List.cons_append, passEntry_member, hpass]

theorem passValue_integer (n : Int) (hrest : Ends rest) :
    passValue (fuel + 1) stack ((toString n).toList ++ rest) = passRest fuel true stack rest := by
  have hnumber := passNumber_toDigits (n := n.natAbs) hrest
  obtain ⟨c, digits, hdigits, hc⟩ := Number.exists_toDigits_eq_cons n.natAbs
  rw [toList_toString]
  split
  · have hne := Number.ne_of_isDigit hc
    rw [hdigits, List.cons_append] at hnumber ⊢
    simp [passValue, skipSpace_cons (isSpace_of_isDigit hc), hne '[' rfl, hne '\x7b' rfl,
      hne 'n' rfl, hne 't' rfl, hne 'f' rfl, hne '"' rfl, hne '-' rfl, hc, hnumber, bind,
      Except.bind]
  · have hminus : isSpace '-' = false := rfl
    simp [passValue, skipSpace_cons hminus, hnumber, bind, Except.bind]

theorem passValue_string (s : String) :
    passValue (fuel + 1) stack ((stringText s).toList ++ rest) =
      passRest fuel true stack rest := by
  have hquote : isSpace '"' = false := rfl
  rw [toList_stringText]
  simp [passValue, skipSpace_cons hquote, passQuoted_flatMap_escape, bind, Except.bind]

theorem passesOver_of_succ (hv : Starts v.text.toList)
    (h : ∀ fuel stack rest, Ends rest →
      passValue (fuel + 1) stack (v.text.toList ++ rest) = passRest fuel true stack rest) :
    PassesOver v := by
  intro need fuel stack rest hrest hfuel
  have hlength := hv.length_pos
  obtain ⟨fuel, rfl⟩ : ∃ f, fuel = f + 1 := Nat.exists_eq_add_one.mpr (by omega)
  exact ⟨fuel, by omega, h fuel stack rest hrest⟩

theorem passesOver_of_entries (frame : Frame) {entries : List (List Char)}
    (htext : v.text.toList = frame.opening :: (separated true entries ++ [frame.closing]))
    (hentries : ∀ entry ∈ entries, Starts entry ∧ PassesEntry frame entry) : PassesOver v := by
  intro need fuel stack rest _ hfuel
  rw [htext] at hfuel ⊢
  simp only [List.length_cons, List.length_append, List.length_nil] at hfuel
  obtain ⟨fuel, rfl⟩ : ∃ f, fuel = f + 1 := Nat.exists_eq_add_one.mpr (by omega)
  obtain ⟨left, hleft, hpass⟩ := passRest_opened need fuel stack rest hentries (by omega)
  refine ⟨left, hleft, ?_⟩
  rw [List.cons_append, List.append_assoc, passValue_opening, List.singleton_append, hpass]

theorem passesOver_array {vs : List Value}
    (hvs : ∀ v ∈ vs, Starts v.text.toList ∧ PassesOver v) : PassesOver (.array vs) := by
  refine passesOver_of_entries .list (toList_text_array vs) fun entry hentry => ?_
  obtain ⟨v, hv, rfl⟩ := List.mem_map.mp hentry
  exact ⟨(hvs v hv).1, (hvs v hv).2.item⟩

theorem passesOver_object {ms : List (String × Value)} (hms : ∀ m ∈ ms, PassesOver m.2) :
    PassesOver (.object ms) := by
  refine passesOver_of_entries .object (toList_text_object ms) fun entry hentry => ?_
  obtain ⟨m, hm, rfl⟩ := List.mem_map.mp hentry
  exact ⟨starts_stringText m.1 _, (hms m hm).member m.1⟩

/-- By induction on the document, with the brackets around it open. -/
theorem Plain.passesOver {d : Nat} (h : Plain d v) : PassesOver v := by
  induction h with
  | null => exact passesOver_of_succ (Plain.null (d := 0)).starts fun fuel stack rest _ => rfl
  | bool b =>
    refine passesOver_of_succ (Plain.bool (d := 0) b).starts fun fuel stack rest _ => ?_
    cases b <;> rfl
  | integer => exact passesOver_of_succ (starts_toString _) fun _ _ _ => passValue_integer _
  | string s =>
    exact passesOver_of_succ (Plain.string (d := 0) s).starts fun _ _ _ _ => passValue_string s
  | array hvs ih => exact passesOver_array fun v hv => ⟨(hvs v hv).starts, ih v hv⟩
  | object _ _ ih => exact passesOver_object ih

/-- What is passed is the whole text of the document and nothing behind it. -/
theorem pass_text {d : Nat} (h : Plain d v) (hrest : Ends rest) :
    pass (v.text.toList ++ rest) = .ok rest := by
  obtain ⟨left, hleft, hpass⟩ := h.passesOver 1 (4 * (v.text.toList ++ rest).length + 4) [] rest
    hrest (by rw [List.length_append]; omega)
  obtain ⟨left, rfl⟩ : ∃ f, left = f + 1 := Nat.exists_eq_add_one.mpr hleft
  rw [pass, hpass]
  rfl

end Values

end TracePlot.Json
