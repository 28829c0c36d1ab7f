import Mathlib.Algebra.Ring.Int.Defs
import TracePlot.Json.Reader
import TracePlot.Proofs.Json.Leaves

/-! Reading a document back from its compact text. A document without floats whose nesting a fresh
reader allows is the one that its text is read as. -/

namespace TracePlot.Json

/-- The document nests at most `d` deep and all its numbers are integers of 64 bits. The names of
members ascend, as those of all documents do. -/
inductive Plain : Nat → Value → Prop
  | null {d : Nat} : Plain d .null
  | bool {d : Nat} (b : Bool) : Plain d (.bool b)
  | integer {d : Nat} {n : Int} (hlo : -2 ^ 63 ≤ n) (hhi : n < 2 ^ 64) : Plain d (.integer n)
  | string {d : Nat} (s : String) : Plain d (.string s)
  | array {d : Nat} {items : List Value} (hitems : ∀ v ∈ items, Plain d v) :
      Plain (d + 1) (.array items)
  | object {d : Nat} {members : List (String × Value)}
      (hsorted : members.Pairwise fun m m' => m.1 < m'.1) (hmembers : ∀ m ∈ members, Plain d m.2) :
      Plain (d + 1) (.object members)

section Members

variable {ms : List (String × Value)} {name : String} {v : Value}

theorem name_of_mem_insertMember {m : String × Value} (h : m ∈ insertMember name v ms) :
    m.1 = name ∨ m ∈ ms := by
  induction ms with
  | nil => exact .inl (by simp_all [insertMember])
  | cons m' ms ih =>
    unfold insertMember at h
    grind

theorem insertMember_pairwise (h : ms.Pairwise fun m m' => m.1 < m'.1) :
    (insertMember name v ms).Pairwise fun m m' => m.1 < m'.1 := by
  induction ms with
  | nil => exact List.pairwise_singleton _ _
  | cons m ms ih =>
    obtain ⟨n, w⟩ := m
    obtain ⟨hfirst, hrest⟩ := List.pairwise_cons.mp h
    rw [insertMember]
    split_ifs with heq hlt
    · exact List.pairwise_cons.mpr ⟨heq ▸ hfirst, hrest⟩
    · refine List.pairwise_cons.mpr ⟨fun m hm => ?_, h⟩
      rcases List.mem_cons.mp hm with rfl | hm
      · exact hlt
      · exact String.lt_trans hlt (hfirst m hm)
    · refine List.pairwise_cons.mpr ⟨fun m hm => ?_, ih hrest⟩
      rcases name_of_mem_insertMember hm with hname | hm
      · rw [hname]
        grind
      · exact hfirst m hm

/-- Whatever their order, members that are put into an object ascend there. -/
theorem ofMembers_pairwise (given : List (String × Value)) :
    ∃ ms, Value.ofMembers given = .object ms ∧ ms.Pairwise fun m m' => m.1 < m'.1 := by
  refine ⟨_, rfl, ?_⟩
  refine List.foldlRecOn given _ List.Pairwise.nil fun ms hms m _ => ?_
  exact insertMember_pairwise hms

theorem insertMember_eq_append {done : List (String × Value)} {name : String} {v : Value}
    (h : ∀ m ∈ done, m.1 < name) : insertMember name v done = done ++ [(name, v)] := by
  induction done with
  | nil => rfl
  | cons m done ih =>
    obtain ⟨hm, hdone⟩ := List.forall_mem_cons.mp h
    rw [insertMember, if_neg (String.ne_of_lt hm).symm, if_neg (String.lt_asymm hm), ih hdone]
    rfl

end Members

/-- What separates a member of a list or an object from the one in front of it. -/
def separator (first : Bool) : List Char :=
  if first then [] else [',']

/-- Texts that follow each other inside brackets. -/
def separated : Bool → List (List Char) → List Char
  | _, [] => []
  | first, entry :: entries => separator first ++ (entry ++ separated false entries)

def itemTexts (vs : List Value) : List (List Char) :=
  vs.map fun v => v.text.toList

def memberTexts (ms : List (String × Value)) : List (List Char) :=
  ms.map fun m => (stringText m.1).toList ++ ':' :: m.2.text.toList

section Text

theorem toList_itemsText (vs : List Value) :
    (itemsText vs).toList = separated false (itemTexts vs) := by
  induction vs with
  | nil => simp [itemsText, itemTexts, separated]
  | cons v vs ih => simp [itemsText, itemTexts, separated, separator, ih]

theorem toList_membersText (ms : List (String × Value)) :
    (membersText ms).toList = separated false (memberTexts ms) := by
  induction ms with
  | nil => simp [membersText, memberTexts, separated]
  | cons m ms ih => simp [membersText, memberTexts, separated, separator, ih]

theorem toList_text_array (vs : List Value) :
    (Value.array vs).text.toList = '[' :: (separated true (itemTexts vs) ++ [']']) := by
  cases vs with
  | nil => simp [Value.text, itemTexts, separated]
  | cons v vs => simp [Value.text, itemTexts, separated, separator, toList_itemsText]

theorem toList_text_object (ms : List (String × Value)) :
    (Value.object ms).text.toList = '\x7b' :: (separated true (memberTexts ms) ++ ['\x7d']) := by
  cases ms with
  | nil => simp [Value.text, memberTexts, separated]
  | cons m ms => simp [Value.text, memberTexts, separated, separator, toList_membersText]

variable {after : List Char}

theorem Ends.separated (h : Ends after) (entries : List (List Char)) :
    Ends (separated false entries ++ after) := by
  cases entries with
  | nil => exact h
  | cons entry entries => exact .of_cons (.inl rfl)

theorem separated_cons_append (first : Bool) (entry : List Char) (entries : List (List Char)) :
    separated first (entry :: entries) ++ after =
      separator first ++ (entry ++ (separated false entries ++ after)) := by
  simp [separated]

theorem separated_member_append (first : Bool) (name : String) (v : Value)
    (ms : List (String × Value)) :
    separated first (memberTexts ((name, v) :: ms)) ++ after =
      separator first ++ '"' :: (name.toList.flatMap escape ++
        '"' :: ':' :: (v.text.toList ++ (separated false (memberTexts ms) ++ after))) := by
  simp [memberTexts, separated, toList_stringText]

theorem length_separated_member (first : Bool) (name : String) (v : Value)
    (ms : List (String × Value)) :
    v.text.toList.length + (separated false (memberTexts ms)).length <
      (separated first (memberTexts ((name, v) :: ms))).length := by
  have hcons : memberTexts ((name, v) :: ms) =
      ((stringText name).toList ++ ':' :: v.text.toList) :: memberTexts ms := rfl
  rw [hcons, separated]
  simp only [List.length_append, List.length_cons]
  omega

theorem length_le_length_separated_members (first : Bool) (ms : List (String × Value)) :
    ms.length ≤ (separated first (memberTexts ms)).length := by
  induction ms generalizing first with
  | nil => simp
  | cons m ms ih =>
    obtain ⟨name, v⟩ := m
    have hlength := length_separated_member first name v ms
    have hih := ih false
    rw [List.length_cons]
    omega

end Text

/-- The text is not blank in front and closes no bracket. -/
def Starts (cs : List Char) : Prop :=
  ∃ c rest, cs = c :: rest ∧ isSpace c = false ∧ c ≠ ']' ∧ c ≠ '\x7d'

section Step

variable {c : Char} {cs after : List Char} {first : Bool}

theorem skipSpace_cons (hc : isSpace c = false) : skipSpace (c :: cs) = c :: cs :=
  List.dropWhile_cons_of_neg (by simp [hc])

theorem isSpace_of_isDigit (hc : Number.isDigit c = true) : isSpace c = false := by
  have hne := Number.ne_of_isDigit hc
  simp [isSpace, hne ' ' rfl, hne '\n' rfl, hne '\t' rfl, hne '\r' rfl]

theorem Starts.length_pos (h : Starts cs) : 0 < cs.length := by
  obtain ⟨c, rest, rfl, -⟩ := h
  simp

theorem starts_toString (n : Int) : Starts (toString n).toList := by
  rw [toList_toString]
  split
  · obtain ⟨c, digits, hdigits, hc⟩ := Number.exists_toDigits_eq_cons n.natAbs
    have hne := Number.ne_of_isDigit hc
    exact ⟨c, digits, hdigits, isSpace_of_isDigit hc, hne ']' rfl, hne '\x7d' rfl⟩
  · exact ⟨'-', _, rfl, rfl, by decide, by decide⟩

theorem starts_stringText (s : String) (cs : List Char) :
    Starts ((stringText s).toList ++ cs) := by
  rw [toList_stringText]
  exact ⟨'"', _, rfl, rfl, by decide, by decide⟩

theorem Plain.starts {d : Nat} {v : Value} (h : Plain d v) : Starts v.text.toList := by
  cases h with
  | null => exact ⟨'n', _, rfl, rfl, by decide, by decide⟩
  | bool b =>
    cases b with
    | false => exact ⟨'f', _, rfl, rfl, by decide, by decide⟩
    | true => exact ⟨'t', _, rfl, rfl, by decide, by decide⟩
  | integer => exact starts_toString _
  | string s => simpa [Value.text] using starts_stringText s []
  | array =>
    rw [toList_text_array]
    exact ⟨'[', _, rfl, rfl, by decide, by decide⟩
  | object =>
    rw [toList_text_object]
    exact ⟨'\x7b', _, rfl, rfl, by decide, by decide⟩

theorem nextItem_end : nextItem first (']' :: after) = .ok none := rfl

theorem nextItem_separator (h : Starts cs) :
    nextItem first (separator first ++ (cs ++ after)) = .ok (some (cs ++ after)) := by
  obtain ⟨c, rest, rfl, hspace, hclose, -⟩ := h
  cases first with
  | true => simp [separator, nextItem, skipSpace_cons hspace]
  | false =>
    have hcomma : isSpace ',' = false := rfl
    simp [separator, nextItem, skipSpace_cons hspace, skipSpace_cons hcomma, hclose]

theorem nextMember_end : nextMember first ('\x7d' :: after) = .ok none := rfl

theorem nextMember_separator :
    nextMember first (separator first ++ '"' :: after) = .ok (some after) := by
  cases first <;> rfl

theorem endList_end : endList (']' :: after) = .ok after := rfl

theorem afterObject_end : afterObject ('\x7d' :: after) = after := rfl

theorem colon_colon : colon (':' :: after) = .ok after := rfl

end Step

section Value

variable {fuel depth : Nat} {c : Char} {cs rest : List Char}

theorem value_of_scalar? {result : Except Fault (Outcome Value)} (hc : isSpace c = false)
    (hlist : c ≠ '[') (hobject : c ≠ '\x7b') (h : scalar? (c :: cs) = some result) :
    value (fuel + 1) depth (c :: cs) = result := by
  rw [value, skipSpace_cons hc]
  simp [hlist, hobject, h]

theorem value_of_isDigit (hc : Number.isDigit c = true) :
    value (fuel + 1) depth (c :: cs) = number false (c :: cs) := by
  have hne := Number.ne_of_isDigit hc
  refine value_of_scalar? (isSpace_of_isDigit hc) (hne '[' rfl) (hne '\x7b' rfl) ?_
  simp [scalar?, hne 'n' rfl, hne 't' rfl, hne 'f' rfl, hne '"' rfl, hne '-' rfl, hc]

theorem value_integer {n : Int} (hlo : -2 ^ 63 ≤ n) (hhi : n < 2 ^ 64) (hrest : Ends rest) :
    value (fuel + 1) depth ((toString n).toList ++ rest) = .ok (.integer n, rest) := by
  have hword : n.natAbs < 2 ^ 64 := by omega
  rw [toList_toString]
  split
  · next hn =>
    obtain ⟨c, digits, hdigits, hc⟩ := Number.exists_toDigits_eq_cons n.natAbs
    have hnumber := number_toDigits hword hrest false
    rw [hdigits, List.cons_append] at hnumber ⊢
    rw [value_of_isDigit hc, hnumber, hrest.numberTail, Int.natAbs_of_nonneg hn]
    rfl
  · next hn =>
    have hneg : 0 < n.natAbs ∧ n.natAbs ≤ 0x8000000000000000 := by omega
    have habs : -(n.natAbs : Int) = n := by omega
    rw [List.cons_append, value_of_scalar? rfl (by decide) (by decide) rfl,
      number_toDigits hword hrest, hrest.numberTail, if_neg (by decide), if_pos hneg, habs]

theorem value_string (s : String) :
    value (fuel + 1) depth ((stringText s).toList ++ rest) = .ok (.string s, rest) := by
  rw [toList_stringText, List.cons_append, List.append_assoc,
    value_of_scalar? rfl (by decide) (by decide) rfl]
  simp [quoted_flatMap_escape, Except.map]

theorem value_list (hdepth : 1 < depth) :
    value (fuel + 1) depth ('[' :: cs) = items fuel (depth - 1) true [] cs := by
  rw [value, skipSpace_cons rfl]
  exact if_neg (Nat.not_le_of_lt hdepth)

theorem value_object (hdepth : 1 < depth) :
    value (fuel + 1) depth ('\x7b' :: cs) = members fuel (depth - 1) true [] cs := by
  rw [value, skipSpace_cons rfl]
  exact if_neg (Nat.not_le_of_lt hdepth)

end Value

/-- A reader with this much nesting left gives the value back from its text. -/
def ReadsBack (depth : Nat) (v : Value) : Prop :=
  ∀ fuel rest, v.text.toList.length ≤ fuel → Ends rest →
    value fuel depth (v.text.toList ++ rest) = .ok (v, rest)

section Read

variable {fuel depth : Nat} {first : Bool} {after : List Char}

theorem items_separated {done vs : List Value}
    (hvs : ∀ v ∈ vs, Starts v.text.toList ∧ ReadsBack depth v)
    (hfuel : (separated first (itemTexts vs)).length < fuel) :
    items fuel depth first done (separated first (itemTexts vs) ++ ']' :: after) =
      .ok (.array (done.reverse ++ vs), after) := by
  induction vs generalizing fuel first done with
  | nil =>
    obtain ⟨fuel, rfl⟩ := Nat.exists_eq_add_one.mpr (Nat.zero_lt_of_lt hfuel)
    simp [items, itemTexts, separated, nextItem_end, endList_end, bind, Except.bind, pure,
      Except.pure]
  | cons v vs ih =>
    obtain ⟨⟨hstarts, hv⟩, hvs⟩ := List.forall_mem_cons.mp hvs
    obtain ⟨fuel, rfl⟩ := Nat.exists_eq_add_one.mpr (Nat.zero_lt_of_lt hfuel)
    have hlength := hstarts.length_pos
    have hcons : itemTexts (v :: vs) = v.text.toList :: itemTexts vs := rfl
    rw [hcons, separated, List.length_append, List.length_append] at hfuel
    have hread := hv fuel (separated false (itemTexts vs) ++ ']' :: after) (by omega)
      (Ends.separated (.of_cons (by simp)) _)
    have hrest : items fuel depth false (v :: done)
          (separated false (itemTexts vs) ++ ']' :: after) =
        .ok (.array ((v :: done).reverse ++ vs), after) := ih hvs (by omega)
    rw [hcons, separated_cons_append, items, nextItem_separator hstarts]
    simp only [bind, Except.bind, hread, hrest]
    simp

theorem members_separated {done ms : List (String × Value)}
    (hms : ∀ m ∈ ms, ReadsBack depth m.2)
    (hsorted : (done ++ ms).Pairwise fun m m' => m.1 < m'.1)
    (hfuel : (separated first (memberTexts ms)).length < fuel) :
    members fuel depth first done (separated first (memberTexts ms) ++ '\x7d' :: after) =
      .ok (.object (done ++ ms), after) := by
  induction ms generalizing fuel first done with
  | nil =>
    obtain ⟨fuel, rfl⟩ := Nat.exists_eq_add_one.mpr (Nat.zero_lt_of_lt hfuel)
    simp [members, memberTexts, separated, nextMember_end, afterObject_end, bind, Except.bind,
      pure, Except.pure]
  | cons m ms ih =>
    obtain ⟨name, v⟩ := m
    obtain ⟨hv, hms⟩ := List.forall_mem_cons.mp hms
    obtain ⟨fuel, rfl⟩ := Nat.exists_eq_add_one.mpr (Nat.zero_lt_of_lt hfuel)
    -- Names ascend, so the member is put behind those that were read before it.
    have hlast : ∀ m ∈ done, m.1 < name := fun m hm =>
      (List.pairwise_append.mp hsorted).2.2 m hm (name, v) List.mem_cons_self
    have hlength := length_separated_member first name v ms
    have hread : value fuel depth
          (v.text.toList ++ (separated false (memberTexts ms) ++ '\x7d' :: after)) =
        .ok (v, separated false (memberTexts ms) ++ '\x7d' :: after) :=
      hv fuel _ (by dsimp only; omega) (Ends.separated (.of_cons (by simp)) _)
    have hrest : members fuel depth false (done ++ [(name, v)])
          (separated false (memberTexts ms) ++ '\x7d' :: after) =
        .ok (.object ((done ++ [(name, v)]) ++ ms), after) :=
      ih hms (by simpa using hsorted) (by omega)
    rw [separated_member_append, members, nextMember_separator]
    simp only [bind, Except.bind, quoted_flatMap_escape, colon_colon, hread,
      insertMember_eq_append hlast, hrest]
    simp

theorem readsBack_of_succ {v : Value} (hv : Starts v.text.toList)
    (h : ∀ fuel rest, v.text.toList.length ≤ fuel + 1 → Ends rest →
      value (fuel + 1) depth (v.text.toList ++ rest) = .ok (v, rest)) : ReadsBack depth v := by
  intro fuel rest hfuel hrest
  obtain ⟨fuel, rfl⟩ := Nat.exists_eq_add_one.mpr (Nat.lt_of_lt_of_le hv.length_pos hfuel)
  exact h fuel rest hfuel hrest

/-- By induction on the document: a list or an object takes one level of nesting and leaves its
members one less. -/
theorem Plain.readsBack {d : Nat} {v : Value} (h : Plain d v) (hdepth : d < depth) :
    ReadsBack depth v := by
  induction h generalizing depth with
  | null => exact readsBack_of_succ (Plain.null (d := 0)).starts fun fuel rest _ _ => rfl
  | bool b =>
    refine readsBack_of_succ (Plain.bool (d := 0) b).starts fun fuel rest _ _ => ?_
    cases b <;> rfl
  | integer hlo hhi =>
    exact readsBack_of_succ (starts_toString _) fun fuel rest _ hrest =>
      value_integer hlo hhi hrest
  | string s =>
    exact readsBack_of_succ (Plain.string (d := 0) s).starts fun fuel rest _ _ => value_string s
  | @array d vs hvs ih =>
    refine readsBack_of_succ (Plain.array hvs).starts fun fuel rest hfuel _ => ?_
    have hitems : ∀ v ∈ vs, Starts v.text.toList ∧ ReadsBack (depth - 1) v := fun v hv =>
      ⟨(hvs v hv).starts, ih v hv (by omega)⟩
    rw [toList_text_array] at hfuel ⊢
    simp only [List.length_cons, List.length_append] at hfuel
    rw [List.cons_append, List.append_assoc, value_list (by omega)]
    exact items_separated hitems (by omega)
  | @object d ms hsorted hms ih =>
    refine readsBack_of_succ (Plain.object hsorted hms).starts fun fuel rest hfuel _ => ?_
    have hmembers : ∀ m ∈ ms, ReadsBack (depth - 1) m.2 := fun m hm => ih m hm (by omega)
    rw [toList_text_object] at hfuel ⊢
    simp only [List.length_cons, List.length_append] at hfuel
    rw [List.cons_append, List.append_assoc, value_object (by omega)]
    exact members_separated hmembers hsorted (by omega)

/-- Reading inverts printing. -/
theorem parse_text {d : Nat} {v : Value} (h : Plain d v) (hd : d < depthLimit) :
    parse v.text = .ok v := by
  have hread := h.readsBack hd (fuelFor v.text.toList) [] (by rw [fuelFor]; omega) ends_nil
  rw [List.append_nil] at hread
  simp only [parse, readWhole, hread]
  rfl

end Read

end TracePlot.Json
