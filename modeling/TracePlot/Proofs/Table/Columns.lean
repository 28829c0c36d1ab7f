import Mathlib.Data.Finset.Insert
import Mathlib.Data.List.Pairwise
import TracePlot.Proofs.Table.Reading

/-! Tables with their columns in another order and with further columns. A cell is read by the name
over it, wherever it stands, and the columns that a kind of row knows change different parts of it.
So the order of the columns does not matter, nor do columns with other names. -/

namespace TracePlot.Table

section Arrange

variable {α β : Type} {order : List Nat}

def arrange (order : List Nat) (l : List α) : List α :=
  order.filterMap (l[·]?)

theorem arrange_map (order : List Nat) (f : α → β) (l : List α) :
    arrange order (l.map f) = (arrange order l).map f := by
  simp [arrange, List.map_filterMap]

theorem filterMap_range (l : List α) : (List.range l.length).filterMap (l[·]?) = l := by
  induction l with
  | nil => rfl
  | cons a rest ih =>
    rw [List.length_cons, List.range_succ_eq_map, List.filterMap_cons, List.filterMap_map]
    simpa [Function.comp_def] using ih

theorem arrange_perm {l : List α} (h : order.Perm (List.range l.length)) :
    (arrange order l).Perm l := by
  have hperm := h.filterMap (l[·]?)
  rwa [filterMap_range] at hperm

theorem arrange_zip {l : List α} {l' : List β} (hlength : l.length = l'.length) (order : List Nat) :
    arrange order (l.zip l') = (arrange order l).zip (arrange order l') := by
  induction order with
  | nil => rfl
  | cons i rest ih =>
    unfold arrange at ih ⊢
    by_cases hi : i < l.length
    · have hi' : i < l'.length := hlength ▸ hi
      simp [hi, hi', ih]
    · have hi' : ¬ i < l'.length := hlength ▸ hi
      simp [hi, hi', ih]

end Arrange

section Texts

/-- The text of a cell without the blanks around it. -/
def cellText? (cell : List UInt8) : Option String :=
  (Text.Utf8.decode cell).toOption.map fun cs => String.ofList (Text.trimChars cs)

variable {cells : List (List UInt8)} {texts : List String}

theorem cellTexts_eq_ok_iff {k : Nat} :
    cellTexts k cells = .ok texts ↔ cells.map cellText? = texts.map some := by
  induction cells generalizing k texts with
  | nil => cases texts <;> simp [cellTexts]
  | cons cell rest ih =>
    cases hcell : Text.Utf8.decode cell with
    | error place => cases texts <;> simp [cellTexts, cellText?, hcell, Except.toOption]
    | ok cs =>
      simp only [cellTexts, hcell, map_eq_ok_iff, ih]
      cases texts <;> simp [cellText?, hcell, Except.toOption, and_comm]

theorem exists_texts_iff {α : Type} {read : α → Option String} {l : List α} :
    (∃ texts : List String, l.map read = texts.map some) ↔ ∀ a ∈ l, (read a).isSome := by
  induction l with
  | nil => exact ⟨fun _ => by simp, fun _ => ⟨[], rfl⟩⟩
  | cons a rest ih =>
    rw [List.forall_mem_cons, ← ih]
    constructor
    · rintro ⟨texts, htexts⟩
      cases texts with
      | nil => simp at htexts
      | cons text texts =>
        rw [List.map_cons, List.map_cons, List.cons_eq_cons] at htexts
        exact ⟨by simp [htexts.1], texts, htexts.2⟩
    · rintro ⟨ha, texts, htexts⟩
      obtain ⟨text, htext⟩ := Option.isSome_iff_exists.mp ha
      exact ⟨text :: texts, by rw [List.map_cons, List.map_cons, htext, htexts]⟩

theorem length_of_texts {α : Type} {read : α → Option String} {l : List α} {texts : List String}
    (h : l.map read = texts.map some) : l.length = texts.length := by
  simpa using congrArg List.length h

theorem texts_unique {texts texts' : List String} (h : texts.map some = texts'.map some) :
    texts = texts' :=
  List.map_injective_iff.mpr (Option.some_injective _) h

theorem map_arrange_eq_iff {α : Type} {order : List Nat} {read : α → Option String} {l : List α}
    (horder : order.Perm (List.range l.length)) {texts : List String} :
    (arrange order l).map read = texts.map some ↔
      ∃ before : List String, l.map read = before.map some ∧ arrange order before = texts := by
  constructor
  · intro htexts
    have hsome : ∀ a ∈ l, (read a).isSome := fun a ha =>
      exists_texts_iff.mp ⟨texts, htexts⟩ a ((arrange_perm horder).mem_iff.mpr ha)
    obtain ⟨before, hbefore⟩ := exists_texts_iff.mpr hsome
    refine ⟨before, hbefore, ?_⟩
    rw [← arrange_map, hbefore, arrange_map] at htexts
    exact texts_unique htexts
  · rintro ⟨before, hbefore, rfl⟩
    rw [← arrange_map, hbefore, arrange_map]

theorem map_append_eq_iff {α : Type} {read : α → Option String} {l more : List α}
    {after : List String} (hmore : more.map read = after.map some) {texts : List String} :
    (l ++ more).map read = texts.map some ↔
      ∃ before : List String, l.map read = before.map some ∧ before ++ after = texts := by
  constructor
  · intro htexts
    rw [List.map_append, eq_comm, List.map_eq_append_iff] at htexts
    obtain ⟨before, after', htexts, hbefore, hafter⟩ := htexts
    rw [hmore] at hafter
    obtain rfl := texts_unique hafter
    exact ⟨before, hbefore.symm, htexts.symm⟩
  · rintro ⟨before, hbefore, rfl⟩
    rw [List.map_append, List.map_append, hbefore, hmore]

/-- Cells with known ones added, in another order, have their texts with the known ones added, in
that order. -/
theorem map_arrange_append_eq_iff {α : Type} {order : List Nat} {read : α → Option String}
    {l more : List α} {after : List String}
    (horder : order.Perm (List.range (l.length + more.length)))
    (hmore : more.map read = after.map some) {texts : List String} :
    (arrange order (l ++ more)).map read = texts.map some ↔
      ∃ before : List String, l.map read = before.map some ∧
        arrange order (before ++ after) = texts := by
  rw [map_arrange_eq_iff (by rwa [List.length_append])]
  simp only [map_append_eq_iff hmore]
  constructor
  · rintro ⟨_, ⟨before, hbefore, rfl⟩, htexts⟩
    exact ⟨before, hbefore, htexts⟩
  · rintro ⟨before, hbefore, htexts⟩
    exact ⟨_, ⟨before, hbefore, rfl⟩, htexts⟩

end Texts

theorem toOption_map_congr {ε α β : Type} {f : α → β} {x y : Except ε α}
    (h : x.toOption = y.toOption) : (x.map f).toOption = (y.map f).toOption := by
  cases x <;> cases y <;> simp_all [Except.toOption, Except.map]

namespace Column

variable {ρ : Type}

def Makes (c : Column ρ) (change : ρ → ρ) : Prop :=
  ∃ cell text, c.read cell text = .ok change

/-- What the column makes of a text does not depend on where the cell stands. -/
def Unplaced (c : Column ρ) : Prop :=
  ∀ i j text, (c.read i text).toOption = (c.read j text).toOption

def Commute (c d : Column ρ) : Prop :=
  ∀ f g, c.Makes f → d.Makes g → ∀ row, f (g row) = g (f row)

theorem Commute.symm {c d : Column ρ} (h : Commute c d) : Commute d c :=
  fun f g hf hg row => (h g f hg hf row).symm

section Kinds

variable {α β : Type} {name name' : String} {read : Nat → String → Except RowFault α}
  {read' : Nat → String → Except RowFault β} {set : α → ρ → ρ} {set' : β → ρ → ρ}

theorem commute_of_set (h : ∀ v w row, set v (set' w row) = set' w (set v row)) :
    Commute ⟨name, fun cell text => (read cell text).map set⟩
      ⟨name', fun cell text => (read' cell text).map set'⟩ := by
  rintro f g ⟨cell, text, hf⟩ ⟨cell', text', hg⟩ row
  obtain ⟨v, -, rfl⟩ := map_eq_ok_iff.mp hf
  obtain ⟨w, -, rfl⟩ := map_eq_ok_iff.mp hg
  exact h v w row

theorem unplaced_of_read (h : ∀ i j text, (read i text).toOption = (read j text).toOption) :
    Unplaced ⟨name, fun cell text => (read cell text).map set⟩ := by
  exact fun i j text => toOption_map_congr (h i j text)

theorem text_eq_map (set : String → ρ → ρ) :
    Column.text name set = ⟨name, fun _ text => (Except.ok text).map set⟩ :=
  rfl

@[simp]
theorem unplaced_text {set : String → ρ → ρ} : (text name set).Unplaced :=
  fun _ _ _ => rfl

theorem toOption_readWord (i j : Nat) (text : String) :
    (readWord i text).toOption = (readWord j text).toOption := by
  unfold readWord
  cases Number.word? text <;> rfl

theorem toOption_readNumber (i j : Nat) (text : String) :
    (readNumber i text).toOption = (readNumber j text).toOption :=
  toOption_map_congr (toOption_readWord i j text)

@[simp]
theorem unplaced_word {set : UInt64 → ρ → ρ} : (word name set).Unplaced :=
  unplaced_of_read toOption_readWord

@[simp]
theorem unplaced_number {set : Float → ρ → ρ} : (number name set).Unplaced :=
  unplaced_of_read toOption_readNumber

@[simp]
theorem unplaced_optional {set : Option Float → ρ → ρ} : (optional name set).Unplaced := by
  refine unplaced_of_read fun i j text => ?_
  unfold readOptional
  by_cases hempty : text.isEmpty
  · rw [if_pos hempty, if_pos hempty]
  · rw [if_neg hempty, if_neg hempty]
    exact toOption_map_congr (toOption_readNumber i j text)

@[simp]
theorem unplaced_flag {set : Option Float → ρ → ρ} : (flag name set).Unplaced :=
  unplaced_of_read fun _ _ _ => rfl

@[simp]
theorem unplaced_integer {set : Int → ρ → ρ} : (integer name set).Unplaced := by
  refine unplaced_of_read fun i j text => ?_
  cases Number.int32 text <;> rfl

@[simp]
theorem unplaced_resources {set : Resource.IdSet → ρ → ρ} : (resources name set).Unplaced :=
  unplaced_of_read fun _ _ _ => rfl

end Kinds

end Column

variable {ρ : Type}

/-- The columns of a kind of row, which do not depend on where they stand in a table. -/
structure Movable (columns : List (Column ρ)) : Prop where
  unplaced : ∀ c ∈ columns, c.Unplaced
  commute : columns.Pairwise Column.Commute

section Cells

variable {columns : List (Column ρ)}

/-- What a cell under a name does to a row and to the names of the columns read so far. -/
def takeCell (columns : List (Column ρ)) (state : Option (ρ × Finset String))
    (e : String × String) : Option (ρ × Finset String) :=
  state.bind fun s =>
    match columns.find? fun c => c.name = e.1 with
    | none => some s
    | some c =>
      if e.1 ∈ s.2 then none
      else (c.read 0 e.2).toOption.map fun change => (change s.1, insert e.1 s.2)

theorem foldl_takeCell_none (entries : List (String × String)) :
    entries.foldl (takeCell columns) none = none := by
  induction entries with
  | nil => rfl
  | cons e rest ih => exact ih

theorem readCells_eq_foldl (hmovable : Movable columns) (seen : List String) (cell : Nat)
    (row : ρ) (entries : List (String × String)) :
    (readCells columns seen cell row entries).toOption =
      (entries.foldl (takeCell columns) (some (row, seen.toFinset))).map (·.1) := by
  induction entries generalizing seen cell row with
  | nil => rfl
  | cons e rest ih =>
    obtain ⟨name, text⟩ := e
    rw [readCells, List.foldl_cons, takeCell, Option.bind_some]
    cases hfind : columns.find? fun c => c.name = name with
    | none => simp only [ih]
    | some c =>
      have hc : c ∈ columns := List.mem_of_find?_eq_some hfind
      by_cases hseen : name ∈ seen
      · simp [hseen, foldl_takeCell_none, Except.toOption]
      · have hread := hmovable.unplaced c hc cell 0 text
        simp only [List.contains_iff_mem, hseen, if_false, List.mem_toFinset, ← hread]
        cases c.read cell text with
        | error fault => simp [foldl_takeCell_none, Except.toOption]
        | ok change =>
          have hrest := ih (name :: seen) (cell + 1) (change row)
          rw [List.toFinset_cons] at hrest
          simpa [Except.toOption] using hrest

theorem takeCell_of_unknown {e : String × String}
    (hfind : (columns.find? fun c => c.name = e.1) = none) (state : Option (ρ × Finset String)) :
    takeCell columns state e = state := by
  cases state <;> simp [takeCell, hfind]

theorem commute_of_find (hmovable : Movable columns) {c d : Column ρ} {a b : String}
    (hc : (columns.find? fun c => c.name = a) = some c)
    (hd : (columns.find? fun c => c.name = b) = some d) (hab : a ≠ b) : Column.Commute c d := by
  have hname : c.name = a := by simpa using List.find?_some hc
  have hname' : d.name = b := by simpa using List.find?_some hd
  have hne : c ≠ d := by
    rintro rfl
    exact hab (hname.symm.trans hname')
  have : Std.Symm (Column.Commute (ρ := ρ)) := ⟨fun _ _ h => h.symm⟩
  exact hmovable.commute.forall (List.mem_of_find?_eq_some hc) (List.mem_of_find?_eq_some hd) hne

theorem takeCell_twice {a b : String × String} {c : Column ρ} {s : ρ × Finset String}
    (hc : (columns.find? fun c => c.name = a.1) = some c) (hab : a.1 = b.1) :
    takeCell columns (takeCell columns (some s) a) b = none := by
  simp only [takeCell, hc, ← hab, Option.bind_some]
  by_cases hseen : a.1 ∈ s.2
  · simp [hseen]
  · cases c.read 0 a.2 <;> simp [hseen, Except.toOption]

theorem takeCell_comm (hmovable : Movable columns) (state : Option (ρ × Finset String))
    (a b : String × String) :
    takeCell columns (takeCell columns state a) b =
      takeCell columns (takeCell columns state b) a := by
  cases ha : columns.find? fun c => c.name = a.1 with
  | none => rw [takeCell_of_unknown ha, takeCell_of_unknown ha]
  | some c =>
    cases hb : columns.find? fun c => c.name = b.1 with
    | none => rw [takeCell_of_unknown hb, takeCell_of_unknown hb]
    | some d =>
      cases state with
      | none => rfl
      | some s =>
        by_cases hab : a.1 = b.1
        · -- Of two cells with one name the later is refused.
          rw [takeCell_twice ha hab, takeCell_twice hb hab.symm]
        · have hcomm := commute_of_find hmovable ha hb hab
          simp only [takeCell, ha, hb, Option.bind_some]
          by_cases hseen : a.1 ∈ s.2
          · by_cases hseen' : b.1 ∈ s.2
            · simp [hseen, hseen']
            · cases d.read 0 b.2 <;> simp [hseen, hseen', Except.toOption]
          · cases hf : c.read 0 a.2 with
            | error fault =>
              by_cases hseen' : b.1 ∈ s.2
              · simp [hseen, hseen', Except.toOption]
              · cases d.read 0 b.2 <;> simp [hseen, hseen', Except.toOption]
            | ok f =>
              cases hg : d.read 0 b.2 with
              | error fault => by_cases hseen' : b.1 ∈ s.2 <;> simp [hseen, hseen', Except.toOption]
              | ok g =>
                have hsame := hcomm f g ⟨0, a.2, hf⟩ ⟨0, b.2, hg⟩ s.1
                by_cases hseen' : b.1 ∈ s.2
                · simp [hseen, hseen', Except.toOption]
                · simp [hseen, hseen', Ne.symm hab, hab, hsame, Finset.insert_comm,
                    Except.toOption]

theorem foldl_takeCell_perm (hmovable : Movable columns) {entries entries' : List (String × String)}
    (hperm : entries.Perm entries') (state : Option (ρ × Finset String)) :
    entries.foldl (takeCell columns) state = entries'.foldl (takeCell columns) state :=
  hperm.foldl_eq' (fun a _ b _ s => takeCell_comm hmovable s a b) state

theorem foldl_takeCell_unknown {entries : List (String × String)}
    (hunknown : ∀ e ∈ entries, e.1 ∉ columns.map (·.name)) (state : Option (ρ × Finset String)) :
    entries.foldl (takeCell columns) state = state := by
  induction entries with
  | nil => rfl
  | cons e rest ih =>
    rw [List.forall_mem_cons] at hunknown
    have hfind : (columns.find? fun c => c.name = e.1) = none := by
      rw [List.find?_eq_none]
      intro c hc hname
      exact hunknown.1 (List.mem_map.mpr ⟨c, hc, by simpa using hname⟩)
    rw [List.foldl_cons, takeCell_of_unknown hfind, ih hunknown.2]

end Cells

section Rows

variable {columns : List (Column ρ)} {blank : ρ} {header : List String} {index : Nat}

def bodyText? (cell : List UInt8) : Option String :=
  cellText? (trimBytes cell)

theorem readRow_eq_ok_iff (hmovable : Movable columns) {r : Record} {row : ρ} :
    readRow columns blank header r = .ok row ↔
      r.cells.length = header.length ∧
      ∃ texts, r.cells.map bodyText? = texts.map some ∧
        ((header.zip texts).foldl (takeCell columns) (some (blank, ∅))).map (·.1) = some row := by
  have hbody : (r.cells.map trimBytes).map cellText? = r.cells.map bodyText? := List.map_map
  rw [readRow]
  by_cases hlength : r.cells.length = header.length
  · rw [if_neg (not_not.mpr hlength), and_iff_right hlength, ← hbody]
    cases htexts : cellTexts 0 (r.cells.map trimBytes) with
    | error place =>
      simp only [reduceCtorEq, false_iff, ← cellTexts_eq_ok_iff (k := 0), htexts]
      simp
    | ok texts =>
      simp only [← cellTexts_eq_ok_iff (k := 0), htexts, Except.ok.injEq, exists_eq_left']
      rw [← toOption_eq_some_iff, readCells_eq_foldl hmovable, List.toFinset_nil]
  · rw [if_pos hlength]
    simp [hlength]

theorem readRows_eq_ok_iff {rs : List Record} {rows : List ρ} :
    readRows columns blank header index rs = .ok rows ↔
      List.Forall₂ (fun r row => readRow columns blank header r = .ok row) rs rows := by
  induction rs generalizing index rows with
  | nil => rw [readRows, List.forall₂_nil_left_iff, Except.ok.injEq, eq_comm]
  | cons r rest ih =>
    rw [readRows, List.forall₂_cons_left_iff]
    cases readRow columns blank header r with
    | error fault => simp
    | ok row =>
      simp only [map_eq_ok_iff, ih, Except.ok.injEq]
      constructor
      · rintro ⟨rest', hrest, rfl⟩
        exact ⟨row, rest', rfl, hrest, rfl⟩
      · rintro ⟨_, rest', rfl, hrest, rfl⟩
        exact ⟨rest', hrest, rfl⟩

theorem forall₂_iff_of_related {α β γ : Type} {rel : α → β → Prop} {p : α → γ → Prop}
    {q : β → γ → Prop} {l : List α} {l' : List β} {out : List γ} (h : List.Forall₂ rel l l')
    (hiff : ∀ a b c, rel a b → (p a c ↔ q b c)) :
    List.Forall₂ p l out ↔ List.Forall₂ q l' out := by
  induction h generalizing out with
  | nil => rw [List.forall₂_nil_left_iff, List.forall₂_nil_left_iff]
  | cons hab _ ih =>
    rw [List.forall₂_cons_left_iff, List.forall₂_cons_left_iff]
    simp only [hiff _ _ _ hab, ih]

end Rows

/-- The cells of a row and further ones, which are text, in another order. -/
structure RowRelaid (order : List Nat) (width extra : Nat) (r r' : Record) : Prop where
  length_eq : r.cells.length = width
  more : ∃ more : List (List UInt8), more.length = extra ∧
    (∀ cell ∈ more, (bodyText? cell).isSome) ∧ r'.cells = arrange order (r.cells ++ more)

/-- A header and rows of its width against the same with further columns, whose names are not in
use, and with all columns in another order. -/
inductive Relaid (used : List String) : List Record → List Record → Prop
  | mk {h h' : Record} {rows rows' : List Record} {order : List Nat} {extra : List (List UInt8)}
      (horder : order.Perm (List.range (h.cells.length + extra.length)))
      (hheader : h'.cells = arrange order (h.cells ++ extra))
      (hextra : ∀ cell ∈ extra, ∃ name, cellText? cell = some name ∧ name ∉ used)
      (hrows : List.Forall₂ (RowRelaid order h.cells.length extra.length) rows rows') :
      Relaid used (h :: rows) (h' :: rows')

section Relaid

variable {columns : List (Column ρ)} {blank : ρ} {header names : List String} {order : List Nat}

/-- The cells that are added are passed over, and the others meet the same columns. -/
theorem foldl_takeCell_arrange (hmovable : Movable columns)
    (horder : order.Perm (List.range (header.length + names.length)))
    (hnames : ∀ name ∈ names, name ∉ columns.map (·.name)) {texts after : List String}
    (htexts : texts.length = header.length) (hafter : after.length = names.length)
    (state : Option (ρ × Finset String)) :
    ((arrange order (header ++ names)).zip (arrange order (texts ++ after))).foldl
        (takeCell columns) state =
      (header.zip texts).foldl (takeCell columns) state := by
  have hperm : (arrange order ((header ++ names).zip (texts ++ after))).Perm
      (header.zip texts ++ names.zip after) := by
    rw [← List.zip_append htexts.symm]
    exact arrange_perm (by simpa [htexts, hafter] using horder)
  rw [← arrange_zip (by simp [htexts, hafter]), foldl_takeCell_perm hmovable hperm,
    List.foldl_append, foldl_takeCell_unknown]
  exact fun e he => hnames e.1 (List.of_mem_zip he).1

theorem readRow_relaid (hmovable : Movable columns) {r r' : Record} {row : ρ}
    (horder : order.Perm (List.range (header.length + names.length)))
    (hnames : ∀ name ∈ names, name ∉ columns.map (·.name))
    (hr : RowRelaid order header.length names.length r r') :
    readRow columns blank header r = .ok row ↔
      readRow columns blank (arrange order (header ++ names)) r' = .ok row := by
  obtain ⟨hwidth, more, hmore, htext, hcells⟩ := hr
  have hlength : r'.cells.length = (arrange order (header ++ names)).length := by
    rw [hcells, (arrange_perm (by simpa [hwidth, hmore] using horder)).length_eq,
      (arrange_perm (by simpa using horder)).length_eq]
    simp [hwidth, hmore]
  obtain ⟨after, hafter⟩ := exists_texts_iff.mpr htext
  have hfold {texts : List String} (htexts : r.cells.map bodyText? = texts.map some) :=
    foldl_takeCell_arrange hmovable horder hnames ((length_of_texts htexts).symm.trans hwidth)
      ((length_of_texts hafter).symm.trans hmore) (some (blank, ∅))
  rw [readRow_eq_ok_iff hmovable, readRow_eq_ok_iff hmovable, and_iff_right hwidth,
    and_iff_right hlength, hcells]
  have hcellsOrder : order.Perm (List.range (r.cells.length + more.length)) := by
    rwa [hwidth, hmore]
  simp only [map_arrange_append_eq_iff hcellsOrder hafter]
  constructor
  · rintro ⟨texts, htexts, hrow⟩
    exact ⟨_, ⟨texts, htexts, rfl⟩, by rwa [hfold htexts]⟩
  · rintro ⟨_, ⟨texts, htexts, rfl⟩, hrow⟩
    exact ⟨texts, htexts, by rwa [hfold htexts] at hrow⟩

theorem readHeader_eq_ok_iff {h : Record} {rows rest : List Record} :
    readHeader (h :: rows) = .ok (header, rest) ↔
      h.cells.map cellText? = header.map some ∧ rest = rows := by
  rw [readHeader, ← cellTexts_eq_ok_iff (k := 0)]
  cases cellTexts 0 h.cells with
  | error place => simp
  | ok texts => simp [eq_comm]

theorem exists_names {used : List String} {extra : List (List UInt8)}
    (hextra : ∀ cell ∈ extra, ∃ name, cellText? cell = some name ∧ name ∉ used) :
    ∃ names : List String, extra.map cellText? = names.map some ∧ ∀ name ∈ names, name ∉ used := by
  induction extra with
  | nil => exact ⟨[], rfl, by simp⟩
  | cons cell rest ih =>
    rw [List.forall_mem_cons] at hextra
    obtain ⟨name, htext, hname⟩ := hextra.1
    obtain ⟨names, htexts, hnames⟩ := ih hextra.2
    exact ⟨name :: names, by rw [List.map_cons, List.map_cons, htext, htexts],
      List.forall_mem_cons.mpr ⟨hname, hnames⟩⟩

/-- What a table reads as depends neither on the order of its columns nor on columns with other
names. -/
theorem readTable_relaid (hmovable : Movable columns) {required : List String}
    (hrequired : ∀ name ∈ required, name ∈ columns.map (·.name)) {bytes bytes' : List UInt8}
    (hrelaid : Relaid (columns.map (·.name)) (records bytes) (records bytes')) {rows : List ρ} :
    readTable columns blank required bytes = .ok rows ↔
      readTable columns blank required bytes' = .ok rows := by
  rw [readTable_eq_ok_iff, readTable_eq_ok_iff]
  generalize records bytes = rs, records bytes' = rs' at hrelaid
  obtain @⟨h, h', body, body', order, extra, horder, hheader, hextra, hbody⟩ := hrelaid
  obtain ⟨names, hnames, hunused⟩ := exists_names hextra
  have hextraLength := length_of_texts hnames
  -- The names that are asked for are in one header just when they are in the other.
  have hfound {header : List String} (hlength : h.cells.length = header.length) :
      (∀ name ∈ required, name ∈ header) ↔
        ∀ name ∈ required, name ∈ arrange order (header ++ names) := by
    refine forall₂_congr fun name hname => ?_
    rw [(arrange_perm (by simpa [← hlength, ← hextraLength] using horder)).mem_iff,
      List.mem_append, or_iff_left fun hin => hunused name hin (hrequired name hname)]
  have hread {header : List String} (hlength : h.cells.length = header.length) :
      List.Forall₂ (fun r row => readRow columns blank header r = .ok row) body rows ↔
        List.Forall₂
          (fun r row => readRow columns blank (arrange order (header ++ names)) r = .ok row)
          body' rows := by
    rw [hlength, hextraLength] at horder hbody
    exact forall₂_iff_of_related hbody fun _ _ _ hr => readRow_relaid hmovable horder hunused hr
  simp only [readHeader_eq_ok_iff, readRows_eq_ok_iff, hheader,
    map_arrange_append_eq_iff (l := h.cells) horder hnames]
  constructor
  · rintro ⟨header, _, ⟨htexts, rfl⟩, hall, hrows⟩
    have hlength := length_of_texts htexts
    exact ⟨_, _, ⟨⟨header, htexts, rfl⟩, rfl⟩, (hfound hlength).mp hall, (hread hlength).mp hrows⟩
  · rintro ⟨_, _, ⟨⟨header, htexts, rfl⟩, rfl⟩, hall, hrows⟩
    have hlength := length_of_texts htexts
    exact ⟨header, _, ⟨htexts, rfl⟩, (hfound hlength).mpr hall, (hread hlength).mpr hrows⟩

end Relaid

/-- The rows of a table in order, one for each record under the header. -/
def RowsOf (columns : List (Column ρ)) (blank : ρ) (bytes : List UInt8) (rows : List ρ) : Prop :=
  ∃ header rest, readHeader (records bytes) = .ok (header, rest) ∧
    List.Forall₂ (fun r row => readRow columns blank header r = .ok row) rest rows

theorem rowsOf_of_readTable {columns : List (Column ρ)} {blank : ρ} {required : List String}
    {bytes : List UInt8} {rows : List ρ} (h : readTable columns blank required bytes = .ok rows) :
    RowsOf columns blank bytes rows := by
  obtain ⟨header, rest, hheader, -, hrows⟩ := readTable_eq_ok_iff.mp h
  exact ⟨header, rest, hheader, readRows_eq_ok_iff.mp hrows⟩

/-- The reader gives those rows of a table that are to be kept, whatever the order of the columns
and whatever columns there are besides those it knows. -/
structure Readable (columns : List (Column ρ)) (blank : ρ) (keep : ρ → Bool)
    (read : List UInt8 → Except Fault (List ρ)) : Prop where
  relaid : ∀ {bytes bytes'}, Relaid (columns.map (·.name)) (records bytes) (records bytes') →
    ∀ rows, read bytes = .ok rows ↔ read bytes' = .ok rows
  rows : ∀ {bytes rows}, read bytes = .ok rows →
    ∃ all, RowsOf columns blank bytes all ∧ rows = all.filter keep

theorem readable_readTable {columns : List (Column ρ)} {required : List String}
    (hmovable : Movable columns) (hrequired : ∀ name ∈ required, name ∈ columns.map (·.name))
    (blank : ρ) : Readable columns blank (fun _ => true) (readTable columns blank required) where
  relaid hrelaid _ := readTable_relaid hmovable hrequired hrelaid
  rows h := ⟨_, rowsOf_of_readTable h, by simp⟩

theorem Readable.filter {columns : List (Column ρ)} {blank : ρ}
    {read : List UInt8 → Except Fault (List ρ)}
    (h : Readable columns blank (fun _ => true) read) (keep : ρ → Bool) :
    Readable columns blank keep fun bytes => (read bytes).map (·.filter keep) where
  relaid hrelaid rows := by
    simp only [map_eq_ok_iff, h.relaid hrelaid]
  rows hrows := by
    obtain ⟨_, hread, rfl⟩ := map_eq_ok_iff.mp hrows
    obtain ⟨all, hall, rfl⟩ := h.rows hread
    exact ⟨all, hall, by simp⟩

end TracePlot.Table
