import TracePlot.Proofs.Success
import TracePlot.Table.Rows

/-! When a table reads, and what it is refused for. A table that reads with some columns required
gives the same rows with others. The header is looked at before the columns and these before the
rows, and of several columns or rows the first at fault is reported. -/

namespace TracePlot.Table

variable {ρ : Type}

section Rows

variable {columns : List (Column ρ)} {blank : ρ} {header : List String} {index : Nat}
  {rs : List Record} {fault : Fault}

theorem exists_readRows_iff (index : Nat) :
    (∃ rows, readRows columns blank header index rs = .ok rows) ↔
      ∀ r ∈ rs, ∃ row, readRow columns blank header r = .ok row := by
  induction rs generalizing index with
  | nil => simp [readRows]
  | cons r rs ih =>
    rw [readRows, List.forall_mem_cons, ← ih (index + 1)]
    cases readRow columns blank header r with
    | error rowFault => simp
    | ok row => simp

/-- Faults are those of the first row that does not read. -/
theorem readRows_eq_error_iff :
    readRows columns blank header index rs = .error fault ↔
      ∃ before r after rowFault, rs = before ++ r :: after ∧
        (∀ r' ∈ before, ∃ row, readRow columns blank header r' = .ok row) ∧
        readRow columns blank header r = .error rowFault ∧
        fault = .row (index + before.length) r.place rowFault := by
  induction rs generalizing index with
  | nil => simp [readRows]
  | cons r rs ih =>
    rw [readRows]
    cases hr : readRow columns blank header r with
    | error rowFault =>
      constructor
      · rintro hfault
        exact ⟨[], r, rs, rowFault, rfl, by simp, hr, (Except.error.inj hfault).symm⟩
      · rintro ⟨before, r', after, rowFault', hrs, hbefore, hr', rfl⟩
        cases before with
        | nil =>
          obtain ⟨rfl, rfl⟩ := List.cons_eq_cons.mp hrs
          rw [hr] at hr'
          cases hr'
          rfl
        | cons r'' before =>
          obtain ⟨rfl, rfl⟩ := List.cons_eq_cons.mp hrs
          obtain ⟨row, hrow⟩ := hbefore _ List.mem_cons_self
          rw [hr] at hrow
          cases hrow
    | ok row =>
      -- The row that reads joins those before the fault, which keeps its number.
      simp only [map_eq_error_iff, ih]
      constructor
      · rintro ⟨before, r', after, rowFault, rfl, hbefore, hr', rfl⟩
        refine ⟨r :: before, r', after, rowFault, rfl,
          List.forall_mem_cons.mpr ⟨⟨row, hr⟩, hbefore⟩, hr', ?_⟩
        rw [List.length_cons, Nat.add_right_comm, Nat.add_assoc]
      · rintro ⟨before, r', after, rowFault, hrs, hbefore, hr', rfl⟩
        cases before with
        | nil =>
          obtain ⟨rfl, rfl⟩ := List.cons_eq_cons.mp hrs
          rw [hr] at hr'
          cases hr'
        | cons r'' before =>
          obtain ⟨rfl, rfl⟩ := List.cons_eq_cons.mp hrs
          refine ⟨before, r', after, rowFault, rfl, (List.forall_mem_cons.mp hbefore).2, hr', ?_⟩
          rw [List.length_cons, Nat.add_right_comm, Nat.add_assoc]

end Rows

/-- The header is text and holds all required columns, and every row reads. -/
def Sound (columns : List (Column ρ)) (blank : ρ) (required : List String)
    (bytes : List UInt8) : Prop :=
  ∃ header rest, readHeader (records bytes) = .ok (header, rest) ∧
    (∀ name ∈ required, name ∈ header) ∧
    ∀ r ∈ rest, ∃ row, readRow columns blank header r = .ok row

/-- What is reported about a table. Each case says that the checks before it pass. -/
inductive Refusal (columns : List (Column ρ)) (blank : ρ) (required : List String)
    (bytes : List UInt8) : Fault → Prop
  | header {h : Record} {rest : List Record} {cell index : Nat}
      (hrecords : records bytes = h :: rest) (htext : cellTexts 0 h.cells = .error (cell, index)) :
      Refusal columns blank required bytes (.headerNotText h.place cell index)
  | column {header : List String} {rest : List Record} {name : String}
      (hheader : readHeader (records bytes) = .ok (header, rest))
      (hfirst : IsFirst (· ∉ header) required name) :
      Refusal columns blank required bytes (.missingColumn name)
  | row {header : List String} {before after : List Record} {r : Record} {fault : RowFault}
      (hheader : readHeader (records bytes) = .ok (header, before ++ r :: after))
      (hcolumns : ∀ name ∈ required, name ∈ header)
      (hbefore : ∀ r' ∈ before, ∃ row, readRow columns blank header r' = .ok row)
      (hrow : readRow columns blank header r = .error fault) :
      Refusal columns blank required bytes (.row before.length r.place fault)

variable {columns : List (Column ρ)} {blank : ρ} {header required required' : List String}
  {bytes : List UInt8} {rows rows' : List ρ} {rest : List Record} {fault : Fault}

theorem readTable_eq_ok_iff :
    readTable columns blank required bytes = .ok rows ↔
      ∃ header rest, readHeader (records bytes) = .ok (header, rest) ∧
        (∀ name ∈ required, name ∈ header) ∧ readRows columns blank header 0 rest = .ok rows := by
  unfold readTable
  simp only [bind_eq_ok_iff, Prod.exists]
  refine exists_congr fun header => exists_congr fun rest => and_congr_right fun _ => ?_
  split
  · next name hname =>
    have hmissing := List.find?_some hname
    simp only [reduceCtorEq, false_iff]
    exact fun h => by simp [h.1 name (List.mem_of_find?_eq_some hname)] at hmissing
  · next hnone =>
    simpa using fun _ => hnone

theorem readTable_of_subset (hsub : required' ⊆ required)
    (h : readTable columns blank required bytes = .ok rows) :
    readTable columns blank required' bytes = .ok rows := by
  obtain ⟨header, rest, hheader, hnames, hrows⟩ := readTable_eq_ok_iff.mp h
  exact readTable_eq_ok_iff.mpr ⟨header, rest, hheader, fun name hn => hnames name (hsub hn), hrows⟩

/-- The required columns do not change what is read. -/
theorem readTable_unique (h : readTable columns blank required bytes = .ok rows)
    (h' : readTable columns blank required' bytes = .ok rows') : rows = rows' := by
  have hnone := readTable_of_subset (List.nil_subset required) h
  have hnone' := readTable_of_subset (List.nil_subset required') h'
  rw [hnone] at hnone'
  cases hnone'
  rfl

theorem exists_readTable_iff :
    (∃ rows, readTable columns blank required bytes = .ok rows) ↔
      Sound columns blank required bytes := by
  simp only [readTable_eq_ok_iff, Sound, ← exists_readRows_iff 0]
  constructor
  · rintro ⟨rows, header, rest, hheader, hcolumns, hrows⟩
    exact ⟨header, rest, hheader, hcolumns, rows, hrows⟩
  · rintro ⟨header, rest, hheader, hcolumns, rows, hrows⟩
    exact ⟨rows, header, rest, hheader, hcolumns, hrows⟩

theorem readHeader_eq_error_iff {rs : List Record} :
    readHeader rs = .error fault ↔
      ∃ h rest cell index, rs = h :: rest ∧ cellTexts 0 h.cells = .error (cell, index) ∧
        fault = .headerNotText h.place cell index := by
  cases rs with
  | nil => simp [readHeader]
  | cons h rest =>
    rw [readHeader]
    cases htext : cellTexts 0 h.cells with
    | error place =>
      obtain ⟨cell, index⟩ := place
      constructor
      · intro hfault
        exact ⟨h, rest, cell, index, rfl, htext, (Except.error.inj hfault).symm⟩
      · rintro ⟨h', rest', cell', index', hrecords, htext', rfl⟩
        cases hrecords
        rw [htext] at htext'
        cases htext'
        rfl
    | ok texts =>
      simp only [reduceCtorEq, false_iff]
      rintro ⟨h', rest', cell', index', hrecords, htext', -⟩
      cases hrecords
      rw [htext] at htext'
      cases htext'

theorem find?_eq_some_iff_isFirst_missing {name : String} :
    (required.find? fun name => !header.contains name) = some name ↔
      IsFirst (· ∉ header) required name := by
  rw [find?_eq_some_iff_isFirst]
  exact isFirst_congr fun name _ => by simp

theorem readTable_eq_error_iff :
    readTable columns blank required bytes = .error fault ↔
      Refusal columns blank required bytes fault := by
  unfold readTable
  rw [bind_eq_error_iff]
  constructor
  · rintro (hheader | ⟨⟨header, rest⟩, hheader, hfault⟩)
    · obtain ⟨h, rest, cell, index, hrecords, htext, rfl⟩ := readHeader_eq_error_iff.mp hheader
      exact .header hrecords htext
    · simp only at hfault
      split at hfault
      · next name hname =>
        cases hfault
        exact .column hheader (find?_eq_some_iff_isFirst_missing.mp hname)
      · next hnone =>
        obtain ⟨before, r, after, rowFault, rfl, hbefore, hr, rfl⟩ :=
          readRows_eq_error_iff.mp hfault
        rw [Nat.zero_add]
        exact .row hheader (by simpa using hnone) hbefore hr
  · intro hrefused
    cases hrefused with
    | header hrecords htext =>
      exact .inl (readHeader_eq_error_iff.mpr ⟨_, _, _, _, hrecords, htext, rfl⟩)
    | column hheader hfirst =>
      refine .inr ⟨_, hheader, ?_⟩
      simp only [find?_eq_some_iff_isFirst_missing.mpr hfirst]
    | row hheader hcolumns hbefore hrow =>
      have hnone : (required.find? fun name => !List.contains _ name) = none :=
        List.find?_eq_none.mpr fun name hn => by simpa using hcolumns name hn
      refine .inr ⟨_, hheader, ?_⟩
      simp only [hnone]
      exact readRows_eq_error_iff.mpr ⟨_, _, _, _, rfl, hbefore, hrow, by rw [Nat.zero_add]⟩

/-- A column is reported just when it is the first of the required ones that the header lacks. -/
theorem readTable_eq_missingColumn_iff {name : String}
    (hheader : readHeader (records bytes) = .ok (header, rest)) :
    readTable columns blank required bytes = .error (.missingColumn name) ↔
      IsFirst (· ∉ header) required name := by
  rw [readTable_eq_error_iff]
  constructor
  · intro hrefused
    cases hrefused with
    | column hheader' hfirst =>
      rw [hheader] at hheader'
      cases hheader'
      exact hfirst
  · exact .column hheader

end TracePlot.Table
