import Mathlib.Data.List.Induction
import TracePlot.Proofs.Table.Reading
import TracePlot.Failure
import TracePlot.Records.Energy

/-! The line named in a message about a row. Rows are counted, and the header with them, so that the
number is right as long as every line in front of the row is a record of its own. Empty lines and
line ends inside of cells are not counted, and each of them leaves the number one behind. -/

namespace TracePlot.Table

/-- The lines that end within some bytes. A carriage return and a line feed behind it end one. -/
def lineEnds : List UInt8 → Nat
  | [] => 0
  | 0x0D :: 0x0A :: rest => lineEnds rest + 1
  | b :: rest => if isRecordEnd b then lineEnds rest + 1 else lineEnds rest

/-- The number of the line on which the byte behind `front` stands. -/
def lineNumber (front : List UInt8) : Nat :=
  lineEnds front + 1

/-- Whether the byte behind `front` is the first of a line end. -/
def EndsLine (front : List UInt8) (b : UInt8) : Prop :=
  b = carriageReturn ∨ b = newline ∧ front.getLast? ≠ some carriageReturn

instance (front : List UInt8) (b : UInt8) : Decidable (EndsLine front b) := by
  unfold EndsLine
  infer_instance

/-- The records that end within some bytes, and the cursor behind these. -/
def Cursor.run (c : Cursor) : List UInt8 → List Record × Cursor
  | [] => ([], c)
  | b :: rest =>
    let (ended, c) := c.step b
    let (more, c) := c.run rest
    (ended.toList ++ more, c)

/-- The byte order mark of a file, if it has one. -/
def mark : List UInt8 → List UInt8
  | 0xEF :: 0xBB :: 0xBF :: _ => [0xEF, 0xBB, 0xBF]
  | _ => []

/-- The cursor behind the byte order mark. -/
def opening (bytes : List UInt8) : Cursor :=
  { here := { byte := (mark bytes).length } }

/-- A record of a file, counted from zero, begins behind the byte order mark and `front`: as many
records have ended there, and the next byte is not part of an empty line. -/
structure BeginsBehind (bytes : List UInt8) (i : Nat) (front : List UInt8) : Prop where
  split : ∃ b rest, bytes = mark bytes ++ front ++ b :: rest ∧ isRecordEnd b = false
  mode : ((opening bytes).run front).2.mode = .between
  count : ((opening bytes).run front).1.length = i

/-- Every line that ends within the bytes is the last of a record: none is empty, and no cell holds
a line end. -/
def EachLineEndsRecord (c : Cursor) (bytes : List UInt8) : Prop :=
  ∀ front b rest, bytes = front ++ b :: rest → EndsLine front b →
    (c.run front).2.mode ≠ .between ∧ (c.run front).2.mode ≠ .quoted

section LineEnds

variable {bytes front : List UInt8} {b : UInt8}

theorem lineEnds_cons {a : UInt8} {rest : List UInt8}
    (h : a = carriageReturn → rest.head? ≠ some newline) :
    lineEnds (a :: rest) = lineEnds rest + if isRecordEnd a then 1 else 0 := by
  rw [lineEnds]
  · split <;> rfl
  · rintro rest' rfl rfl
    exact h rfl rfl

theorem endsLine_cons {a : UInt8} (h : a = carriageReturn → front ≠ []) :
    EndsLine (a :: front) b ↔ EndsLine front b := by
  cases front with
  | nil =>
    have ha : a ≠ carriageReturn := fun ha => h ha rfl
    simp [EndsLine, ha]
  | cons a' front => simp [EndsLine]

theorem endsLine_iff_isRecordEnd (h : front.getLast? ≠ some carriageReturn) :
    EndsLine front b ↔ isRecordEnd b = true := by
  simp [EndsLine, isRecordEnd, h, or_comm]

theorem lineEnds_singleton (b : UInt8) : lineEnds [b] = if isRecordEnd b then 1 else 0 := by
  rw [lineEnds_cons (by simp), lineEnds, Nat.zero_add]

theorem lineEnds_pair (a b : UInt8) :
    lineEnds [a, b] = lineEnds [a] + if EndsLine [a] b then 1 else 0 := by
  by_cases hcrlf : a = carriageReturn ∧ b = newline
  · rw [hcrlf.1, hcrlf.2]
    decide
  · have hne : a = carriageReturn → b ≠ newline := fun ha hb => hcrlf ⟨ha, hb⟩
    have hends : EndsLine [a] b ↔ isRecordEnd b = true := by
      by_cases ha : a = carriageReturn
      · simp [EndsLine, isRecordEnd, hne ha]
      · exact endsLine_iff_isRecordEnd (by simpa using ha)
    rw [lineEnds_cons (by simpa using hne), lineEnds_singleton, lineEnds_singleton]
    simp only [hends]
    omega

theorem lineEnds_append_singleton (front : List UInt8) (b : UInt8) :
    lineEnds (front ++ [b]) = lineEnds front + if EndsLine front b then 1 else 0 := by
  induction front using List.twoStepInduction with
  | nil =>
    have hends : EndsLine [] b ↔ isRecordEnd b = true := endsLine_iff_isRecordEnd (by simp)
    simp only [hends]
    rw [List.nil_append, lineEnds_singleton, lineEnds, Nat.zero_add]
  | singleton a => exact lineEnds_pair a b
  | cons_cons a a' front ih ih' =>
    -- A pair that ends one line is counted as a whole, and any other first byte on its own.
    by_cases hcrlf : a = carriageReturn ∧ a' = newline
    · obtain ⟨rfl, rfl⟩ := hcrlf
      have hfeed : newline ≠ carriageReturn := by decide
      have hends : EndsLine (carriageReturn :: newline :: front) b ↔ EndsLine front b := by
        rw [endsLine_cons (by simp), endsLine_cons fun h => absurd h hfeed]
      show lineEnds (front ++ [b]) + 1 = lineEnds front + 1 + _
      rw [ih]
      simp only [hends]
      omega
    · have hne : a = carriageReturn → a' ≠ newline := fun ha ha' => hcrlf ⟨ha, ha'⟩
      have hends : EndsLine (a :: a' :: front) b ↔ EndsLine (a' :: front) b :=
        endsLine_cons (by simp)
      rw [List.cons_append, lineEnds_cons (by simpa using hne), lineEnds_cons (by simpa using hne),
        ih']
      simp only [hends]
      omega

theorem lineEnds_mark_append (bytes front : List UInt8) :
    lineEnds (mark bytes ++ front) = lineEnds front := by
  unfold mark
  split
  · rfl
  · rfl

end LineEnds

section Step

variable {c : Cursor} {b : UInt8}

theorem isRecordEnd_iff : isRecordEnd b = true ↔ b = newline ∨ b = carriageReturn := by
  simp [isRecordEnd]

/-- A line end is passed over between records, is part of a quoted cell, and else ends a record. -/
theorem step_of_isRecordEnd (hb : isRecordEnd b = true) :
    c.step b =
      match c.mode with
      | .between => (none, c.pass b)
      | .quoted => (none, (c.pass b).add .quoted b)
      | _ => (some (c.pass b).record, (c.pass b).next) := by
  have hcomma : b ≠ comma := by
    rintro rfl
    exact absurd hb (by decide)
  have hquote : b ≠ quote := by
    rintro rfl
    exact absurd hb (by decide)
  have hpass : (c.pass b).mode = c.mode := rfl
  unfold Cursor.step
  dsimp only
  rw [hpass]
  cases c.mode <;> simp [hb, hcomma, hquote]

theorem step_of_not_isRecordEnd (hb : isRecordEnd b = false) :
    (c.step b).1 = none ∧ (c.step b).2.mode ≠ .between := by
  have hpass : (c.pass b).mode = c.mode := rfl
  unfold Cursor.step
  dsimp only
  rw [hpass]
  cases c.mode <;> grind [Cursor.add, Cursor.endCell]

end Step

section Run

variable {c : Cursor} {xs ys : List UInt8} {b : UInt8} {i : Nat}

theorem run_cons (c : Cursor) (b : UInt8) (xs : List UInt8) :
    c.run (b :: xs) =
      ((c.step b).1.toList ++ ((c.step b).2.run xs).1, ((c.step b).2.run xs).2) :=
  rfl

theorem run_append (c : Cursor) (xs ys : List UInt8) :
    c.run (xs ++ ys) =
      ((c.run xs).1 ++ ((c.run xs).2.run ys).1, ((c.run xs).2.run ys).2) := by
  induction xs generalizing c with
  | nil => rfl
  | cons b xs ih => rw [List.cons_append, run_cons, run_cons, ih, List.append_assoc]

theorem run_append_singleton (c : Cursor) (xs : List UInt8) (b : UInt8) :
    c.run (xs ++ [b]) =
      ((c.run xs).1 ++ ((c.run xs).2.step b).1.toList, ((c.run xs).2.step b).2) := by
  rw [run_append, run_cons]
  simp [Cursor.run]

theorem recordsFrom_cons (c : Cursor) (b : UInt8) (xs : List UInt8) :
    recordsFrom c (b :: xs) = (c.step b).1.toList ++ recordsFrom (c.step b).2 xs := by
  rw [recordsFrom]
  rcases c.step b with ⟨_ | r, c'⟩ <;> rfl

theorem records_eq (bytes : List UInt8) :
    records bytes = recordsFrom (opening bytes) (bytes.drop (mark bytes).length) := by
  unfold records
  split
  · rfl
  · next hmark =>
    have hnone : mark bytes = [] := by
      unfold mark
      split
      · next rest => exact absurd rfl (hmark rest)
      · rfl
    rw [opening, hnone]
    rfl

theorem mode_run_of_getLast? (h : xs.getLast? = some carriageReturn) :
    (c.run xs).2.mode = .between ∨ (c.run xs).2.mode = .quoted := by
  obtain ⟨before, rfl⟩ := List.getLast?_eq_some_iff.mp h
  rw [run_append_singleton, step_of_isRecordEnd (by decide)]
  split
  · next hmode => exact .inl hmode
  · exact .inr rfl
  · exact .inl rfl

theorem eachLineEndsRecord_append_singleton :
    EachLineEndsRecord c (xs ++ [b]) ↔
      EachLineEndsRecord c xs ∧
        (EndsLine xs b → (c.run xs).2.mode ≠ .between ∧ (c.run xs).2.mode ≠ .quoted) := by
  constructor
  · intro h
    refine ⟨fun front a rest hsplit => h front a (rest ++ [b]) (by simp [hsplit]), h xs b [] rfl⟩
  · rintro ⟨hxs, hb⟩ front a rest hsplit
    rcases List.eq_nil_or_concat rest with rfl | ⟨rest, a', rfl⟩
    · obtain ⟨rfl, hab⟩ := List.append_inj' hsplit rfl
      cases hab
      exact hb
    · have hlast : xs ++ [b] = (front ++ a :: rest) ++ [a'] := by simp [hsplit]
      obtain ⟨rfl, -⟩ := List.append_inj' hlast rfl
      exact hxs front a rest rfl

/-- No more records end than lines, and as many only when each line ends one. -/
theorem length_run_le (c : Cursor) (xs : List UInt8) :
    (c.run xs).1.length ≤ lineEnds xs ∧
      ((c.run xs).1.length = lineEnds xs ↔ EachLineEndsRecord c xs) := by
  induction xs using List.reverseRecOn with
  | nil =>
    refine ⟨Nat.le_refl _, iff_of_true rfl ?_⟩
    intro front b rest hsplit
    simp at hsplit
  | append_singleton xs b ih =>
    obtain ⟨hle, hiff⟩ := ih
    rw [run_append_singleton, lineEnds_append_singleton, eachLineEndsRecord_append_singleton,
      ← hiff, List.length_append]
    cases hb : isRecordEnd b with
    | false =>
      have hends : ¬ EndsLine xs b := by
        rintro (rfl | ⟨rfl, -⟩) <;> exact absurd hb (by decide)
      simp [(step_of_not_isRecordEnd hb).1, hends, hle]
    | true =>
      have hends : (c.run xs).2.mode ≠ .between ∧ (c.run xs).2.mode ≠ .quoted → EndsLine xs b := by
        intro hmode
        rcases isRecordEnd_iff.mp hb with rfl | rfl
        · refine .inr ⟨rfl, fun hlast => ?_⟩
          rcases mode_run_of_getLast? hlast with hbetween | hquoted
          · exact hmode.1 hbetween
          · exact hmode.2 hquoted
        · exact .inl rfl
      by_cases hmode : (c.run xs).2.mode ≠ .between ∧ (c.run xs).2.mode ≠ .quoted
      · have hended : ((c.run xs).2.step b).1.toList.length = 1 := by
          rw [step_of_isRecordEnd hb]
          split <;> simp_all
        rw [hended, if_pos (hends hmode)]
        constructor
        · omega
        · simp [hmode]
      · have hended : ((c.run xs).2.step b).1.toList.length = 0 := by
          rw [step_of_isRecordEnd hb]
          split <;> simp_all
        rw [hended, Nat.add_zero]
        by_cases hline : EndsLine xs b
        · rw [if_pos hline]
          exact ⟨by omega, iff_of_false (by omega) fun h => hmode (h.2 hline)⟩
        · rw [if_neg hline]
          exact ⟨hle, by simp [hline]⟩

/-- Behind a byte that begins a record, the reader is between records again only when a record has
ended. -/
theorem run_ne_nil (hc : c.mode ≠ .between) (hmode : (c.run xs).2.mode = .between) :
    (c.run xs).1 ≠ [] := by
  induction xs generalizing c with
  | nil => exact absurd hmode hc
  | cons b xs ih =>
    rw [run_cons] at hmode ⊢
    cases hb : isRecordEnd b with
    | false =>
      obtain ⟨hnone, hnext⟩ := step_of_not_isRecordEnd (c := c) hb
      simpa [hnone] using ih hnext hmode
    | true =>
      rw [step_of_isRecordEnd hb] at hmode ⊢
      cases hquoted : c.mode with
      | between => exact absurd hquoted hc
      | quoted =>
        simp only [hquoted] at hmode ⊢
        exact ih (by simp [Cursor.add]) hmode
      | _ => simp

/-- A byte that does not begin the record asked for is either inside of an earlier record, or the
end of one, or an empty line. -/
theorem step_before_record (hi : i = 0 → c.mode = .between)
    (hb : i = 0 → isRecordEnd b = true) :
    (c.step b).1.toList.length ≤ i ∧
      (i = (c.step b).1.toList.length → (c.step b).2.mode = .between) := by
  cases hend : isRecordEnd b with
  | false =>
    have hpos : i ≠ 0 := fun h => by simp [hb h] at hend
    simp [(step_of_not_isRecordEnd (c := c) hend).1, hpos]
  | true =>
    rw [step_of_isRecordEnd hend]
    cases hmode : c.mode with
    | between => exact ⟨Nat.zero_le _, fun _ => hmode⟩
    | quoted =>
      have hpos : i ≠ 0 := fun h => by simp [hi h] at hmode
      simp [hpos]
    | _ =>
      have hpos : i ≠ 0 := fun h => by simp [hi h] at hmode
      exact ⟨Nat.pos_of_ne_zero hpos, fun _ => rfl⟩

theorem exists_front (hi : i = 0 → c.mode = .between) (hlength : i < (recordsFrom c xs).length) :
    ∃ front b rest, xs = front ++ b :: rest ∧ isRecordEnd b = false ∧
      (c.run front).2.mode = .between ∧ (c.run front).1.length = i := by
  induction xs generalizing c i with
  | nil =>
    rw [recordsFrom] at hlength
    split at hlength
    · simp at hlength
    · next hmode => exact absurd (hi (by simpa using hlength)) hmode
  | cons b xs ih =>
    by_cases hfirst : i = 0 ∧ isRecordEnd b = false
    · exact ⟨[], b, xs, rfl, hfirst.2, hi hfirst.1, hfirst.1.symm⟩
    · obtain ⟨hle, hnext⟩ := step_before_record (b := b) hi fun h => by
        simpa [h] using hfirst
      rw [recordsFrom_cons, List.length_append] at hlength
      obtain ⟨front, a, rest, rfl, ha, hmode, hcount⟩ :=
        ih (c := (c.step b).2) (i := i - (c.step b).1.toList.length)
          (fun h => hnext (by omega)) (by omega)
      refine ⟨b :: front, a, rest, rfl, ha, hmode, ?_⟩
      rw [run_cons, List.length_append, hcount]
      omega

end Run

section File

variable {bytes front front' : List UInt8} {i : Nat}

theorem mark_append_drop (bytes : List UInt8) :
    mark bytes ++ bytes.drop (mark bytes).length = bytes := by
  unfold mark
  split <;> rfl

theorem exists_beginsBehind (h : i < (records bytes).length) :
    ∃ front, BeginsBehind bytes i front := by
  rw [records_eq] at h
  obtain ⟨front, b, rest, hsplit, hb, hmode, hcount⟩ := exists_front (fun _ => rfl) h
  refine ⟨front, ⟨b, rest, ?_, hb⟩, hmode, hcount⟩
  rw [List.append_assoc, ← hsplit, mark_append_drop]

theorem BeginsBehind.eq_nil_of_append {more : List UInt8} (h : BeginsBehind bytes i front)
    (h' : BeginsBehind bytes i (front ++ more)) : more = [] := by
  obtain ⟨b, rest, hsplit, hb⟩ := h.split
  obtain ⟨b', rest', hsplit', -⟩ := h'.split
  cases more with
  | nil => rfl
  | cons a more =>
    obtain ⟨rfl, -⟩ : b = a ∧ rest = more ++ b' :: rest' := by
      simpa using hsplit.symm.trans hsplit'
    have hmode := h'.mode
    have hcount := h'.count
    rw [run_append] at hmode hcount
    rw [List.length_append, h.count, run_cons, List.length_append] at hcount
    have hended := run_ne_nil (step_of_not_isRecordEnd hb).2 hmode
    have hpos := List.length_pos_of_ne_nil hended
    omega

/-- A record begins at one place. -/
theorem BeginsBehind.unique (h : BeginsBehind bytes i front) (h' : BeginsBehind bytes i front') :
    front' = front := by
  obtain ⟨b, rest, hsplit, -⟩ := h.split
  obtain ⟨b', rest', hsplit', -⟩ := h'.split
  have hsame := hsplit.symm.trans hsplit'
  rw [List.append_assoc, List.append_assoc] at hsame
  rcases List.append_eq_append_iff.mp (List.append_cancel_left hsame) with
    ⟨more, rfl, -⟩ | ⟨more, rfl, -⟩
  · rw [h.eq_nil_of_append h', List.append_nil]
  · rw [h'.eq_nil_of_append h, List.append_nil]

theorem BeginsBehind.le_lineNumber (h : BeginsBehind bytes i front) :
    i + 1 ≤ lineNumber (mark bytes ++ front) ∧
      (i + 1 = lineNumber (mark bytes ++ front) ↔ EachLineEndsRecord (opening bytes) front) := by
  obtain ⟨hle, hiff⟩ := length_run_le (opening bytes) front
  rw [h.count] at hle hiff
  rw [lineNumber, lineEnds_mark_append, ← hiff]
  omega

end File

section Message

variable {ρ : Type} {files : Files} {path : String} {bytes : List UInt8} {columns : List (Column ρ)}
  {blank : ρ} {required header : List String} {rows : List Record}

theorem message_row (path : String) (index : Nat) (place : Place) (fault : RowFault) :
    (Failure.fileFormat path (.table (.row index place fault))).message =
      path ++ ": line " ++ toString (index + 2) ++ ": " ++ fault.message place := by
  apply String.toList_injective
  simp [Failure.message, Failure.chain, FileReason.message, Fault.message]

theorem load_eq_error (hread : files.read path = .ok bytes)
    {fault : Fault} (hfault : readTable columns blank required bytes = .error fault) :
    files.load (readTable columns blank required) path =
      .error (.fileFormat path (.table fault)) := by
  simp [Files.load, hread, hfault]

theorem exists_first_bad_row
    (hbad : ∃ r ∈ rows, ∃ fault, readRow columns blank header r = .error fault) :
    ∃ before r after fault, rows = before ++ r :: after ∧
      (∀ r' ∈ before, ∃ row, readRow columns blank header r' = .ok row) ∧
      readRow columns blank header r = .error fault := by
  obtain ⟨r, before, after, hrows, ⟨fault, hfault⟩, hbefore⟩ := exists_isFirst_iff.mpr hbad
  refine ⟨before, r, after, fault, hrows, fun r' hr' => ?_, hfault⟩
  cases hread : readRow columns blank header r' with
  | ok row => exact ⟨row, rfl⟩
  | error fault' => exact absurd ⟨fault', hread⟩ (hbefore r' hr')

/-- The first row that does not read is reported with the number of records up to it, the header
among them. The number is at most that of the line on which the row begins, and it is the number of
this line exactly when each line in front of the row ends a record. -/
theorem bad_row_has_number_of_record (hread : files.read path = .ok bytes)
    (hheader : readHeader (records bytes) = .ok (header, rows))
    (hcolumns : ∀ name ∈ required, name ∈ header)
    (hbad : ∃ r ∈ rows, ∃ fault, readRow columns blank header r = .error fault) :
    ∃ before r after fault front,
      (rows = before ++ r :: after ∧
        (∀ r' ∈ before, ∃ row, readRow columns blank header r' = .ok row) ∧
        readRow columns blank header r = .error fault) ∧
      (∀ front', BeginsBehind bytes (before.length + 1) front' ↔ front' = front) ∧
      (∃ failure, files.load (readTable columns blank required) path = .error failure ∧
        failure = .fileFormat path (.table (.row before.length r.place fault)) ∧
        failure.message =
          path ++ ": line " ++ toString (before.length + 2) ++ ": " ++ fault.message r.place) ∧
      before.length + 2 ≤ lineNumber (mark bytes ++ front) ∧
      (before.length + 2 = lineNumber (mark bytes ++ front) ↔
        EachLineEndsRecord (opening bytes) front) := by
  obtain ⟨before, r, after, fault, rfl, hbefore, hrow⟩ := exists_first_bad_row hbad
  have hlength : before.length + 1 < (records bytes).length := by
    cases hrecords : records bytes with
    | nil => simp [hrecords, readHeader] at hheader
    | cons h rest =>
      rw [hrecords, readHeader] at hheader
      split at hheader
      · cases hheader
      · cases hheader
        simp
  obtain ⟨front, hfront⟩ := exists_beginsBehind hlength
  have hrefused := readTable_eq_error_iff.mpr (.row hheader hcolumns hbefore hrow)
  have hline := hfront.le_lineNumber
  refine ⟨before, r, after, fault, front, ⟨rfl, hbefore, hrow⟩, fun front' => ?_,
    ⟨_, load_eq_error hread hrefused, rfl, message_row _ _ _ _⟩, hline⟩
  constructor
  · exact fun h => hfront.unique h
  · rintro rfl
    exact hfront

end Message

/-- A file that is the same under every path. -/
def sameFile (text : String) : Files where
  read _ := .ok text.toUTF8.data.toList

/-- Readings on lines with a carriage return and a line feed. -/
def returnedReadings : String :=
  "time,energy\r\n0,1\r\nx,2\r\n"

def returnedRows : List Record :=
  [⟨⟨1, 1, 12⟩, [[0x30], [0x31]]⟩, ⟨⟨2, 2, 17⟩, [[0x78], [0x32]]⟩]

theorem returnedReadings_rows :
    readHeader (records returnedReadings.toUTF8.data.toList) =
      .ok (Energy.required, returnedRows) := by
  decide +kernel

theorem returnedRows_bad : ∃ r ∈ returnedRows, ∃ fault,
    readRow Energy.columns {} Energy.required r = .error fault := by
  have hrow : readRow Energy.columns {} Energy.required ⟨⟨2, 2, 17⟩, [[0x78], [0x32]]⟩ =
      .error (.number 0 .invalidFloat) :=
    (map_eq_error_iff (f := fun _ => ())).mp (by decide +kernel)
  exact ⟨_, by simp [returnedRows], _, hrow⟩

theorem readTable_returnedReadings :
    readTable Energy.columns {} Energy.required returnedReadings.toUTF8.data.toList =
      .error (.row 1 ⟨2, 2, 17⟩ (.number 0 .invalidFloat)) :=
  (map_eq_error_iff (f := fun _ => ())).mp (by decide +kernel)

theorem returnedReadings_reported_on_third_line :
    let bytes := returnedReadings.toUTF8.data.toList
    let front := "time,energy\r\n0,1\r\n".toUTF8.data.toList
    (readHeader (records bytes) = .ok (Energy.required, returnedRows) ∧
      ∃ r ∈ returnedRows, ∃ fault, readRow Energy.columns {} Energy.required r = .error fault) ∧
    BeginsBehind bytes 2 front ∧ EachLineEndsRecord (opening bytes) front ∧
    ∃ failure, (sameFile returnedReadings).load (readTable Energy.columns {} Energy.required)
        "input.csv" = .error failure ∧
      failure.message = "input.csv: line 3: CSV deserialize error: record 2 (line: 2, byte: 17): " ++
        "field 0: invalid float literal" := by
  intro bytes front
  have hread : (sameFile returnedReadings).read "input.csv" = .ok bytes := rfl
  have hbegins : BeginsBehind bytes 2 front :=
    ⟨⟨0x78, ",2\r\n".toUTF8.data.toList, by decide +kernel, by decide⟩, by decide +kernel,
      by decide +kernel⟩
  obtain ⟨before, r, after, fault, front', -, hfront, ⟨failure, hload, rfl, hmessage⟩, -, hline⟩ :=
    bad_row_has_number_of_record hread returnedReadings_rows (fun _ h => h) returnedRows_bad
  -- The row of the message is the one that the table is refused for.
  have hload' := load_eq_error hread readTable_returnedReadings
  rw [hload] at hload'
  simp only [Except.error.injEq, Failure.fileFormat.injEq, FileReason.table.injEq, Fault.row.injEq,
    true_and] at hload'
  obtain ⟨hone, hplace, hnumber⟩ := hload'
  rw [hone] at hfront hload hline hmessage
  obtain rfl := (hfront front).mp hbegins
  rw [hplace, hnumber] at hload hmessage
  exact ⟨⟨returnedReadings_rows, returnedRows_bad⟩, hbegins, hline.mp (by decide +kernel), _, hload,
    hmessage.trans (by decide +kernel)⟩

/-- Readings of which the first has a note on two lines. -/
def notedReadings : String :=
  "time,energy,note\n0,1,\"a\nb\"\nx,2,c\n"

theorem notedReadings_on_fourth_line_reported_on_third :
    let bytes := notedReadings.toUTF8.data.toList
    let front := "time,energy,note\n0,1,\"a\nb\"\n".toUTF8.data.toList
    BeginsBehind bytes 2 front ∧ lineNumber (mark bytes ++ front) = 4 ∧
    ∃ failure, (sameFile notedReadings).load (readTable Energy.columns {} Energy.required)
        "input.csv" = .error failure ∧
      failure.message = "input.csv: line 3: CSV deserialize error: record 2 (line: 4, byte: 27): " ++
        "field 0: invalid float literal" := by
  intro bytes front
  have hread : (sameFile notedReadings).read "input.csv" = .ok bytes := rfl
  have hfault : readTable Energy.columns {} Energy.required bytes =
      .error (.row 1 ⟨2, 4, 27⟩ (.number 0 .invalidFloat)) :=
    (map_eq_error_iff (f := fun _ => ())).mp (by decide +kernel)
  have hbegins : BeginsBehind bytes 2 front :=
    ⟨⟨0x78, ",2,c\n".toUTF8.data.toList, by decide +kernel, by decide⟩, by decide +kernel,
      by decide +kernel⟩
  refine ⟨hbegins, by decide +kernel, _, load_eq_error hread hfault, ?_⟩
  rw [message_row]
  decide +kernel

end TracePlot.Table
