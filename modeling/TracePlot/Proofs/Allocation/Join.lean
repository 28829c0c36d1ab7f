import TracePlot.Allocation.Check
import TracePlot.Command.Run
import TracePlot.Proofs.Json.Fields

/-! Verifying is a join: a row of the jobs is compared with the last entry of the workload that has
its id and extra data. Entries whose extra data cannot be read come before any comparison. -/

namespace TracePlot

namespace Workload

/-- The entry has extra data; null does not count. -/
def Entry.Has (e : Entry) (extra : Json.Value) : Prop :=
  e.extra = some extra ∧ extra ≠ .null

/-- No desired allocation can be read from the extra data that the entry has. -/
def Entry.Fails (e : Entry) (err : Json.Error) : Prop :=
  ∃ extra, e.Has extra ∧ desired extra = .error err

/-- The last entry of the id to have extra data desires the allocation. -/
def Desires (entries : List Entry) (id allocation : String) : Prop :=
  ∃ before e after extra, entries = before ++ e :: after ∧ plainText e.id = id ∧ e.Has extra ∧
    desired extra = .ok allocation ∧
    ∀ e' ∈ after, plainText e'.id = id → ∀ extra', ¬ e'.Has extra'

section Parse

variable {cs : List Char} {entries : List Entry}

theorem entryShape_keeps {f : Json.Field Entry} (hf : f ∈ entryShape.fields) :
    f.Keeps fun e => e.extra ≠ some .null := by
  intro depth cs change rest h e he
  rcases List.mem_cons.mp hf with rfl | hf
  · obtain ⟨⟨v, after⟩, -, h⟩ := map_eq_ok_iff.mp h
    cases h
    exact he
  · rcases List.mem_singleton.mp hf with rfl
    obtain ⟨⟨v, after⟩, hv, h⟩ := map_eq_ok_iff.mp h
    cases h
    exact Json.readOptional_ne_null hv

theorem shape_keeps {f : Json.Field (List Entry)} (hf : f ∈ shape.fields) :
    f.Keeps fun es => ∀ e ∈ es, e.extra ≠ some .null := by
  intro depth cs change rest h es hes
  rcases List.mem_singleton.mp hf with rfl
  obtain ⟨⟨read, after⟩, hread, h⟩ := map_eq_ok_iff.mp h
  cases h
  have hblank : entryShape.blank.extra ≠ some .null := nofun
  exact Json.readList_forall
    (fun _ _ _ _ hentry => Json.Shape.read_keeps (fun _ => entryShape_keeps) hblank hentry) hread

theorem extra_ne_null_of_parse (h : parse cs = .ok entries) :
    ∀ e ∈ entries, e.extra ≠ some .null := by
  obtain ⟨rest, hread⟩ := Json.readWhole_eq_ok h
  exact Json.Shape.read_keeps (fun _ => shape_keeps) (by simp [shape]) hread

end Parse

namespace Entry

variable {e : Entry}

theorem has_iff {extra : Json.Value} (he : e.extra ≠ some .null) :
    e.Has extra ↔ e.extra = some extra := by
  constructor
  · exact fun h => h.1
  · intro h
    refine ⟨h, fun hnull => he ?_⟩
    rw [h, hnull]

theorem desired?_eq_error_iff {reason : FileReason} (he : e.extra ≠ some .null) :
    e.desired? = .error reason ↔ ∃ err, e.Fails err ∧ reason = .job (plainText e.id) err := by
  simp only [Fails, has_iff he]
  unfold desired?
  cases hextra : e.extra with
  | none => simp
  | some extra =>
    simp only [map_eq_error_iff, mapError_eq_error_iff, Option.some.injEq, exists_eq_left']
    simp [eq_comm]

theorem desired?_eq_ok_some_iff {d : String × String} (he : e.extra ≠ some .null) :
    e.desired? = .ok (some d) ↔
      plainText e.id = d.1 ∧ ∃ extra, e.Has extra ∧ desired extra = .ok d.2 := by
  simp only [has_iff he]
  unfold desired?
  cases hextra : e.extra with
  | none => simp
  | some extra =>
    simp only [map_eq_ok_iff, mapError_eq_ok_iff, Option.some.injEq, exists_eq_left', Prod.ext_iff]
    constructor
    · rintro ⟨a, ha, hid, rfl⟩
      exact ⟨hid, ha⟩
    · rintro ⟨hid, ha⟩
      exact ⟨d.2, ha, hid, rfl⟩

/-- What the entry desires for its id, if it has extra data that can be read. -/
def declared? (e : Entry) : Option (String × String) :=
  e.desired?.toOption.join

theorem declared?_eq_some_iff {d : String × String} (he : e.extra ≠ some .null) :
    e.declared? = some d ↔
      plainText e.id = d.1 ∧ ∃ extra, e.Has extra ∧ desired extra = .ok d.2 := by
  rw [← desired?_eq_ok_some_iff he, declared?, Option.join_eq_some_iff]
  cases e.desired? <;> simp [Except.toOption]

end Entry

section Lookup

variable {entries : List Entry} {ds : List (String × String)} {id allocation : String}

theorem desiredOf_eq_error_iff {reason : FileReason}
    (hnull : ∀ e ∈ entries, e.extra ≠ some .null) :
    desiredOf entries = .error reason ↔
      ∃ e err, IsFirst (fun e => ∃ err, e.Fails err) entries e ∧ e.Fails err ∧
        reason = .job (plainText e.id) err := by
  have hfails (e : Entry) (he : e ∈ entries) :
      (∃ reason, e.desired? = .error reason) ↔ ∃ err, e.Fails err := by
    simp only [Entry.desired?_eq_error_iff (hnull e he)]
    constructor
    · rintro ⟨_, err, herr, -⟩
      exact ⟨err, herr⟩
    · rintro ⟨err, herr⟩
      exact ⟨_, err, herr, rfl⟩
  rw [desiredOf, map_eq_error_iff, mapM_eq_error_iff]
  simp only [isFirst_congr hfails]
  constructor
  · rintro ⟨e, hfirst, he⟩
    obtain ⟨err, herr, hreason⟩ := (Entry.desired?_eq_error_iff (hnull e hfirst.mem)).mp he
    exact ⟨e, err, hfirst, herr, hreason⟩
  · rintro ⟨e, err, hfirst, herr, hreason⟩
    exact ⟨e, hfirst, (Entry.desired?_eq_error_iff (hnull e hfirst.mem)).mpr ⟨err, herr, hreason⟩⟩

theorem declared_of_desiredOf (h : desiredOf entries = .ok ds) :
    entries.filterMap Entry.declared? = ds ∧ ∀ e ∈ entries, ∃ o, e.desired? = .ok o := by
  obtain ⟨os, hos, rfl⟩ := map_eq_ok_iff.mp h
  have hall := mapM_eq_ok_iff.mp hos
  clear h hos
  induction hall with
  | nil => simp
  | @cons e o entries os he _ ih =>
    have hdeclared : e.declared? = o := by simp [Entry.declared?, he, Except.toOption]
    constructor
    · rw [List.filterMap_cons, List.filterMap_cons, hdeclared, ih.1]
      rfl
    · exact List.forall_mem_cons.mpr ⟨⟨o, he⟩, ih.2⟩

theorem not_fails_of_desiredOf (hnull : ∀ e ∈ entries, e.extra ≠ some .null)
    (h : desiredOf entries = .ok ds) : ∀ e ∈ entries, ∀ err, ¬ e.Fails err := by
  intro e he err hfails
  obtain ⟨o, ho⟩ := (declared_of_desiredOf h).2 e he
  have herror := (Entry.desired?_eq_error_iff (hnull e he)).mpr ⟨err, hfails, rfl⟩
  simp [ho] at herror

theorem lookup?_eq_some_iff_last :
    lookup? ds id = some allocation ↔
      ∃ before after, ds = before ++ (id, allocation) :: after ∧ ∀ d ∈ after, d.1 ≠ id := by
  rw [lookup?, Option.map_eq_some_iff]
  simp only [List.find?_eq_some_iff_append, List.reverse_eq_append_iff]
  constructor
  · rintro ⟨⟨id', a⟩, ⟨hid, after, before, hds, hafter⟩, rfl⟩
    obtain rfl : id' = id := by simpa using hid
    refine ⟨before.reverse, after.reverse, by simpa using hds, ?_⟩
    simpa using hafter
  · rintro ⟨before, after, hds, hafter⟩
    refine ⟨(id, allocation), ⟨by simp, after.reverse, before.reverse, by simpa using hds, ?_⟩, rfl⟩
    simpa using hafter

/-- What is found for an id is what the last entry of that id with extra data desires. -/
theorem lookup?_eq_some_iff (hnull : ∀ e ∈ entries, e.extra ≠ some .null)
    (h : desiredOf entries = .ok ds) :
    lookup? ds id = some allocation ↔ Desires entries id allocation := by
  have hreads := not_fails_of_desiredOf hnull h
  rw [lookup?_eq_some_iff_last, ← (declared_of_desiredOf h).1]
  constructor
  · rintro ⟨dsBefore, dsAfter, hsplit, hlast⟩
    obtain ⟨before, rest, rfl, -, hrest⟩ := List.filterMap_eq_append_iff.mp hsplit
    obtain ⟨skipped, e, after, rfl, -, he, hafter⟩ := List.filterMap_eq_cons_iff.mp hrest
    obtain ⟨hid, extra, hextra, hdesired⟩ :=
      (Entry.declared?_eq_some_iff (hnull e (by simp))).mp he
    refine ⟨before ++ skipped, e, after, extra, by simp, hid, hextra, hdesired, ?_⟩
    intro e' he' hid' extra' hextra'
    have hmem : e' ∈ before ++ (skipped ++ e :: after) := by simp [he']
    cases hdesired' : desired extra' with
    | error err => exact hreads e' hmem err ⟨extra', hextra', hdesired'⟩
    | ok allocation' =>
      have hd : e'.declared? = some (id, allocation') :=
        (Entry.declared?_eq_some_iff (hnull e' hmem)).mpr ⟨hid', extra', hextra', hdesired'⟩
      exact hlast _ (hafter ▸ List.mem_filterMap.mpr ⟨e', he', hd⟩) rfl
  · rintro ⟨before, e, after, extra, rfl, hid, hextra, hdesired, hlast⟩
    have he : e.declared? = some (id, allocation) :=
      (Entry.declared?_eq_some_iff (hnull e (by simp))).mpr ⟨hid, extra, hextra, hdesired⟩
    refine ⟨before.filterMap Entry.declared?, after.filterMap Entry.declared?, by simp [he], ?_⟩
    intro d hd
    obtain ⟨e', he', hd⟩ := List.mem_filterMap.mp hd
    obtain ⟨hid', extra', hextra', -⟩ :=
      (Entry.declared?_eq_some_iff (hnull e' (by simp [he']))).mp hd
    exact fun heq => hlast e' he' (hid'.trans heq) extra' hextra'

end Lookup

end Workload

namespace Allocation

open Workload (Entry Desires)

/-- The job of the row desires the allocation. -/
def Row.Expects (entries : List Entry) (r : Row) (allocation : String) : Prop :=
  Desires entries (Text.trim r.id) allocation

/-- The job of the row desires some allocation. -/
def Row.Counts (entries : List Entry) (r : Row) : Prop :=
  ∃ expected, r.Expects entries expected

/-- The job of the row desires another allocation than it was given. -/
def Row.Differs (entries : List Entry) (r : Row) : Prop :=
  ∃ expected, r.Expects entries expected ∧ Text.trim r.resources ≠ expected

/-- The mismatch has the row's id, what its job desires and what it was given. -/
def Mismatch.Reports (entries : List Entry) (r : Row) (m : Mismatch) : Prop :=
  m.id = r.id ∧ r.Expects entries m.expected ∧ m.allocated = Text.trim r.resources

section Verify

variable {entries : List Entry} {ds : List (String × String)} {rows : List Row}

theorem desiredFor_eq_some_iff {r : Row} {p : Row × String}
    (hds : ∀ id a, Workload.lookup? ds id = some a ↔ Desires entries id a) :
    desiredFor ds r = some p ↔ p.1 = r ∧ r.Expects entries p.2 := by
  rw [desiredFor, Option.map_eq_some_iff]
  simp only [hds, Prod.ext_iff]
  constructor
  · rintro ⟨a, ha, hr, rfl⟩
    exact ⟨hr.symm, ha⟩
  · rintro ⟨hr, ha⟩
    exact ⟨p.2, ha, hr.symm, rfl⟩

theorem desiredFor_eq_none_iff {r : Row}
    (hds : ∀ id a, Workload.lookup? ds id = some a ↔ Desires entries id a) :
    desiredFor ds r = none ↔ ¬ r.Counts entries := by
  rw [Row.Counts, Option.eq_none_iff_forall_ne_some]
  simp only [ne_eq, desiredFor_eq_some_iff hds]
  constructor
  · rintro h ⟨expected, hexpected⟩
    exact h (r, expected) ⟨rfl, hexpected⟩
  · rintro h p ⟨-, hp⟩
    exact h ⟨p.2, hp⟩

theorem verify_cons (ds : List (String × String)) (r : Row) (rows : List Row) :
    verify ds (r :: rows) =
      match desiredFor ds r with
      | none => verify ds rows
      | some p =>
        ⟨(verify ds rows).checked + 1,
          (mismatch? p.1 p.2).toList ++ (verify ds rows).mismatches⟩ := by
  cases h : desiredFor ds r with
  | none => simp [verify, h]
  | some p =>
    cases hm : mismatch? p.1 p.2 <;> simp [verify, h, hm]

open scoped Classical in
/-- Row after row, those whose jobs desire an allocation are counted and those that differ from it
are reported. -/
theorem verify_spec (hds : ∀ id a, Workload.lookup? ds id = some a ↔ Desires entries id a)
    (rows : List Row) :
    (verify ds rows).checked = (rows.filter fun r => r.Counts entries).length ∧
      List.Forall₂ (Mismatch.Reports entries) (rows.filter fun r => r.Differs entries)
        (verify ds rows).mismatches := by
  induction rows with
  | nil => simp [verify]
  | cons r rows ih =>
    obtain ⟨hchecked, hmismatches⟩ := ih
    rw [verify_cons]
    cases hr : desiredFor ds r with
    | none =>
      have hcounts : ¬ r.Counts entries := (desiredFor_eq_none_iff hds).mp hr
      have hdiffers : ¬ r.Differs entries := fun ⟨a, ha, _⟩ => hcounts ⟨a, ha⟩
      simpa [hcounts, hdiffers] using ⟨hchecked, hmismatches⟩
    | some p =>
      obtain ⟨rfl, hexpects⟩ := (desiredFor_eq_some_iff hds).mp hr
      have hcounts : p.1.Counts entries := ⟨p.2, hexpects⟩
      refine ⟨by simp [hcounts, hchecked], ?_⟩
      by_cases heq : Text.trim p.1.resources = p.2
      · have hdiffers : ¬ p.1.Differs entries := by
          rintro ⟨a, ha, hne⟩
          have hsame : some a = some p.2 := ((hds _ _).mpr ha).symm.trans ((hds _ _).mpr hexpects)
          exact hne (heq.trans (Option.some.inj hsame).symm)
        simpa [hdiffers, mismatch?, heq] using hmismatches
      · have hdiffers : p.1.Differs entries := ⟨p.2, hexpects, heq⟩
        simpa [hdiffers, mismatch?, heq] using
          ⟨⟨rfl, hexpects, rfl⟩, hmismatches⟩

end Verify

end Allocation

theorem Workload.read_eq_ok_iff {bytes : List UInt8} {ds : List (String × String)} :
    read bytes = .ok ds ↔ ∃ cs entries, Text.Utf8.decode bytes = .ok cs ∧ parse cs = .ok entries ∧
      desiredOf entries = .ok ds := by
  unfold read
  cases Text.Utf8.decode bytes with
  | error index => simp
  | ok cs => cases hparse : parse cs <;> simp [hparse]

section Files

open Allocation Workload

variable {files : Files} {jobs workload : String} {bytes : List UInt8} {cs : List Char}
  {entries : List Entry}

theorem verifyFiles_eq (hbytes : files.read workload = .ok bytes)
    (hcs : Text.Utf8.decode bytes = .ok cs) (hentries : parse cs = .ok entries) :
    verifyFiles files jobs workload =
      match desiredOf entries with
      | .error reason => .error (.fileFormat workload reason)
      | .ok ds =>
        (files.load (Table.readTable columns {} required) jobs).map (verify ds) := by
  have hread : Workload.read bytes = desiredOf entries := by
    simp only [Workload.read, hcs, hentries]
  simp only [verifyFiles, hbytes, hread]
  cases desiredOf entries with
  | error reason => rfl
  | ok ds => rfl

theorem runVerify_failure :
    (Command.runVerify files jobs workload).failure =
      match verifyFiles files jobs workload with
      | .error f => some f
      | .ok v => if v.mismatches = [] then none else some (.allocations v.mismatches.length) := by
  unfold Command.runVerify
  cases verifyFiles files jobs workload with
  | error f => rfl
  | ok v =>
    cases hm : v.mismatches <;> simp [Verification.result, Verification.isValid, hm]

open scoped Classical in
/-- Verifying fails for the first job whose extra data cannot be read, whatever the rows are.
Otherwise it counts the rows whose jobs desire an allocation, reports those that differ from it in
their order, and succeeds when there are none. -/
theorem verification_joins_rows_with_workload (hbytes : files.read workload = .ok bytes)
    (hcs : Text.Utf8.decode bytes = .ok cs) (hentries : parse cs = .ok entries) :
    (∀ e err, IsFirst (fun e => ∃ err, e.Fails err) entries e → e.Fails err →
      verifyFiles files jobs workload =
          .error (.fileFormat workload (.job (plainText e.id) err)) ∧
        (Command.runVerify files jobs workload).failure =
          some (.fileFormat workload (.job (plainText e.id) err))) ∧
    ((∀ e ∈ entries, ∀ err, ¬ e.Fails err) →
      ∀ rows, files.load (Table.readTable columns {} required) jobs = .ok rows →
        ∃ v, verifyFiles files jobs workload = .ok v ∧
          v.checked = (rows.filter fun r => r.Counts entries).length ∧
          List.Forall₂ (Mismatch.Reports entries) (rows.filter fun r => r.Differs entries)
            v.mismatches ∧
          ((Command.runVerify files jobs workload).failure = none ↔
            ∀ r ∈ rows, ¬ r.Differs entries) ∧
          ((∃ r ∈ rows, r.Differs entries) →
            (Command.runVerify files jobs workload).failure =
              some (.allocations (rows.filter fun r => r.Differs entries).length))) := by
  have hnull := extra_ne_null_of_parse hentries
  rw [runVerify_failure, verifyFiles_eq hbytes hcs hentries]
  constructor
  · intro e err hfirst herr
    have herror := (desiredOf_eq_error_iff hnull).mpr ⟨e, err, hfirst, herr, rfl⟩
    simp [herror]
  · intro hreads rows hrows
    cases hds : desiredOf entries with
    | error reason =>
      obtain ⟨e, err, hfirst, herr, -⟩ := (desiredOf_eq_error_iff hnull).mp hds
      exact absurd herr (hreads e hfirst.mem err)
    | ok ds =>
      obtain ⟨hchecked, hmismatches⟩ :=
        verify_spec (fun _ _ => lookup?_eq_some_iff hnull hds) rows
      have hlength := hmismatches.length_eq
      simp only [hrows, Except.map]
      refine ⟨verify ds rows, rfl, hchecked, hmismatches, ?_, ?_⟩
      · have hnone : (verify ds rows).mismatches = [] ↔ ∀ r ∈ rows, ¬ r.Differs entries := by
          rw [← List.length_eq_zero_iff, ← hlength]
          simp
        simp [hnone]
      · rintro ⟨r, hr, hdiffers⟩
        have hne : (verify ds rows).mismatches ≠ [] := by
          rw [← List.length_pos_iff, ← hlength, List.length_pos_iff_exists_mem]
          exact ⟨r, by simpa using ⟨hr, hdiffers⟩⟩
        simp [hne, hlength]

end Files

/-- A job that the workload has three times, the last time without extra data, and that has three
rows. -/
def repeatedJob : Files where
  read path :=
    let text :=
      if path = "workload.json" then
        "\x7b\"jobs\": [" ++
        "\x7b\"id\": 1, \"extra_data\": \x7b\"desired_allocation\": \"0-1\"\x7d\x7d, " ++
        "\x7b\"id\": \" 1 \", \"extra_data\": \x7b\"desired_allocation\": 2\x7d\x7d, " ++
        "\x7b\"id\": \"1\", \"extra_data\": null\x7d]\x7d"
      else "job_id,allocated_resources\n1,0-1\n1,2\n1,0\n7,3\n"
    .ok text.toUTF8.data.toList

theorem repeatedJob_compared_with_last_entry :
    ∃ bytes cs entries, repeatedJob.read "workload.json" = .ok bytes ∧
      Text.Utf8.decode bytes = .ok cs ∧ Workload.parse cs = .ok entries ∧
      (∀ e ∈ entries, ∀ err, ¬ e.Fails err) ∧
      (Command.runVerify repeatedJob "jobs.csv" "workload.json").failure =
        some (.allocations 2) := by
  have hds : ((repeatedJob.read "workload.json").toOption.bind
      fun bytes => (Workload.read bytes).toOption) = some [("1", "0-1"), ("1", "2")] := by
    decide +kernel
  have hrows : (repeatedJob.load (Table.readTable Allocation.columns {} Allocation.required)
      "jobs.csv").toOption = some [⟨"1", "0-1"⟩, ⟨"1", "2"⟩, ⟨"1", "0"⟩, ⟨"7", "3"⟩] := by
    decide +kernel
  obtain ⟨bytes, hbytes, hds⟩ := Option.bind_eq_some_iff.mp hds
  replace hbytes := toOption_eq_some_iff.mp hbytes
  replace hrows := toOption_eq_some_iff.mp hrows
  obtain ⟨cs, entries, hcs, hentries, hds⟩ :=
    Workload.read_eq_ok_iff.mp (toOption_eq_some_iff.mp hds)
  have hnull := Workload.extra_ne_null_of_parse hentries
  have hreads := Workload.not_fails_of_desiredOf hnull hds
  have hdiffers (r : Allocation.Row) : r.Differs entries ↔
      ∃ a, Workload.lookup? [("1", "0-1"), ("1", "2")] (Text.trim r.id) = some a ∧
        Text.trim r.resources ≠ a := by
    simp only [Allocation.Row.Differs, Allocation.Row.Expects,
      Workload.lookup?_eq_some_iff hnull hds]
  have hfirst : Allocation.Row.Differs entries ⟨"1", "0-1"⟩ :=
    (hdiffers _).mpr ⟨"2", by decide, by decide⟩
  have hsecond : ¬ Allocation.Row.Differs entries ⟨"1", "2"⟩ := by
    rw [hdiffers]
    decide
  have hthird : Allocation.Row.Differs entries ⟨"1", "0"⟩ :=
    (hdiffers _).mpr ⟨"2", by decide, by decide⟩
  have hother : ¬ Allocation.Row.Differs entries ⟨"7", "3"⟩ := by
    rw [hdiffers]
    decide
  obtain ⟨v, -, -, -, -, hfailure⟩ :=
    (verification_joins_rows_with_workload hbytes hcs hentries).2 hreads _ hrows
  refine ⟨bytes, cs, entries, hbytes, hcs, hentries, hreads, ?_⟩
  simpa [hfirst, hsecond, hthird, hother] using hfailure ⟨_, by simp, hfirst⟩

end TracePlot
