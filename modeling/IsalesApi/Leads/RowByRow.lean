import IsalesApi.Leads.Import

/-!
# The import, record by record

Batches cannot be seen from outside: the loop followed by a flush ends exactly
when every record is handled, and it leaves the conversions of the records that
convert and a report of each other record. The induction is on the records, over
any locals, and what it says of them is that the batch is as good as stored.
-/

namespace IsalesApi.Leads

open Foundation Python

section Inserts

variable {db db' : Database} {leads : List Lead}

@[simp] theorem add_nil (db : Database) : db.add [] = db := by
  unfold Database.add
  rw [List.append_nil]

theorem add_add (db : Database) (ls ms : List Lead) : (db.add ls).add ms = db.add (ls ++ ms) := by
  unfold Database.add
  rw [List.append_assoc]

/-- The constraints do not look at the leads. -/
@[simp] theorem accepts_add {lead : Lead} : (db.add leads).accepts lead ↔ db.accepts lead := Iff.rfl

theorem applyAll_inserts :
    applyAll (leads.map Write.insert) db = some db' ↔
      (∀ lead ∈ leads, db.accepts lead) ∧ db' = db.add leads := by
  induction leads generalizing db with
  | nil => simp [eq_comm]
  | cons lead leads ih =>
    rw [List.map_cons, applyAll_cons]
    have happly : Store.apply (Write.insert lead) db =
        if db.accepts lead then some (db.add [lead]) else none := rfl
    rw [happly]
    by_cases hlead : db.accepts lead
    · rw [if_pos hlead]
      simp only [Option.some.injEq, exists_eq_left', ih, accepts_add, add_add,
        List.forall_mem_cons, hlead, true_and, List.singleton_append]
    · simp [hlead]

end Inserts

/-! ## What becomes of a record -/

variable (rt : Runtime)

/-- The record is reported, or it converts to a lead the database accepts. -/
def Handled (db : Database) (header row : Csv.Row) : Prop :=
  match convert rt header row with
  | .ok lead => db.accepts lead
  | .error e => e.caught.isSome

/-- The lead of a record, if it converts. -/
def converted (header row : Csv.Row) : Option Lead := (convert rt header row).toOption

/-- The report on a record, if it is caught. -/
def reported (header : Csv.Row) (p : Csv.Row × Nat) : Option LeadsImportError :=
  match convert rt header p.1 with
  | .ok _ => none
  | .error e => e.caught.map fun msg => ⟨p.2, msg⟩

/-- The reports on records numbered from `i`. -/
def reports (header : Csv.Row) (i : Nat) (rows : List Csv.Row) : List LeadsImportError :=
  (rows.zipIdx i).filterMap (reported rt header)

section Loop

variable {rt} {size : Nat} {header : Csv.Row} {db db' : Database} {s s' : Locals}

theorem reports_cons {i : Nat} {row : Csv.Row} {rows : List Csv.Row} :
    reports rt header i (row :: rows) =
      (reported rt header (row, i)).toList ++ reports rt header (i + 1) rows := by
  unfold reports
  rw [List.zipIdx_cons, List.filterMap_cons]
  cases reported rt header (row, i) <;> rfl

theorem run_flush :
    (flush s).run db = .ok (s', db') ↔ (∀ lead ∈ s.batch, db.accepts lead) ∧
      s' = ⟨s.success + s.batch.length, s.errors, []⟩ ∧ db' = db.add s.batch := by
  obtain ⟨success, errors, batch⟩ := s
  unfold flush
  cases batch with
  | nil => simp [eq_comm]
  | cons lead batch =>
    have hne : (lead :: batch).isEmpty = false := rfl
    simp only [hne, Bool.false_eq_true, if_false]
    rw [Prog.run_bind_ok]
    constructor
    · rintro ⟨u, m, hinserts, hdone⟩
      obtain ⟨haccepts, rfl⟩ := applyAll_inserts.mp (Prog.run_execAll_ok.mp hinserts)
      cases hdone
      exact ⟨haccepts, rfl, rfl⟩
    · rintro ⟨haccepts, rfl, rfl⟩
      exact ⟨(), _, Prog.run_execAll_ok.mpr (applyAll_inserts.mpr ⟨haccepts, rfl⟩), rfl⟩

/-- What the rest of the loop and the last flush make of the records left, from
any locals. -/
def Completes (rt : Runtime) (header : Csv.Row) (i : Nat) (rows : List Csv.Row) (s : Locals)
    (db : Database) (s' : Locals) (db' : Database) : Prop :=
  (∀ lead ∈ s.batch, db.accepts lead) ∧ (∀ row ∈ rows, Handled rt db header row) ∧
    s' = ⟨s.success + (s.batch ++ rows.filterMap (converted rt header)).length,
      s.errors ++ reports rt header i rows, []⟩ ∧
    db' = db.add (s.batch ++ rows.filterMap (converted rt header))

/-- A record that converts is as good as stored. -/
theorem completes_cons_ok {i : Nat} {row : Csv.Row} {rows : List Csv.Row} {lead : Lead}
    (h : convert rt header row = .ok lead) :
    Completes rt header i (row :: rows) s db s' db' ↔
      Completes rt header (i + 1) rows { s with batch := s.batch ++ [lead] } db s' db' := by
  have hconverted : converted rt header row = some lead := by simp [converted, h, Except.toOption]
  have hreport : reported rt header (row, i) = none := by simp [reported, h]
  have hhandled : Handled rt db header row ↔ db.accepts lead := by simp [Handled, h]
  unfold Completes
  rw [reports_cons, hreport, List.filterMap_cons, hconverted, List.forall_mem_cons, hhandled]
  simp only [List.forall_mem_append, List.forall_mem_singleton, List.append_assoc,
    List.singleton_append, Option.toList_none, List.nil_append]
  tauto

/-- A record that is caught is reported. -/
theorem completes_cons_caught {i : Nat} {row : Csv.Row} {rows : List Csv.Row} {e : Raised}
    {msg : String} (h : convert rt header row = .error e) (hmsg : e.caught = some msg) :
    Completes rt header i (row :: rows) s db s' db' ↔
      Completes rt header (i + 1) rows { s with errors := s.errors ++ [⟨i, msg⟩] } db s' db' := by
  have hconverted : converted rt header row = none := by simp [converted, h, Except.toOption]
  have hreport : reported rt header (row, i) = some ⟨i, msg⟩ := by simp [reported, h, hmsg]
  have hhandled : Handled rt db header row := by simp [Handled, h, hmsg]
  unfold Completes
  rw [reports_cons, hreport, List.filterMap_cons, hconverted, List.forall_mem_cons]
  simp only [hhandled, true_and, Option.toList_some, List.append_assoc]

/-- A flush changes nothing the rest of the loop can tell. -/
theorem completes_flush {i : Nat} {rows : List Csv.Row} {m : Locals} {n : Database}
    (hbatch : ∀ lead ∈ s.batch, db.accepts lead)
    (hm : m = ⟨s.success + s.batch.length, s.errors, []⟩) (hn : n = db.add s.batch) :
    Completes rt header i rows m n s' db' ↔ Completes rt header i rows s db s' db' := by
  subst hm hn
  have hhandled : ∀ row, Handled rt (db.add s.batch) header row ↔ Handled rt db header row := by
    intro row
    unfold Handled
    cases convert rt header row <;> rfl
  unfold Completes
  simp only [hhandled, add_add, List.nil_append, List.not_mem_nil, false_implies, implies_true,
    true_and, List.length_append, Nat.add_assoc]
  exact (and_iff_right hbatch).symm

/-- **Batches cannot be seen.** -/
theorem run_importRows {i : Nat} {rows : List Csv.Row} :
    ((importRows rt size header i rows s).bind flush).run db = .ok (s', db') ↔
      Completes rt header i rows s db s' db' := by
  induction rows generalizing i s db with
  | nil =>
    show (flush s).run db = .ok (s', db') ↔ _
    rw [run_flush]
    simp [Completes, reports]
  | cons row rows ih =>
    unfold importRows importRow
    cases hconvert : convert rt header row with
    | ok lead =>
      rw [completes_cons_ok hconvert]
      simp only [append]
      split
      · -- the batch is full
        rw [Prog.run_bind_ok]
        constructor
        · rintro ⟨a, m, hloop, hflush⟩
          obtain ⟨b, n, hfull, hrest⟩ := Prog.run_bind_ok.mp hloop
          obtain ⟨hbatch, hb, hn⟩ := run_flush.mp hfull
          refine (completes_flush hbatch hb hn).mp (ih.mp ?_)
          exact Prog.run_bind_ok.mpr ⟨a, m, hrest, hflush⟩
        · intro hcompletes
          have hbatch := hcompletes.1
          obtain ⟨a, m, hrest, hflush⟩ := Prog.run_bind_ok.mp
            (ih.mpr ((completes_flush hbatch rfl rfl).mpr hcompletes))
          exact ⟨a, m, Prog.run_bind_ok.mpr ⟨_, _, run_flush.mpr ⟨hbatch, rfl, rfl⟩, hrest⟩, hflush⟩
      · exact ih
    | error e =>
      cases hcaught : e.caught with
      | some msg =>
        rw [completes_cons_caught hconvert hcaught]
        simp only [hcaught]
        exact ih
      | none =>
        simp only [hcaught]
        refine iff_of_false ?_ ?_
        · intro h
          cases h
        · rintro ⟨_, hhandled, _⟩
          have hrow := hhandled row List.mem_cons_self
          simp [Handled, hconvert, hcaught] at hrow

/-- **When an import returns**, and what it leaves. -/
theorem run_importLeads {text : Str} {res : LeadsImportResult} :
    (importLeads rt size text).run db = .ok (res, db') ↔
      ∃ reader, Csv.dictReader text = .ok (some reader) ∧ HasColumns reader.fieldnames ∧
        reader.error = none ∧ (∀ row ∈ reader.records, Handled rt db reader.fieldnames row) ∧
        res = ⟨(reader.records.filterMap (converted rt reader.fieldnames)).length,
          (reports rt reader.fieldnames 2 reader.records).length,
          reports rt reader.fieldnames 2 reader.records⟩ ∧
        db' = db.add (reader.records.filterMap (converted rt reader.fieldnames)) := by
  unfold importLeads
  cases hreader : Csv.dictReader text with
  | error e => simp
  | ok reader? =>
    cases reader? with
    | none => simp
    | some reader =>
      simp only [Except.ok.injEq, Option.some.injEq, exists_eq_left']
      by_cases hcolumns : HasColumns reader.fieldnames
      · simp only [hcolumns, if_true, true_and]
        cases herror : reader.error with
        | some e =>
          refine iff_of_false ?_ (by simp)
          intro h
          obtain ⟨s, m, _, hraise⟩ := Prog.run_bind_ok.mp h
          cases hraise
        | none =>
          simp only [true_and]
          constructor
          · intro h
            obtain ⟨s, m, hloop, hend⟩ := Prog.run_bind_ok.mp h
            obtain ⟨s', n, hflush, hdone⟩ := Prog.run_bind_ok.mp hend
            obtain ⟨_, hhandled, rfl, rfl⟩ := run_importRows.mp
              (Prog.run_bind_ok.mpr ⟨s, m, hloop, hflush⟩)
            cases hdone
            simp only [Locals.start, List.nil_append, Nat.zero_add, and_true]
            exact hhandled
          · rintro ⟨hhandled, rfl, rfl⟩
            have hcompletes : Completes rt reader.fieldnames 2 reader.records .start db
                ⟨_, _, _⟩ _ := ⟨fun _ h => absurd h List.not_mem_nil, hhandled, rfl, rfl⟩
            obtain ⟨s, m, hloop, hflush⟩ := Prog.run_bind_ok.mp (run_importRows.mpr hcompletes)
            refine Prog.run_bind_ok.mpr ⟨s, m, hloop, Prog.run_bind_ok.mpr ⟨_, _, hflush, ?_⟩⟩
            simp [Locals.start]
      · simp only [hcolumns, if_false, false_and, iff_false]
        intro h
        cases h

/-! ## Numbers and counts -/

/-- Among handled records, those reported are those that do not convert. -/
theorem rows_reports {i : Nat} {rows : List Csv.Row}
    (h : ∀ row ∈ rows, Handled rt db header row) :
    (reports rt header i rows).map LeadsImportError.row =
      ((rows.zipIdx i).filter fun p => (converted rt header p.1).isNone).map Prod.snd := by
  induction rows generalizing i with
  | nil => rfl
  | cons row rows ih =>
    obtain ⟨hrow, hrest⟩ := List.forall_mem_cons.mp h
    rw [reports_cons, List.map_append, ih hrest, List.zipIdx_cons, List.filter_cons]
    cases hconvert : convert rt header row with
    | ok lead => simp [reported, converted, hconvert, Except.toOption]
    | error e =>
      simp only [Handled, hconvert] at hrow
      obtain ⟨msg, hmsg⟩ := Option.isSome_iff_exists.mp hrow
      simp [reported, converted, hconvert, hmsg, Except.toOption]

theorem rows_reports_pairwise {i : Nat} {rows : List Csv.Row}
    (h : ∀ row ∈ rows, Handled rt db header row) :
    ((reports rt header i rows).map LeadsImportError.row).Pairwise (· < ·) := by
  rw [rows_reports h]
  have hnumbers : ((rows.zipIdx i).map Prod.snd).Pairwise (· < ·) := by
    rw [List.zipIdx_map_snd]
    exact List.pairwise_lt_range'
  exact hnumbers.sublist (List.filter_sublist.map Prod.snd)

/-- Every handled record is either converted or reported. -/
theorem length_converted_add_reports {i : Nat} {rows : List Csv.Row}
    (h : ∀ row ∈ rows, Handled rt db header row) :
    (rows.filterMap (converted rt header)).length + (reports rt header i rows).length =
      rows.length := by
  have hreports : (reports rt header i rows).length =
      ((rows.zipIdx i).filter fun p => (converted rt header p.1).isNone).length := by
    rw [← List.length_map (f := LeadsImportError.row), rows_reports h, List.length_map]
  rw [hreports]
  clear hreports h
  induction rows generalizing i with
  | nil => rfl
  | cons row rows ih =>
    have ih := ih (i := i + 1)
    rw [List.zipIdx_cons, List.filter_cons, List.filterMap_cons, List.length_cons]
    cases hconverted : converted rt header row with
    | none =>
      simp only [Option.isNone_none, if_true, List.length_cons]
      omega
    | some lead =>
      simp only [Option.isNone_some, Bool.false_eq_true, if_false, List.length_cons]
      omega

end Loop

/-! ## The result -/

/-- What a row-by-row import of the records would do: store each conversion in
order and report each other record under its number, the first being 2. -/
structure RowByRow (db : Database) (reader : Csv.DictReader) (res : LeadsImportResult)
    (db' : Database) : Prop where
  leads : db'.leads =
    db.leads ++ reader.records.filterMap (converted rt reader.fieldnames)
  others : res.errors.map LeadsImportError.row =
    ((reader.records.zipIdx 2).filter fun p => (converted rt reader.fieldnames p.1).isNone).map
      Prod.snd
  increasing : (res.errors.map LeadsImportError.row).Pairwise (· < ·)
  success : res.successCount = (reader.records.filterMap (converted rt reader.fieldnames)).length
  errorCount : res.errorCount = res.errors.length
  total : res.successCount + res.errorCount = reader.records.length

/-- **The batched import is the import row by row**, for every batch size. -/
theorem import_rowByRow (rt : Runtime) (size : Nat) (text : Str) (db db' : Database)
    (res : LeadsImportResult) (h : (importLeads rt size text).session db = (.ok res, db')) :
    ∃ reader, Csv.dictReader text = .ok (some reader) ∧ RowByRow rt db reader res db' := by
  obtain ⟨reader, hreader, _, _, hhandled, rfl, rfl⟩ := run_importLeads.mp (Prog.session_ok.mp h)
  exact ⟨reader, hreader,
    { leads := rfl
      others := rows_reports hhandled
      increasing := rows_reports_pairwise hhandled
      success := rfl
      errorCount := rfl
      total := length_converted_add_reports hhandled }⟩

/-- An interpreter with the default recursion limit. -/
def cpython : Runtime := ⟨fun _ => true, 900⟩

def oneCampaign : Database := ⟨[1], fun _ => true, []⟩

/-- Three records convert, the second and the fourth are reported. -/
def fiveRows : Str := "phone,campaign_id\n11,1\n,1\n12,1\n13,x\n14,1\n".toList

theorem import_rowByRow_fiveRows :
    ∃ reader, Csv.dictReader fiveRows = .ok (some reader) ∧
      RowByRow cpython oneCampaign reader
        ⟨3, 2, [⟨3, "phone is empty"⟩, ⟨5, "invalid literal for int() with base 10: 'x'"⟩]⟩
        (oneCampaign.add [⟨1, "11".toList, none, none, .object []⟩,
          ⟨1, "12".toList, none, none, .object []⟩, ⟨1, "14".toList, none, none, .object []⟩]) :=
  import_rowByRow cpython 2 fiveRows oneCampaign _ _ rfl

end IsalesApi.Leads
