import IsalesApi.Foundation.CommitLog
import IsalesApi.Foundation.Relabel
import IsalesApi.Leads.RowByRow
import IsalesApi.Listings.Handlers

/-!
# Overlapping imports

A file is imported in one transaction, whatever `BATCH_SIZE` is: a flush sends
the rows, and `get_session` commits when the handler has returned. So with any
number of imports under way, each aborted or committed at any moment, the table
has the rows of whole files, those that have been committed, and every answer
that was given counts the rows of its file.

The rows get their ids from the sequence when they are sent, and their status is
the default of the column.
-/

namespace IsalesApi.Leads

open Foundation Python

/-! ## Stored leads -/

/-- The table of leads with all its columns. -/
structure LeadTable where
  campaigns : List Int
  rowOk : Lead → Bool
  leads : Table Listings.Lead

def LeadTable.toDatabase (t : LeadTable) : Database where
  campaigns := t.campaigns
  rowOk := t.rowOk
  leads := t.leads.rows.map Listings.Lead.toLead

structure RowInsert where
  row : Listings.Lead

/-- A new row is refused by the constraints on leads, or because of its id. -/
def LeadTable.apply (t : LeadTable) (w : RowInsert) : Option LeadTable :=
  if t.toDatabase.accepts w.row.toLead then
    (t.leads.insert w.row).map fun leads => { t with leads }
  else none

instance : Store LeadTable RowInsert Int HttpException where
  apply w t := t.apply w
  lock w := w.row.id
  refused := internalServerError

/-- The ids the sequence gives to one request, and the default status. -/
structure Drawn where
  ids : Nat → Int
  status : Listings.LeadStatus

/-- The row of the `n`-th insert. -/
def Drawn.row (drawn : Drawn) (n : Nat) (lead : Lead) : Listings.Lead :=
  { lead with id := drawn.ids n, status := drawn.status }

def Drawn.insert (drawn : Drawn) (n : Nat) (w : Write) : RowInsert := ⟨drawn.row n w.lead⟩

/-- The rows of some leads, inserted one after the other. -/
def Drawn.rows (drawn : Drawn) (leads : List Lead) : List Listings.Lead :=
  leads.zipIdx.map fun p => drawn.row p.2 p.1

section Table

variable {t t' : LeadTable} {drawn : Drawn}

theorem apply_rowInsert {w : RowInsert} (h : t.apply w = some t') :
    t.toDatabase.accepts w.row.toLead ∧ t'.leads.rows = t.leads.rows ++ [w.row] ∧
      t'.toDatabase = t.toDatabase.add [w.row.toLead] := by
  unfold LeadTable.apply at h
  split at h
  · rename_i haccepts
    obtain ⟨leads, hinsert, rfl⟩ := Option.map_eq_some_iff.mp h
    have hrows := (Table.insert_eq_some.mp hinsert).2
    refine ⟨haccepts, hrows, ?_⟩
    simp only [LeadTable.toDatabase, hrows, List.map_append, List.map_singleton, Database.add]
  · cases h

/-- What the table takes, its leads take. -/
theorem apply_insert_drawn (n : Nat) (w : Write)
    (h : Store.apply (drawn.insert n w) t = some t') :
    Store.apply w t.toDatabase = some t'.toDatabase := by
  obtain ⟨lead⟩ := w
  obtain ⟨haccepts, _, htable⟩ := apply_rowInsert h
  rw [htable]
  exact if_pos haccepts

theorem applyAll_rowInserts {ws : List RowInsert} (h : applyAll ws t = some t') :
    t'.leads.rows = t.leads.rows ++ ws.map RowInsert.row := by
  induction ws generalizing t with
  | nil =>
    cases h
    rw [List.map_nil, List.append_nil]
  | cons w ws ih =>
    obtain ⟨m, hm, hrest⟩ := applyAll_cons.mp h
    rw [ih hrest, (apply_rowInsert hm).2.1, List.map_cons, List.append_assoc, List.singleton_append]

theorem numbered_inserts (n : Nat) (leads : List Lead) :
    (Prog.numbered drawn.insert n (leads.map Write.insert)).map RowInsert.row =
      (leads.zipIdx n).map fun p => drawn.row p.2 p.1 := by
  induction leads generalizing n with
  | nil => rfl
  | cons lead leads ih =>
    rw [List.map_cons, Prog.numbered_cons, List.map_cons, ih, List.zipIdx_cons, List.map_cons]
    rfl

end Table

/-! ## The program of an import -/

variable {rt : Runtime} {size : Nat}

theorem silent_flush (s : Locals) : (flush s).Silent := by
  unfold flush
  split
  · exact .done s
  · exact (Prog.silent_execAll _).bind fun _ => .done _

theorem silent_importRow (header : Csv.Row) (i : Nat) (row : Csv.Row) (s : Locals) :
    (importRow rt size header i row s).Silent := by
  unfold importRow
  split
  · unfold append
    dsimp only
    split
    · exact silent_flush _
    · exact .done _
  · split
    · exact .done _
    · exact .raise _

theorem silent_importRows (header : Csv.Row) (i : Nat) (rows : List Csv.Row) (s : Locals) :
    (importRows rt size header i rows s).Silent := by
  induction rows generalizing i s with
  | nil => exact .done s
  | cons row rows ih => exact (silent_importRow header i row s).bind fun s => ih (i + 1) s

theorem silent_importLeads (text : Str) : (importLeads rt size text).Silent := by
  unfold importLeads
  split
  · exact .raise _
  · exact .raise _
  · split
    · refine (silent_importRows _ 2 _ _).bind fun s => ?_
      split
      · exact .raise _
      · exact (silent_flush s).bind fun _ => .done _
    · exact .raise _

/-! ## The transactions -/

/-- A file that is imported, and what its request is given by the sequence. -/
structure Upload where
  text : Str
  drawn : Drawn

/-- `import_leads` on the stored table. -/
def Upload.transaction (rt : Runtime) (size : Nat) (u : Upload) :
    Prog LeadTable RowInsert HttpException LeadsImportResult :=
  (importLeads rt size u.text).relabel LeadTable.toDatabase u.drawn.insert 0

/-- The leads of the records that convert. -/
def Upload.leads (rt : Runtime) (u : Upload) : List Lead :=
  match Csv.dictReader u.text with
  | .ok (some reader) => reader.records.filterMap (converted rt reader.fieldnames)
  | _ => []

/-- The rows of the file. -/
def Upload.rows (rt : Runtime) (u : Upload) : List Listings.Lead := u.drawn.rows (u.leads rt)

theorem map_insert_lead (ws : List Write) : (ws.map Write.lead).map Write.insert = ws := by
  rw [List.map_map]
  exact List.map_id ws

/-- A committed import has sent the rows of its file, and its answer is that of
the import row by row on the leads that were there. -/
theorem commit_upload {u : Upload} {res : LeadsImportResult} {ws : List RowInsert}
    {t t' : LeadTable} (hends : (u.transaction rt size).Ends res ws)
    (happly : applyAll ws t = some t') :
    ws.map RowInsert.row = u.rows rt ∧
      ∃ reader, Csv.dictReader u.text = .ok (some reader) ∧
        RowByRow rt t.toDatabase reader res t'.toDatabase := by
  obtain ⟨us, hus, rfl⟩ := Prog.ends_relabel hends
  have hview : applyAll us t.toDatabase = some t'.toDatabase :=
    Prog.applyAll_numbered (fun n w d m => apply_insert_drawn n w) happly
  -- the import asks the table nothing, so it runs on the view it has written to
  have hrun := (silent_importLeads u.text).run_of_ends hus hview
  obtain ⟨reader, hreader, _, _, hhandled, rfl, hdb⟩ := run_importLeads.mp hrun
  refine ⟨?_, reader, hreader,
    { leads := congrArg Database.leads hdb
      others := rows_reports hhandled
      increasing := rows_reports_pairwise hhandled
      success := rfl
      errorCount := rfl
      total := length_converted_add_reports hhandled }⟩
  rw [← map_insert_lead us] at hview ⊢
  rw [(applyAll_inserts.mp hview).2] at hdb
  have hconverted : us.map Write.lead =
      reader.records.filterMap (converted rt reader.fieldnames) :=
    List.append_cancel_left (congrArg Database.leads hdb)
  rw [numbered_inserts, hconverted, Upload.rows, Upload.leads, hreader]
  rfl

/-! ## Any number of imports -/

variable {ι : Type}

/-- The rows of the committed imports, file by file in this order, follow those
that were there, and every answer given is that of an import row by row. -/
structure WholeFiles (rt : Runtime) (uploads : ι → Upload) (before : LeadTable)
    (s : Server ι LeadTable RowInsert HttpException LeadsImportResult) (order : List ι) :
    Prop where
  nodup : order.Nodup
  committed : ∀ i, i ∈ order ↔ ∃ res, s.sessions i = .committed res
  rows : s.committed.leads.rows =
    before.leads.rows ++ order.flatMap fun i => (uploads i).rows rt
  answers : ∀ i res, s.sessions i = .committed res →
    ∃ reader db db', Csv.dictReader (uploads i).text = .ok (some reader) ∧
      RowByRow rt db reader res db'

/-- A log of commits of imports. -/
theorem rows_of_log {uploads : ι → Upload} {log : List (Commit ι RowInsert LeadsImportResult)}
    {t t' : LeadTable}
    (hends : ∀ c ∈ log, ((uploads c.txn).transaction rt size).Ends c.answer c.writes)
    (happly : applyAll (log.flatMap Commit.writes) t = some t') :
    t'.leads.rows = t.leads.rows ++ log.flatMap (fun c => (uploads c.txn).rows rt) ∧
      ∀ c ∈ log, ∃ reader db db', Csv.dictReader (uploads c.txn).text = .ok (some reader) ∧
        RowByRow rt db reader c.answer db' := by
  induction log generalizing t with
  | nil =>
    cases happly
    exact ⟨(List.append_nil _).symm, fun c hc => absurd hc List.not_mem_nil⟩
  | cons c log ih =>
    rw [List.flatMap_cons] at happly
    obtain ⟨m, hm, hrest⟩ := applyAll_append.mp happly
    obtain ⟨hc, hends⟩ := List.forall_mem_cons.mp hends
    obtain ⟨hrows, reader, hreader, hanswer⟩ := commit_upload hc hm
    obtain ⟨hlater, hanswers⟩ := ih hends hrest
    refine ⟨?_, List.forall_mem_cons.mpr ⟨⟨reader, _, _, hreader, hanswer⟩, hanswers⟩⟩
    rw [hlater, applyAll_rowInserts hm, hrows, List.flatMap_cons, List.append_assoc]

theorem wholeFiles_of_log {uploads : ι → Upload} {before : LeadTable}
    {s : Server ι LeadTable RowInsert HttpException LeadsImportResult}
    {log : List (Commit ι RowInsert LeadsImportResult)}
    (hlog : CommitLog before (fun i => (uploads i).transaction rt size) s log) :
    WholeFiles rt uploads before s (log.map Commit.txn) := by
  obtain ⟨hrows, hanswers⟩ := rows_of_log hlog.ends hlog.committed
  refine ⟨hlog.nodup, fun i => hlog.mem_txns, ?_, ?_⟩
  · rw [hrows, List.flatMap_map]
  · intro i res hi
    obtain ⟨c, hc, rfl, rfl⟩ := (hlog.txns i res).mp hi
    exact hanswers c hc

/-- **Imports are all or nothing**, after every run of every interleaving of any
number of them and for every batch size; the files follow each other in the order
of the commits. -/
theorem overlapping_imports [DecidableEq ι] [Fintype ι] (rt : Runtime) (size : Nat)
    (uploads : ι → Upload) (before : LeadTable) (as : List (ServerAction ι))
    (s : Server ι LeadTable RowInsert HttpException LeadsImportResult)
    (hrun : exec Server.step
      (Server.start before fun i => (uploads i).transaction rt size) as = some s) :
    WholeFiles rt uploads before s
      (commitOrder (Server.start before fun i => (uploads i).transaction rt size) as) := by
  obtain ⟨log, hlog, horder⟩ := commitLog_of_exec hrun
  rw [← horder]
  exact wholeFiles_of_log hlog

/-- One file is uploaded twice. -/
def twoUploads (i : Fin 2) : Upload := ⟨fiveRows, ⟨fun n => 10 * (i.val + 1) + n, ⟨"new"⟩⟩⟩

def noLeads : LeadTable where
  campaigns := [1]
  rowOk := fun _ => true
  leads := ⟨[], List.nodup_nil⟩

def twoUploadsStart : Server (Fin 2) LeadTable RowInsert HttpException LeadsImportResult :=
  Server.start noLeads fun i => (twoUploads i).transaction cpython 2

/-- The second import overtakes the first one. -/
def overtaking {ι : Type} (first second : ι) : List (ServerAction ι) :=
  [.advance first, .advance second, .advance second, .advance first, .advance second,
    .advance second, .advance first, .advance first]

theorem commitOrder_overtaking : commitOrder twoUploadsStart (overtaking 0 1) = [1, 0] := rfl

theorem overlapping_imports_overtaking :
    ∃ s, exec Server.step twoUploadsStart (overtaking 0 1) = some s ∧
      WholeFiles cpython twoUploads noLeads s [1, 0] := by
  have hruns : (exec Server.step twoUploadsStart (overtaking 0 1)).isSome := rfl
  obtain ⟨s, hrun⟩ := Option.isSome_iff_exists.mp hruns
  rw [← commitOrder_overtaking]
  exact ⟨s, hrun, overlapping_imports cpython 2 twoUploads noLeads _ s hrun⟩

end IsalesApi.Leads
