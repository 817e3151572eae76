import IsalesApi.Leads.Directory

/-!
# The handlers keep the directory

An import ends with what its file says, provided that the store takes all the
rows of the file; the other handlers have been seen to do what the directory
does. So a run of requests is answered as by the directory.
-/

namespace IsalesApi.Leads

open Foundation Listings Python

/-! ## Files -/

section Files

variable {rt : Runtime} {size : Nat} {s s' : LeadStore}

theorem handled_iff_legible {db : Database} {header row : Csv.Row} :
    Handled rt db header row ↔ Legible rt header row = true ∧
      ∀ lead ∈ converted rt header row, db.accepts lead := by
  unfold Handled Legible converted
  cases convert rt header row <;> simp [Except.toOption]

/-- A table that takes these leads. -/
def openTo (leads : List Lead) : Database := ⟨leads.map Lead.campaignId, fun _ => true, []⟩

theorem openTo_accepts {leads : List Lead} {lead : Lead} (h : lead ∈ leads) :
    (openTo leads).accepts lead := ⟨List.mem_map_of_mem h, rfl⟩

theorem readFile_eq_ok {text : Str} {result : LeadsImportResult} {leads : List Lead} :
    readFile rt text = .ok (result, leads) ↔
      ∃ reader, Csv.dictReader text = .ok (some reader) ∧ HasColumns reader.fieldnames ∧
        reader.error = none ∧
        (∀ row ∈ reader.records, Legible rt reader.fieldnames row = true) ∧
        leads = reader.records.filterMap (converted rt reader.fieldnames) ∧
        result = ⟨leads.length, (reports rt reader.fieldnames 2 reader.records).length,
          reports rt reader.fieldnames 2 reader.records⟩ := by
  unfold readFile
  cases Csv.dictReader text with
  | error e => simp
  | ok reader? =>
    cases reader? with
    | none => simp
    | some reader =>
      simp only [Except.ok.injEq, Option.some.injEq, exists_eq_left']
      by_cases hcolumns : HasColumns reader.fieldnames
      · simp only [hcolumns, if_true, true_and]
        by_cases hlegible : (reader.error.isNone &&
            reader.records.all (Legible rt reader.fieldnames)) = true
        · rw [if_pos hlegible]
          obtain ⟨herror, hrows⟩ := Bool.and_eq_true_iff.mp hlegible
          constructor
          · intro h
            cases h
            exact ⟨Option.isNone_iff_eq_none.mp herror, List.all_eq_true.mp hrows, rfl, rfl⟩
          · rintro ⟨_, _, rfl, rfl⟩
            rfl
        · rw [if_neg hlegible]
          refine iff_of_false (by simp) ?_
          rintro ⟨herror, hrows, _⟩
          exact hlegible (Bool.and_eq_true_iff.mpr
            ⟨Option.isNone_iff_eq_none.mpr herror, List.all_eq_true.mpr hrows⟩)
      · simp [hcolumns]

/-- How the program of an import can end is what the file says. -/
theorem ends_importLeads {text : Str} {result : LeadsImportResult} {ws : List Write} :
    (importLeads rt size text).Ends result ws ↔
      ∃ leads, readFile rt text = .ok (result, leads) ∧ ws = leads.map Write.insert := by
  have hiff : ∀ us : List Lead, (importLeads rt size text).Ends result (us.map Write.insert) ↔
      readFile rt text = .ok (result, us) := by
    intro us
    -- an import asks the database nothing, so what it can end with it does end with
    -- on a table that takes everything
    have hrun : (importLeads rt size text).Ends result (us.map Write.insert) ↔
        (importLeads rt size text).run (openTo us) = .ok (result, (openTo us).add us) := by
      rw [(silent_importLeads text).run_iff]
      constructor
      · intro hends
        exact ⟨_, hends, applyAll_inserts.mpr ⟨fun _ => openTo_accepts, rfl⟩⟩
      · rintro ⟨ws, hends, happly⟩
        rw [← map_insert_lead ws] at hends happly
        have hleads := congrArg Database.leads (applyAll_inserts.mp happly).2
        rwa [List.append_cancel_left hleads]
    rw [hrun, run_importLeads, readFile_eq_ok]
    refine exists_congr fun reader => and_congr_right fun _ => and_congr_right fun _ =>
      and_congr_right fun _ => ?_
    constructor
    · rintro ⟨hhandled, hresult, hdb⟩
      have hleads := List.append_cancel_left (congrArg Database.leads hdb)
      refine ⟨fun row hrow => (handled_iff_legible.mp (hhandled row hrow)).1, hleads, ?_⟩
      rw [hleads]
      exact hresult
    · rintro ⟨hlegible, rfl, hresult⟩
      refine ⟨fun row hrow => handled_iff_legible.mpr ⟨hlegible row hrow, fun lead hlead => ?_⟩,
        hresult, rfl⟩
      exact openTo_accepts (List.mem_filterMap.mpr ⟨row, hrow, hlead⟩)
  constructor
  · intro hends
    refine ⟨ws.map Write.lead, (hiff _).mp ?_, (map_insert_lead ws).symm⟩
    rwa [map_insert_lead]
  · rintro ⟨leads, hread, rfl⟩
    exact (hiff leads).mpr hread

theorem raisesOnly_flush (s : Locals) : (flush s).RaisesOnly (· = internalServerError) := by
  unfold flush
  split
  · exact .done s
  · exact (Prog.RaisesOnly.after _ (.done ())).bind fun _ => .done _

theorem raisesOnly_importRow (header : Csv.Row) (i : Nat) (row : Csv.Row) (s : Locals) :
    (importRow rt size header i row s).RaisesOnly (· = internalServerError) := by
  unfold importRow
  split
  · unfold append
    dsimp only
    split
    · exact raisesOnly_flush _
    · exact .done _
  · split
    · exact .done _
    · exact .raise rfl

theorem raisesOnly_importRows (header : Csv.Row) (i : Nat) (rows : List Csv.Row) (s : Locals) :
    (importRows rt size header i rows s).RaisesOnly (· = internalServerError) := by
  induction rows generalizing i s with
  | nil => exact .done s
  | cons row rows ih =>
    exact (raisesOnly_importRow header i row s).bind fun s => ih (i + 1) s

theorem raisesOnly_importLeads {text : Str} {reader : Csv.DictReader}
    (hreader : Csv.dictReader text = .ok (some reader)) (hcolumns : HasColumns reader.fieldnames) :
    (importLeads rt size text).RaisesOnly (· = internalServerError) := by
  unfold importLeads
  simp only [hreader, if_pos hcolumns]
  refine (raisesOnly_importRows _ 2 _ _).bind fun s => ?_
  split
  · exact .raise rfl
  · exact (raisesOnly_flush s).bind fun _ => .done _

end Files

/-! ## Imports -/

section Imports

variable {rt : Runtime} {size : Nat} {s : LeadStore}

/-- The rows of a file, entered one after the other or not at all. -/
theorem enterAll_directory (rows : List Listings.Lead) :
    rows.foldlM Directory.enter s.directory =
      outcome (applyAll (rows.map fun row => LeadWrite.insert ⟨row⟩) s) := by
  induction rows generalizing s with
  | nil => rfl
  | cons row rows ih =>
    have hcons : applyAll ((row :: rows).map fun row => LeadWrite.insert ⟨row⟩) s =
        (s.apply (.insert ⟨row⟩)).bind
          (applyAll (rows.map fun row => LeadWrite.insert ⟨row⟩)) := rfl
    rw [List.foldlM_cons, hcons, enter_directory]
    cases s.apply (.insert ⟨row⟩) with
    | none => rfl
    | some m => exact ih

theorem ends_importUpload {upload : Upload} {result : LeadsImportResult} {ws : List LeadWrite} :
    (importUpload rt size upload).Ends result ws ↔
      ∃ leads, readFile rt upload.text = .ok (result, leads) ∧
        ws = (upload.drawn.rows leads).map fun row => .insert ⟨row⟩ := by
  have hsilent : (importLeads rt size upload.text).Silent := silent_importLeads _
  have hrows : ∀ leads : List Lead,
      Prog.numbered (fun _ => LeadWrite.insert) 0
          (Prog.numbered upload.drawn.insert 0 (leads.map Write.insert)) =
        (upload.drawn.rows leads).map fun row => LeadWrite.insert ⟨row⟩ := by
    intro leads
    rw [Drawn.rows, ← numbered_inserts 0 leads, List.map_map]
    exact Prog.numbered_const _ _ _
  unfold importUpload Upload.transaction
  rw [(hsilent.relabel 0).ends_relabel_iff]
  simp only [hsilent.ends_relabel_iff, ends_importLeads]
  constructor
  · rintro ⟨_, ⟨_, ⟨leads, hread, rfl⟩, rfl⟩, rfl⟩
    exact ⟨leads, hread, hrows leads⟩
  · rintro ⟨leads, hread, rfl⟩
    exact ⟨_, ⟨_, ⟨leads, hread, rfl⟩, rfl⟩, (hrows leads).symm⟩

theorem run_importUpload {upload : Upload} {result : LeadsImportResult} {s' : LeadStore} :
    (importUpload rt size upload).run s = .ok (result, s') ↔
      ∃ leads, readFile rt upload.text = .ok (result, leads) ∧
        applyAll ((upload.drawn.rows leads).map fun row => LeadWrite.insert ⟨row⟩) s = some s' := by
  have hsilent : (importLeads rt size upload.text).Silent := silent_importLeads _
  unfold importUpload Upload.transaction
  rw [((hsilent.relabel 0).relabel 0).run_iff]
  constructor
  · rintro ⟨ws, hends, happly⟩
    obtain ⟨leads, hread, rfl⟩ := ends_importUpload.mp hends
    exact ⟨leads, hread, happly⟩
  · rintro ⟨leads, hread, happly⟩
    exact ⟨_, ends_importUpload.mpr ⟨leads, hread, rfl⟩, happly⟩

/-- With the required columns, an import fails with a 500 only. -/
theorem error_importUpload {upload : Upload} {reader : Csv.DictReader} {e : HttpException}
    (hreader : Csv.dictReader upload.text = .ok (some reader))
    (hcolumns : HasColumns reader.fieldnames)
    (h : (importUpload rt size upload).run s = .error e) : e = internalServerError := by
  have hraises : (importLeads rt size upload.text).RaisesOnly (· = internalServerError) :=
    raisesOnly_importLeads hreader hcolumns
  exact ((hraises.relabel 0).relabel 0).run_error (P := (· = internalServerError)) rfl h

/-- A file that cannot be read. -/
theorem run_of_readFile_error {upload : Upload} {e : HttpException}
    (h : readFile rt upload.text = .error e) :
    (importUpload rt size upload).run s = .error e := by
  cases hreader : Csv.dictReader upload.text with
  | error e' =>
    simp only [readFile, hreader] at h
    cases h
    simp only [importUpload, Upload.transaction, importLeads, hreader]
    rfl
  | ok reader? =>
    cases reader? with
    | none =>
      simp only [readFile, hreader] at h
      cases h
      simp only [importUpload, Upload.transaction, importLeads, hreader]
      rfl
    | some reader =>
      by_cases hcolumns : HasColumns reader.fieldnames
      -- a record that is neither converted nor caught, or a reader that fails
      · cases hrun : (importUpload rt size upload).run s with
        | error e' =>
          obtain rfl := error_importUpload hreader hcolumns hrun
          simp only [readFile, hreader, if_pos hcolumns] at h
          split at h
          · cases h
          · cases h
            rfl
        | ok r =>
          obtain ⟨leads, hread, _⟩ := run_importUpload.mp hrun
          rw [h] at hread
          cases hread
      · simp only [readFile, hreader, if_neg hcolumns] at h
        cases h
        simp only [importUpload, Upload.transaction, importLeads, hreader, if_neg hcolumns]
        rfl

theorem seen_importUpload (upload : Upload) :
    seen ((importUpload rt size upload).run s) =
      (readFile rt upload.text).bind fun p =>
      ((upload.drawn.rows p.2).foldlM Directory.enter s.directory).map fun d => (p.1, d) := by
  cases hread : readFile rt upload.text with
  | error e =>
    rw [run_of_readFile_error hread]
    rfl
  | ok p =>
    obtain ⟨result, leads⟩ := p
    show _ = ((upload.drawn.rows leads).foldlM Directory.enter s.directory).map _
    rw [enterAll_directory]
    cases happly : applyAll ((upload.drawn.rows leads).map fun row => LeadWrite.insert ⟨row⟩) s with
    | some s' =>
      rw [run_importUpload.mpr ⟨leads, hread, happly⟩]
      rfl
    | none =>
      -- the file is well, and the table refuses one of its rows
      obtain ⟨reader, hreader, hcolumns, _⟩ := readFile_eq_ok.mp hread
      cases hrun : (importUpload rt size upload).run s with
      | error e =>
        rw [error_importUpload hreader hcolumns hrun]
        rfl
      | ok r =>
        obtain ⟨leads', hread', happly'⟩ := run_importUpload.mp hrun
        rw [hread] at hread'
        cases hread'
        rw [happly] at happly'
        cases happly'

end Imports

/-! ## Lists -/

section Lists

variable {D : Type} {service : Service D} {s : LeadStore}

/-- The conditions a list is built with, filter by filter. -/
theorem all_whereEq (campaignId : Option Int) (status : Option LeadStatus) (row : Listings.Lead) :
    ((whereEq (fun r : Listings.Lead => r.campaignId) campaignId ++
        whereEq Listings.Lead.status status).all fun p => p row) =
      Directory.Shows campaignId status (key row) (columns.rest row) := by
  cases campaignId <;> cases status <;> simp [whereEq, Directory.Shows] <;> rfl

theorem listLeads_eq (scan : Scan Listings.Lead) (campaignId : Option Int)
    (status : Option LeadStatus) (page pageSize : Nat) :
    Listings.listLeads scan service.modelValidate campaignId status page pageSize s.table.leads =
      ((pageOf page pageSize (listing columns.row (Directory.Shows campaignId status)
        s.directory.leads)).mapM service.modelValidate).map fun items =>
      ⟨items, (listing columns.row (Directory.Shows campaignId status) s.directory.leads).length,
        page, pageSize⟩ := by
  have hrows := Table.orderBy_desc columns scan (T := s.table.leads)
    (all_whereEq campaignId status)
  have htotal := Table.countP_eq columns (T := s.table.leads) (all_whereEq campaignId status)
  unfold Listings.listLeads listRows Page.validate
  simp only
  rw [htotal]
  exact congrArg (fun rows => ((pageOf page pageSize rows).mapM service.modelValidate).map _) hrows

theorem seen_of {α : Type} (f : α → Answer D) (handler : Handler α) :
    seen ((Answer.of f handler).run s) = (seen (handler.run s)).map (Prod.map f id) := by
  unfold Answer.of
  rw [Prog.run_bind]
  cases handler.run s <;> rfl

theorem answered {α : Type} (f : α → Answer D) (x : Except HttpException α) (d : Directory) :
    (x.map fun a => (a, d)).map (Prod.map f id) = x.bind fun a => .ok (f a, d) := by
  cases x <;> rfl

/-- **One request.** -/
theorem seen_handler (r : Request) :
    seen ((r.handler service).run s) = s.directory.request service r := by
  cases r with
  | listLeads scan campaignId status page pageSize =>
    refine (seen_of _ _).trans ?_
    rw [Prog.run_select_bind, run_orRaise, seen_map, listLeads_eq, answered]
    simp only [Directory.request]
    cases (pageOf page pageSize (listing columns.row (Directory.Shows campaignId status)
      s.directory.leads)).mapM service.modelValidate <;> rfl
  | getLead id =>
    refine (seen_of _ _).trans ?_
    rw [seen_getLead]
    simp only [Directory.request]
    cases s.directory.find id with
    | error e => rfl
    | ok row => exact answered _ _ _
  | createLead row =>
    refine (seen_of _ _).trans ?_
    rw [seen_createLead]
    simp only [Directory.request]
    cases s.directory.enter row with
    | error e => rfl
    | ok d => exact answered _ _ _
  | updateLead id set =>
    refine (seen_of _ _).trans ?_
    rw [seen_updateLead]
    simp only [Directory.request]
    cases s.directory.find id with
    | error e => rfl
    | ok row =>
      show Except.map _ ((s.directory.revise service.sameJson set row).bind _) =
        (s.directory.revise service.sameJson set row).bind _
      cases s.directory.revise service.sameJson set row with
      | error e => rfl
      | ok p => exact answered _ _ _
  | deleteLead id =>
    refine (seen_of _ _).trans ?_
    rw [seen_deleteLead]
    simp only [Directory.request]
    cases s.directory.find id with
    | error e => rfl
    | ok row =>
      show Except.map _ ((s.directory.remove row.id).map _) = (s.directory.remove row.id).bind _
      cases s.directory.remove row.id <;> rfl
  | importLeads upload =>
    refine (seen_of _ _).trans ?_
    rw [seen_importUpload]
    simp only [Directory.request]
    cases readFile service.runtime upload.text with
    | error e => rfl
    | ok p =>
      show Except.map _ (((upload.drawn.rows p.2).foldlM Directory.enter s.directory).map _) =
        ((upload.drawn.rows p.2).foldlM Directory.enter s.directory).bind _
      cases (upload.drawn.rows p.2).foldlM Directory.enter s.directory <;> rfl

/-- The directory, with a request that fails leaving it as it was. -/
def Directory.respond (service : Service D) (d : Directory) (r : Request) :
    Except HttpException (Answer D) × Directory := settle d (d.request service r)

theorem session_eq_settle {α : Type} (p : Handler α) : p.session s = settle s (p.run s) := by
  unfold Prog.session
  cases p.run s <;> rfl

theorem implements_directory :
    Implements LeadStore.directory (Leads.respond service) (Directory.respond service) := by
  have hsettle : Leads.respond service = fun s r => settle s ((r.handler service).run s) := by
    funext s r
    exact session_eq_settle _
  rw [hsettle]
  exact .of_settle fun s r => seen_handler r

end Lists

/-- **The handlers keep the directory.** Every run of requests to `/leads`, with
lists, single leads and whole files, is answered as the directory answers it,
and leaves a store that says what the directory has become. -/
theorem leads_kept {D : Type} (service : Service D) (s : LeadStore) (rs : List Request) :
    converse (Directory.respond service) s.directory rs =
      ((converse (respond service) s rs).1, (converse (respond service) s rs).2.directory) :=
  implements_directory.converse s rs

/-- Which rows were inserted first, or in which order a query meets them, cannot
be seen. -/
theorem answers_of_same_directory {D : Type} (service : Service D) {s t : LeadStore}
    (h : s.directory = t.directory) (rs : List Request) :
    (converse (respond service) s rs).1 = (converse (respond service) t rs).1 :=
  implements_directory.answers_eq h rs

end IsalesApi.Leads
