import IsalesApi.Leads.Records

/-!
# One malformed row more

Two texts are compared whose rows differ by one that is inserted. The inserted
row stays by itself exactly when it is reported and every other row is handled:
a row that is neither reported nor importable ends the whole request, and a
missing campaign id or an unknown campaign is never reported.
-/

namespace IsalesApi.Leads

open Foundation Python

/-- The second text has the rows of the first and one more after `before`. -/
structure Inserted (text text' : Str) (header : Csv.Row) (before : List Csv.Row) (row : Csv.Row)
    (after : List Csv.Row) (e : Option Csv.Error) : Prop where
  base : Csv.reader text = (header :: (before ++ after), e)
  inserted : Csv.reader text' = (header :: (before ++ row :: after), e)

/-- A text with one row is inserted wherever a row of the other ends. -/
theorem inserted_of_whole {a l b : Str} {header row : Csv.Row} {before : List Csv.Row}
    (ha : Csv.Whole a (header :: before)) (hl : Csv.Whole l [row]) :
    Inserted (a ++ b) (a ++ (l ++ b)) header before row (Csv.reader b).1 (Csv.reader b).2 where
  base := Csv.reader_append ha
  inserted := by
    rw [Csv.reader_append ha, Csv.reader_append hl]
    rfl

variable (rt : Runtime)

/-- The ways a data row is malformed: a cell is missing, the campaign id is not
an integer, the phone is empty, the custom data is not JSON, or there is no such
campaign. -/
inductive Malformed (db : Database) (header row : Csv.Row) : Prop where
  | missingCampaignId (h : get header row "campaign_id" = none)
  | missingPhone (h : get header row "phone" = none)
  | notAnInteger (h : BadCampaignId rt header row)
  | emptyPhone (h : phoneText header row = [])
  | notJson {e : Json.Error} (h : BadJson rt header row e)
  | unknownCampaign {c : Int} (h : HasCampaignId rt header row c) (hc : c ∉ db.campaigns)

/-- One more error entry, at number `n`; the numbers from there on shift. -/
def LeadsImportResult.withError (res : LeadsImportResult) (n : Nat) (msg : String) :
    LeadsImportResult where
  successCount := res.successCount
  errorCount := res.errorCount + 1
  errors := res.errors.filter (fun e => e.row < n) ++ ⟨n, msg⟩ ::
    (res.errors.filter fun e => n ≤ e.row).map fun e => { e with row := e.row + 1 }

/-- Both imports return and leave the same leads, and the second has one more
error entry, at number `n`. -/
def Isolates (size : Nat) (db : Database) (text text' : Str) (n : Nat) : Prop :=
  ∃ res msg db', (importLeads rt size text).session db = (.ok res, db') ∧
    (importLeads rt size text').session db = (.ok (res.withError n msg), db')

/-- The number of the row after these. -/
def rowNumber (before : List Csv.Row) : Nat := (before.filter (· ≠ [])).length + 2

section Insertion

variable {rt} {size : Nat} {db db' : Database} {header row : Csv.Row}
  {before after rows : List Csv.Row} {text text' : Str} {e : Option Csv.Error}

/-- A malformed row is not importable: a missing phone is an empty one, and the
foreign key refuses an unknown campaign. -/
theorem Malformed.not_importable (h : Malformed rt db header row) :
    ¬ Importable rt header row db := by
  rintro ⟨c, v, hc, hphone, hv, haccepts⟩
  obtain ⟨t, hcell, hint⟩ := hc
  cases h with
  | missingCampaignId h =>
    rw [h] at hcell
    cases hcell
  | missingPhone h =>
    refine hphone ?_
    unfold phoneText
    rw [h]
    rfl
  | notAnInteger h =>
    obtain ⟨t', msg, hcell', hbad⟩ := h
    rw [hcell] at hcell'
    cases hcell'
    rw [hint] at hbad
    cases hbad
  | emptyPhone h => exact hphone h
  | notJson h =>
    rcases hv with hv | ⟨hblank, _⟩
    · have hraises := h.2
      rw [hv.2] at hraises
      cases hraises
    · exact h.1 hblank
  | unknownCampaign h hunknown =>
    obtain ⟨t', hcell', hint'⟩ := h
    rw [hcell] at hcell'
    cases hcell'
    rw [hint] at hint'
    cases hint'
    exact hunknown haccepts.1

theorem reports_append {i : Nat} {rows' : List Csv.Row} :
    reports rt header i (rows ++ rows') =
      reports rt header i rows ++ reports rt header (i + rows.length) rows' := by
  unfold reports
  rw [List.zipIdx_append, List.filterMap_append]

/-- The reports of rows that come one later. -/
theorem reports_succ {i : Nat} :
    reports rt header (i + 1) rows =
      (reports rt header i rows).map fun e => { e with row := e.row + 1 } := by
  induction rows generalizing i with
  | nil => rfl
  | cons row rows ih =>
    have hrow : reported rt header (row, i + 1) =
        (reported rt header (row, i)).map fun e => { e with row := e.row + 1 } := by
      unfold reported
      cases convert rt header row with
      | ok lead => rfl
      | error e => cases hcaught : e.caught <;> simp [hcaught]
    rw [reports_cons, reports_cons, List.map_append, ih, hrow]
    cases reported rt header (row, i) <;> rfl

/-- The numbers of reports are those of the rows. -/
theorem row_mem_reports {i : Nat} {x : LeadsImportError} (h : x ∈ reports rt header i rows) :
    i ≤ x.row ∧ x.row < i + rows.length := by
  obtain ⟨p, hp, hx⟩ := List.mem_filterMap.mp h
  have hnumber := List.mem_zipIdx hp
  have hrow : x.row = p.2 := by
    unfold reported at hx
    split at hx
    · cases hx
    · obtain ⟨msg, _, rfl⟩ := Option.map_eq_some_iff.mp hx
      rfl
  omega

/-- The reports with one row inserted. -/
theorem errors_withError {i s : Nat} {msg : String} {p : Nat} {rows' : List Csv.Row}
    (hreported : reported rt header (row, i + rows.length) = some ⟨i + rows.length, msg⟩) :
    (⟨s, p + 1, reports rt header i (rows ++ row :: rows')⟩ : LeadsImportResult) =
      LeadsImportResult.withError ⟨s, p, reports rt header i (rows ++ rows')⟩ (i + rows.length)
        msg := by
  unfold LeadsImportResult.withError
  rw [reports_append, reports_append, reports_cons, hreported, reports_succ]
  have hbefore : (reports rt header i rows).filter (fun x => x.row < i + rows.length) =
      reports rt header i rows := by
    rw [List.filter_eq_self]
    intro x hx
    simpa using (row_mem_reports hx).2
  have hbefore' : (reports rt header i rows).filter (fun x => i + rows.length ≤ x.row) = [] := by
    rw [List.filter_eq_nil_iff]
    intro x hx
    have hlt := (row_mem_reports hx).2
    simpa using hlt
  have hafter : (reports rt header (i + rows.length) rows').filter
      (fun x => x.row < i + rows.length) = [] := by
    rw [List.filter_eq_nil_iff]
    intro x hx
    have hle := (row_mem_reports hx).1
    simpa using hle
  have hafter' : (reports rt header (i + rows.length) rows').filter
      (fun x => i + rows.length ≤ x.row) = reports rt header (i + rows.length) rows' := by
    rw [List.filter_eq_self]
    intro x hx
    simpa using (row_mem_reports hx).1
  simp only [List.filter_append, hbefore, hbefore', hafter, hafter', List.append_nil,
    List.nil_append, Option.toList_some, List.singleton_append]

theorem length_reports_inserted {i : Nat} {x : LeadsImportError} {rows' : List Csv.Row}
    (hreported : reported rt header (row, i + rows.length) = some x) :
    (reports rt header i (rows ++ row :: rows')).length =
      (reports rt header i (rows ++ rows')).length + 1 := by
  have hlater : (reports rt header (i + rows.length + 1) rows').length =
      (reports rt header (i + rows.length) rows').length := by
    rw [reports_succ, List.length_map]
  rw [reports_append, reports_append, reports_cons, hreported, List.length_append,
    List.length_append, List.length_append, hlater]
  simp only [Option.toList_some, List.length_singleton]
  omega

/-- What an import of these rows returns. -/
theorem session_importLeads {res : LeadsImportResult} (hcolumns : HasColumns header)
    (hreader : Csv.reader text = (header :: rows, e)) :
    (importLeads rt size text).session db = (.ok res, db') ↔
      e = none ∧ (∀ r ∈ rows.filter (· ≠ []), Handled rt db header r) ∧
        res = ⟨((rows.filter (· ≠ [])).filterMap (converted rt header)).length,
          (reports rt header 2 (rows.filter (· ≠ []))).length,
          reports rt header 2 (rows.filter (· ≠ []))⟩ ∧
        db' = db.add ((rows.filter (· ≠ [])).filterMap (converted rt header)) := by
  have hdict : Csv.dictReader text = .ok (some ⟨header, rows.filter (· ≠ []), e⟩) := by
    simp only [Csv.dictReader, hreader]
  rw [Prog.session_ok, run_importLeads, hdict]
  simp only [Except.ok.injEq, Option.some.injEq, exists_eq_left', hcolumns, true_and]

end Insertion

/-- **A malformed row stays by itself exactly when** it is reported, every other
row is reported or importable, and the reader raises nothing. -/
theorem import_isolates_iff (rt : Runtime) (size : Nat) (db : Database) (text text' : Str)
    (header : Csv.Row) (before : List Csv.Row) (row : Csv.Row) (after : List Csv.Row)
    (e : Option Csv.Error) (hinserted : Inserted text text' header before row after e)
    (hcolumns : HasColumns header) (hrow : row ≠ []) (hbad : Malformed rt db header row) :
    Isolates rt size db text text' (rowNumber before) ↔
      Reportable rt header row ∧ e = none ∧
        ∀ r ∈ before ++ after, r ≠ [] → Reportable rt header r ∨ Importable rt header r db := by
  have hfilter : (before ++ row :: after).filter (· ≠ []) =
      before.filter (· ≠ []) ++ row :: after.filter (· ≠ []) := by
    rw [List.filter_append, List.filter_cons, if_pos (by simpa using hrow)]
  unfold Isolates rowNumber
  simp only [session_importLeads hcolumns hinserted.base,
    session_importLeads hcolumns hinserted.inserted, hfilter]
  constructor
  · rintro ⟨res, msg, db', ⟨rfl, hothers, _, _⟩, _, hall, _, _⟩
    refine ⟨?_, rfl, fun r hr hne => ?_⟩
    · have hhandled := hall row (by simp)
      exact ((handled_iff hcolumns).mp hhandled).resolve_right hbad.not_importable
    · exact (handled_iff hcolumns).mp (hothers r (List.mem_filter.mpr ⟨hr, by simpa using hne⟩))
  · rintro ⟨hreportable, rfl, hothers⟩
    obtain ⟨x, hconvert, hcaught⟩ := (convert_caught hcolumns).mpr hreportable
    obtain ⟨msg, hmsg⟩ := Option.isSome_iff_exists.mp hcaught
    have hreported : ∀ n, reported rt header (row, n) = some ⟨n, msg⟩ := by
      intro n
      simp [reported, hconvert, hmsg]
    have hconverted : converted rt header row = none := by
      simp [converted, hconvert, Except.toOption]
    have hhandled : ∀ r ∈ (before ++ after).filter (· ≠ []), Handled rt db header r := by
      intro r hr
      obtain ⟨hmem, hne⟩ := List.mem_filter.mp hr
      exact (handled_iff hcolumns).mpr (hothers r hmem (by simpa using hne))
    have hleads : (before.filter (· ≠ []) ++ row :: after.filter (· ≠ [])).filterMap
        (converted rt header) =
        ((before ++ after).filter (· ≠ [])).filterMap (converted rt header) := by
      rw [List.filterMap_append, List.filterMap_cons, hconverted, List.filter_append,
        List.filterMap_append]
    refine ⟨_, msg, _, ⟨rfl, hhandled, rfl, rfl⟩, rfl, ?_, ?_, ?_⟩
    · intro r hr
      rcases List.mem_append.mp hr with hr | hr
      · exact hhandled r (by rw [List.filter_append]; exact List.mem_append_left _ hr)
      · rcases List.mem_cons.mp hr with rfl | hr
        · exact (handled_iff hcolumns).mpr (Or.inl hreportable)
        · exact hhandled r (by rw [List.filter_append]; exact List.mem_append_right _ hr)
    · rw [hleads, List.filter_append, Nat.add_comm _ 2,
        ← errors_withError (hreported _), length_reports_inserted (hreported _)]
    · rw [hleads]

/-! ## A row without its campaign id -/

def firstLead : Str := "phone,campaign_id\n11,1\n".toList

def secondLead : Str := "13,1\n".toList

/-- The row has a phone and ends there. -/
def shortRow : Str := "12\n".toList

def shortHeader : Csv.Row := ["phone".toList, "campaign_id".toList]

theorem inserted_shortRow :
    Inserted (firstLead ++ secondLead) (firstLead ++ (shortRow ++ secondLead)) shortHeader
      [["11".toList, "1".toList]] ["12".toList] [["13".toList, "1".toList]] none :=
  inserted_of_whole ⟨Or.inr rfl, rfl⟩ ⟨Or.inr rfl, rfl⟩

theorem malformed_shortRow (db : Database) : Malformed cpython db shortHeader ["12".toList] :=
  .missingCampaignId rfl

/-- `int(None)` is not caught, so the row fails the whole import. -/
theorem shortRow_fails_import :
    Inserted (firstLead ++ secondLead) (firstLead ++ (shortRow ++ secondLead)) shortHeader
      [["11".toList, "1".toList]] ["12".toList] [["13".toList, "1".toList]] none ∧
    Malformed cpython oneCampaign shortHeader ["12".toList] ∧
    ¬ Isolates cpython batchSize oneCampaign (firstLead ++ secondLead)
      (firstLead ++ (shortRow ++ secondLead)) 3 := by
  refine ⟨inserted_shortRow, malformed_shortRow oneCampaign, ?_⟩
  rintro ⟨res, msg, db', _, h⟩
  have hfails : (importLeads cpython batchSize (firstLead ++ (shortRow ++ secondLead))).session
      oneCampaign = (.error internalServerError, oneCampaign) := rfl
  rw [hfails] at h
  cases h

/-- The row ends before its phone begins. -/
def noPhoneRow : Str := ",1\n".toList

theorem inserted_noPhoneRow :
    Inserted (firstLead ++ secondLead) (firstLead ++ (noPhoneRow ++ secondLead)) shortHeader
      [["11".toList, "1".toList]] [[], "1".toList] [["13".toList, "1".toList]] none :=
  inserted_of_whole ⟨Or.inr rfl, rfl⟩ ⟨Or.inr rfl, rfl⟩

/-- The empty phone is reported, so this row stays by itself. -/
theorem noPhoneRow_isolated : Isolates cpython batchSize oneCampaign (firstLead ++ secondLead)
    (firstLead ++ (noPhoneRow ++ secondLead)) (rowNumber [["11".toList, "1".toList]]) :=
  ⟨⟨2, 0, []⟩, "phone is empty", _, rfl, rfl⟩

theorem import_isolates_iff_shortRow :
    (Isolates cpython batchSize oneCampaign (firstLead ++ secondLead)
        (firstLead ++ (shortRow ++ secondLead)) (rowNumber [["11".toList, "1".toList]]) ↔
      Reportable cpython shortHeader ["12".toList] ∧ (none : Option Csv.Error) = none ∧
        ∀ r ∈ [["11".toList, "1".toList]] ++ [["13".toList, "1".toList]], r ≠ [] →
          Reportable cpython shortHeader r ∨ Importable cpython shortHeader r oneCampaign) ∧
      Isolates cpython batchSize oneCampaign (firstLead ++ secondLead)
        (firstLead ++ (noPhoneRow ++ secondLead)) (rowNumber [["11".toList, "1".toList]]) ∧
      Reportable cpython shortHeader [[], "1".toList] := by
  have hshort := import_isolates_iff cpython batchSize oneCampaign _ _ _ _ _ _ _
    inserted_shortRow (by decide) (by decide) (malformed_shortRow oneCampaign)
  have hnoPhone := import_isolates_iff cpython batchSize oneCampaign _ _ _ _ _ _ _
    inserted_noPhoneRow (by decide) (by decide) (.emptyPhone rfl)
  exact ⟨hshort, noPhoneRow_isolated, (hnoPhone.mp noPhoneRow_isolated).1⟩

end IsalesApi.Leads
