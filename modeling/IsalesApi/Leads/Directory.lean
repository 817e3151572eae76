import IsalesApi.Foundation.Directory
import IsalesApi.Foundation.Replies
import IsalesApi.Leads.Handlers

/-!
# The directory of leads

What `/leads` is for: a finite map from ids to entries that is read, listed,
extended, revised and cut, and that takes a file as a whole or not at all. The
directory knows neither the order of the rows, nor batches, nor which columns an
`UPDATE` sends. The handlers answer every run of requests as it does.
-/

namespace IsalesApi.Leads

open Foundation Listings Python

/-! ## The directory -/

/-- A lead but for its id. -/
structure Entry extends Lead where
  status : LeadStatus

def columns : Columns Listings.Lead Entry where
  rest row := ⟨row.toLead, row.status⟩
  row id entry := ⟨entry.toLead, id, entry.status⟩
  key_row _ _ := rfl
  rest_row _ _ := rfl
  row_rest _ := rfl

structure Directory where
  campaigns : List Int
  rowOk : Lead → Bool
  referenced : List Int
  leads : Finmap fun _ : Int => Entry

/-- Each assigned value is the one that is there. -/
def LeadSet.Agrees (sameJson : Json → Json → Bool) (set : LeadSet) (row : Listings.Lead) : Prop :=
  (∀ v ∈ set.campaignId, v = some row.campaignId) ∧ (∀ v ∈ set.phone, v = some row.phone) ∧
    (∀ v ∈ set.name, v = row.name) ∧ (∀ v ∈ set.source, v = row.source) ∧
    (∀ v ∈ set.customData, sameJson v row.customData = true) ∧
    ∀ v ∈ set.status, v = some row.status

instance (sameJson : Json → Json → Bool) (set : LeadSet) (row : Listings.Lead) :
    Decidable (set.Agrees sameJson row) := inferInstanceAs (Decidable (_ ∧ _))

/-- The row with the assigned values. Custom data that is the same stays. -/
def LeadSet.revise (sameJson : Json → Json → Bool) (set : LeadSet) (row : Listings.Lead) :
    Option Listings.Lead := do
  let campaignId ← set.campaignId.getD (some row.campaignId)
  let phone ← set.phone.getD (some row.phone)
  let status ← set.status.getD (some row.status)
  return {
    campaignId := campaignId
    phone := phone
    name := set.name.getD row.name
    source := set.source.getD row.source
    customData :=
      match set.customData with
      | some v => if sameJson v row.customData then row.customData else v
      | none => row.customData
    id := row.id
    status := status }

/-- Every record converts or is caught. -/
def Legible (rt : Runtime) (header row : Csv.Row) : Bool :=
  match convert rt header row with
  | .ok _ => true
  | .error e => e.caught.isSome

/-- What a file says: its leads, and what is answered when they are taken. -/
def readFile (rt : Runtime) (text : Str) :
    Except HttpException (LeadsImportResult × List Lead) :=
  match Csv.dictReader text with
  | .error _ => .error internalServerError
  | .ok none => .error missingColumns
  | .ok (some reader) =>
    if HasColumns reader.fieldnames then
      if reader.error.isNone && reader.records.all (Legible rt reader.fieldnames) then
        let leads := reader.records.filterMap (converted rt reader.fieldnames)
        let errors := reports rt reader.fieldnames 2 reader.records
        .ok (⟨leads.length, errors.length, errors⟩, leads)
      else .error internalServerError
    else .error missingColumns

namespace Directory

variable {D : Type}

def Accepts (d : Directory) (lead : Lead) : Prop :=
  lead.campaignId ∈ d.campaigns ∧ d.rowOk lead = true

instance (d : Directory) (lead : Lead) : Decidable (d.Accepts lead) :=
  inferInstanceAs (Decidable (_ ∧ _))

def find (d : Directory) (id : Int) : Except HttpException Listings.Lead :=
  match d.leads.lookup id with
  | none => .error (notFound "lead_not_found")
  | some entry => .ok (columns.row id entry)

def put (d : Directory) (row : Listings.Lead) : Directory :=
  { d with leads := d.leads.insert row.id (columns.rest row) }

def enter (d : Directory) (row : Listings.Lead) : Except HttpException Directory :=
  if row.id ∉ d.leads ∧ d.Accepts row.toLead then .ok (d.put row) else .error internalServerError

/-- Values that agree with those that are there leave the row alone. -/
def revise (sameJson : Json → Json → Bool) (d : Directory) (set : LeadSet)
    (row : Listings.Lead) : Except HttpException (Listings.Lead × Directory) :=
  if set.Agrees sameJson row then .ok (row, d)
  else
    match set.revise sameJson row with
    | none => .error internalServerError
    | some row' =>
      if d.Accepts row'.toLead then .ok (row', d.put row') else .error internalServerError

def remove (d : Directory) (id : Int) : Except HttpException Directory :=
  if id ∈ d.referenced then .error internalServerError
  else .ok { d with leads := d.leads.erase id }

/-- Which entries a list shows. -/
def Shows (campaignId : Option Int) (status : Option LeadStatus) (_ : Int) (entry : Entry) : Bool :=
  campaignId.all (fun c => entry.campaignId = c) && status.all fun v => entry.status = v

def request (service : Service D) (d : Directory) :
    Request → Except HttpException (Answer D × Directory)
  | .listLeads _ campaignId status page pageSize => do
    let rows := listing columns.row (Shows campaignId status) d.leads
    let items ← (pageOf page pageSize rows).mapM service.modelValidate
    return (.page ⟨items, rows.length, page, pageSize⟩, d)
  | .getLead id => do
    let row ← d.find id
    return (.lead (← service.modelValidate row), d)
  | .createLead row => do
    let d' ← d.enter row
    return (.lead (← service.modelValidate row), d')
  | .updateLead id set => do
    let (row, d') ← d.revise service.sameJson set (← d.find id)
    return (.lead (← service.modelValidate row), d')
  | .deleteLead id => do
    let row ← d.find id
    return (.noContent, ← d.remove row.id)
  | .importLeads upload => do
    let (result, leads) ← readFile service.runtime upload.text
    return (.imported result, ← (upload.drawn.rows leads).foldlM enter d)

end Directory

/-- What a store says. -/
def LeadStore.directory (s : LeadStore) : Directory where
  campaigns := s.table.campaigns
  rowOk := s.table.rowOk
  referenced := s.referenced
  leads := s.table.leads.toMap columns

/-! ## Statements -/

section Statements

variable {s s' : LeadStore} {id : Int} {row : Listings.Lead} {sameJson : Json → Json → Bool}
  {set : LeadSet}

theorem lookup_directory (id : Int) :
    s.directory.leads.lookup id = (s.lead id).map columns.rest := Table.lookup_toMap columns id

theorem find_of_some (h : s.lead id = some row) : s.directory.find id = .ok row := by
  obtain ⟨_, rfl⟩ := LeadStore.lead_eq_some.mp h
  rw [Directory.find, lookup_directory, h]
  rfl

theorem find_of_none (h : s.lead id = none) :
    s.directory.find id = .error (notFound "lead_not_found") := by
  rw [Directory.find, lookup_directory, h]
  rfl

theorem mem_directory : id ∈ s.directory.leads ↔ ∃ row ∈ s.table.leads, row.id = id :=
  Table.mem_toMap columns

theorem accepts_directory (lead : Lead) :
    s.directory.Accepts lead ↔ s.table.toDatabase.accepts lead := Iff.rfl

/-- What a request makes of a statement. -/
def outcome : Option LeadStore → Except HttpException Directory
  | none => .error internalServerError
  | some s => .ok s.directory

/-- An `INSERT` enters a lead, or is refused. -/
theorem enter_directory (row : Listings.Lead) :
    s.directory.enter row = outcome (s.apply (.insert ⟨row⟩)) := by
  unfold Directory.enter
  simp only [LeadStore.apply, LeadTable.apply]
  by_cases haccepts : s.table.toDatabase.accepts row.toLead
  · rw [if_pos haccepts]
    cases hinsert : s.table.leads.insert row with
    | none =>
      have htaken : row.id ∈ s.directory.leads :=
        mem_directory.mpr (Table.insert_eq_none.mp hinsert)
      rw [if_neg fun h => h.1 htaken]
      rfl
    | some leads =>
      have hfree : row.id ∉ s.directory.leads := by
        rw [mem_directory]
        rintro ⟨r, hr, hid⟩
        exact (Table.insert_eq_some.mp hinsert).1 r hr hid
      rw [if_pos ⟨hfree, haccepts⟩]
      simp only [Option.map_some, outcome, LeadStore.directory, Directory.put,
        Table.toMap_insert columns hinsert]
      rfl
  · rw [if_neg haccepts, if_neg fun h => haccepts h.2]
    rfl

/-- A `DELETE` removes a lead, or is refused. -/
theorem remove_directory (id : Int) :
    s.directory.remove id = outcome (s.apply (.delete id)) := by
  show (if id ∈ s.referenced then _ else _) = _
  simp only [LeadStore.apply]
  by_cases href : id ∈ s.referenced
  · rw [if_pos href, if_pos href]
    rfl
  · rw [if_neg href, if_neg href]
    have hkey : ∀ r : Listings.Lead, decide (r.id = id) = true ↔ key r = id := fun r =>
      decide_eq_true_iff
    simp only [outcome, LeadStore.directory, LeadStore.setLeads, Table.toMap_delete columns hkey]

/-! ### `UPDATE` -/

theorem changed_isNone_iff {α : Type} [DecidableEq α] {assigned : Option α} {loaded : α} :
    (changed assigned loaded).isNone = true ↔ ∀ v ∈ assigned, v = loaded := by
  cases assigned with
  | none => simp [changed]
  | some v => by_cases h : v = loaded <;> simp [changed, Option.filter, h]

theorem isEmpty_against_iff :
    (set.against sameJson row).isEmpty = true ↔ set.Agrees sameJson row := by
  have hjson : (set.customData.filter fun v => !sameJson v row.customData).isNone = true ↔
      ∀ v ∈ set.customData, sameJson v row.customData = true := by
    rw [Option.isNone_iff_eq_none, Option.filter_eq_none_iff]
    simp
  simp only [LeadSet.isEmpty, LeadSet.against, Bool.and_eq_true, changed_isNone_iff, hjson,
    LeadSet.Agrees, and_assoc]

/-- What is sent of a column that is not nullable, and what is assigned to it. -/
theorem changed_eq_none_iff {α : Type} [DecidableEq α] {assigned : Option (Option α)} {loaded : α} :
    changed assigned (some loaded) = some none ↔ assigned.getD (some loaded) = none := by
  rcases assigned with _ | _ | v
  · simp [changed]
  · simp [changed, Option.filter]
  · by_cases h : v = loaded <;> simp [changed, Option.filter, h]

theorem changed_getD_getD {α : Type} [DecidableEq α] {assigned : Option (Option α)} {loaded v : α}
    (h : assigned.getD (some loaded) = some v) :
    ((changed assigned (some loaded)).getD none).getD loaded = v := by
  rcases assigned with _ | _ | w
  · simpa [changed] using h
  · simp at h
  · obtain rfl : w = v := by simpa using h
    by_cases hw : w = loaded <;> simp [changed, Option.filter, hw]

theorem filter_getD {assigned : Option Json} {loaded : Json} :
    (assigned.filter fun v => !sameJson v loaded).getD loaded =
      match assigned with
      | some v => if sameJson v loaded then loaded else v
      | none => loaded := by
  cases assigned with
  | none => rfl
  | some v => by_cases h : sameJson v loaded = true <;> simp [Option.filter, h]

/-- The columns an `UPDATE` sends make the revised row. -/
theorem revise_eq_some_iff {row' : Listings.Lead} :
    set.revise sameJson row = some row' ↔
      (set.against sameJson row).NotNull ∧ (set.against sameJson row).applyTo row = row' := by
  simp only [LeadSet.NotNull, LeadSet.against, ne_eq, changed_eq_none_iff]
  unfold LeadSet.revise
  cases hcampaign : set.campaignId.getD (some row.campaignId) with
  | none => simp
  | some campaignId =>
    cases hphone : set.phone.getD (some row.phone) with
    | none => simp
    | some phone =>
      cases hstatus : set.status.getD (some row.status) with
      | none => simp
      | some status =>
        simp [LeadSet.applyTo, changed_getD_getD hcampaign, changed_getD_getD hphone,
          changed_getD_getD hstatus, changed_getD, filter_getD]

theorem admits_iff {sent : LeadSet} (h : s.lead id = some row) :
    s.Admits id sent ↔ sent.NotNull ∧ s.directory.Accepts (sent.applyTo row).toLead := by
  unfold LeadStore.Admits
  simp only [h, Option.mem_def, Option.some.injEq, forall_eq', accepts_directory]

theorem lead_updated {sent : LeadSet} (h : s.lead id = some row) :
    (s.setLeads (s.updated id sent)).lead id = some (sent.applyTo row) := by
  have hkey : ∀ r : Listings.Lead, decide (r.id = id) = true ↔ key r = id := fun r =>
    decide_eq_true_iff
  refine (Table.get?_update sent.key_applyTo hkey id).trans ?_
  rw [if_pos rfl]
  exact congrArg (Option.map sent.applyTo) h

theorem put_directory {sent : LeadSet} (h : s.lead id = some row) :
    s.directory.put (sent.applyTo row) = (s.setLeads (s.updated id sent)).directory := by
  obtain ⟨_, rfl⟩ := LeadStore.lead_eq_some.mp h
  have hkey : ∀ r : Listings.Lead, decide (r.id = row.id) = true ↔ key r = row.id := fun r =>
    decide_eq_true_iff
  simp only [LeadStore.directory, LeadStore.setLeads, LeadStore.updated, Directory.put,
    Table.toMap_update columns sent.key_applyTo hkey h]
  rfl

end Statements

/-! ## Handlers -/

section Handlers

variable {D : Type} {modelValidate : Listings.Lead → Except HttpException D}
  {sameJson : Json → Json → Bool} {s : LeadStore}

/-- The end of a request, with the store it leaves seen as a directory. -/
def seen {α : Type} (r : Except HttpException (α × LeadStore)) :
    Except HttpException (α × Directory) := r.map (Prod.map id LeadStore.directory)

theorem run_orRaise {α : Type} (x : Except HttpException α) :
    (orRaise x).run s = x.map fun a => (a, s) := by
  cases x <;> rfl

theorem run_refreshed {id : Int} {row : Listings.Lead} (h : s.lead id = some row) :
    (refreshed modelValidate id).run s = (modelValidate row).map fun read => (read, s) := by
  unfold refreshed
  rw [Prog.run_select_bind, h]
  exact run_orRaise _

theorem seen_map {α : Type} (x : Except HttpException α) :
    seen (x.map fun a => (a, s)) = x.map fun a => (a, s.directory) := by
  cases x <;> rfl

theorem seen_getLead (id : Int) :
    seen ((Leads.getLead modelValidate id).run s) =
      (s.directory.find id).bind fun row =>
      (modelValidate row).map fun read => (read, s.directory) := by
  unfold Leads.getLead
  cases h : s.lead id with
  | none =>
    rw [run_getOr404_none h, find_of_none h]
    rfl
  | some row =>
    rw [run_getOr404_some h, find_of_some h]
    show seen ((orRaise (modelValidate row)).run s) = _
    rw [run_orRaise]
    exact seen_map _

theorem seen_createLead (row : Listings.Lead) :
    seen ((Leads.createLead modelValidate row).run s) =
      (s.directory.enter row).bind fun d =>
      (modelValidate row).map fun read => (read, d) := by
  unfold Leads.createLead
  rw [enter_directory]
  cases happly : s.apply (.insert ⟨row⟩) with
  | none =>
    rw [Prog.run_bind, Prog.run_exec_refused happly]
    rfl
  | some s' =>
    have hrow : s'.lead row.id = some row := by
      obtain ⟨table, htable, rfl⟩ := Option.map_eq_some_iff.mp happly
      refine LeadStore.lead_eq_some.mpr ⟨?_, rfl⟩
      show row ∈ table.leads.rows
      rw [(apply_rowInsert htable).2.1]
      exact List.mem_append_right _ (List.mem_singleton.mpr rfl)
    rw [Prog.run_bind, (Prog.run_exec_ok (u := ())).mpr happly]
    show seen ((refreshed modelValidate row.id).run s') = _
    rw [run_refreshed hrow]
    exact seen_map _

theorem seen_updateLead (id : Int) (set : LeadSet) :
    seen ((Leads.updateLead modelValidate sameJson id set).run s) =
      (s.directory.find id).bind fun row =>
      (s.directory.revise sameJson set row).bind fun p =>
      (modelValidate p.1).map fun read => (read, p.2) := by
  unfold Leads.updateLead
  cases h : s.lead id with
  | none =>
    rw [run_getOr404_none h, find_of_none h]
    rfl
  | some row =>
    rw [run_getOr404_some h, find_of_some h]
    obtain ⟨_, rfl⟩ := LeadStore.lead_eq_some.mp h
    show _ = (s.directory.revise sameJson set row).bind _
    unfold Directory.revise flushLead
    rw [Prog.run_bind]
    by_cases hagrees : set.Agrees sameJson row
    · -- nothing differs, and no statement is sent
      rw [if_pos hagrees, if_pos (isEmpty_against_iff.mpr hagrees)]
      show seen ((refreshed modelValidate row.id).run s) = _
      rw [run_refreshed h]
      exact seen_map _
    · rw [if_neg hagrees, if_neg fun hempty => hagrees (isEmpty_against_iff.mp hempty)]
      by_cases hadmits : s.Admits row.id (set.against sameJson row)
      · obtain ⟨hnotNull, haccepts⟩ := (admits_iff h).mp hadmits
        have happly : Store.apply (LeadWrite.update row.id (set.against sameJson row)) s =
            some (s.setLeads (s.updated row.id (set.against sameJson row))) := if_pos hadmits
        rw [(Prog.run_exec_ok (u := ())).mpr happly, revise_eq_some_iff.mpr ⟨hnotNull, rfl⟩]
        show seen ((refreshed modelValidate row.id).run _) = _
        rw [run_refreshed (lead_updated h), seen_map, ← put_directory h]
        simp only [if_pos haccepts]
        rfl
      · have hrefused : Store.apply (LeadWrite.update row.id (set.against sameJson row)) s =
            none := if_neg hadmits
        -- a null where none may be, or a row that the constraints refuse
        rw [Prog.run_exec_refused hrefused]
        cases hrevise : set.revise sameJson row with
        | none => rfl
        | some row' =>
          obtain ⟨hnotNull, rfl⟩ := revise_eq_some_iff.mp hrevise
          simp only [if_neg fun haccepts => hadmits ((admits_iff h).mpr ⟨hnotNull, haccepts⟩)]
          rfl

theorem seen_deleteLead (id : Int) :
    seen ((Leads.deleteLead id).run s) =
      (s.directory.find id).bind fun row =>
      (s.directory.remove row.id).map fun d => ((), d) := by
  unfold Leads.deleteLead
  cases h : s.lead id with
  | none =>
    rw [run_getOr404_none h, find_of_none h]
    rfl
  | some row =>
    rw [run_getOr404_some h, find_of_some h]
    show _ = (s.directory.remove row.id).map _
    rw [remove_directory]
    cases happly : s.apply (.delete row.id) with
    | none =>
      rw [Prog.run_exec_refused happly]
      rfl
    | some s' =>
      rw [Prog.run_exec_ok.mpr happly]
      rfl

end Handlers

end IsalesApi.Leads
