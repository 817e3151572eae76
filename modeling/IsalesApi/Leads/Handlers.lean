import IsalesApi.Leads.Overlap

/-!
# Reading and writing leads

The other handlers of `/leads`, and `import_leads` among them, on one store. The
fields of `LeadCreate`, `LeadUpdate` and `LeadRead` are not part of this
repository: a request carries what the dump of its payload assigns, and
`model_validate` may refuse a row.
-/

namespace IsalesApi.Leads

open Foundation Listings Python

/-! ## The store -/

/-- What is assigned to the columns of a loaded lead; those that are not
nullable may be assigned `None` as well. -/
structure LeadSet where
  campaignId : Option (Option Int)
  phone : Option (Option Str)
  name : Option (Option Str)
  source : Option (Option Str)
  customData : Option Json
  status : Option (Option LeadStatus)

/-- The changes pending on a loaded row: only what differs is sent. `sameJson` is
`==` on what JSON is loaded into. -/
def LeadSet.against (sameJson : Json → Json → Bool) (set : LeadSet) (row : Listings.Lead) :
    LeadSet where
  campaignId := changed set.campaignId (some row.campaignId)
  phone := changed set.phone (some row.phone)
  name := changed set.name row.name
  source := changed set.source row.source
  customData := set.customData.filter fun v => !sameJson v row.customData
  status := changed set.status (some row.status)

def LeadSet.isEmpty (set : LeadSet) : Bool :=
  set.campaignId.isNone && set.phone.isNone && set.name.isNone && set.source.isNone &&
    set.customData.isNone && set.status.isNone

/-- No column that is not nullable is set to `None`. -/
def LeadSet.NotNull (set : LeadSet) : Prop :=
  set.campaignId ≠ some none ∧ set.phone ≠ some none ∧ set.status ≠ some none

instance (set : LeadSet) : Decidable set.NotNull := inferInstanceAs (Decidable (_ ∧ _))

/-- The row an `UPDATE` leaves. -/
def LeadSet.applyTo (set : LeadSet) (row : Listings.Lead) : Listings.Lead where
  campaignId := (set.campaignId.getD none).getD row.campaignId
  phone := (set.phone.getD none).getD row.phone
  name := set.name.getD row.name
  source := set.source.getD row.source
  customData := set.customData.getD row.customData
  id := row.id
  status := (set.status.getD none).getD row.status

theorem LeadSet.key_applyTo (set : LeadSet) (row : Listings.Lead) :
    key (set.applyTo row) = key row := rfl

/-- The leads, and those that rows of other tables refer to. -/
structure LeadStore where
  table : LeadTable
  referenced : List Int

/-- `session.get(Lead, id)`. -/
def LeadStore.lead (id : Int) (s : LeadStore) : Option Listings.Lead := s.table.leads.get? id

theorem LeadStore.lead_eq_some {s : LeadStore} {id : Int} {row : Listings.Lead} :
    s.lead id = some row ↔ row ∈ s.table.leads ∧ row.id = id := Table.get?_eq_some

def LeadStore.setLeads (s : LeadStore) (leads : Table Listings.Lead) : LeadStore :=
  { s with table := { s.table with leads := leads } }

inductive LeadWrite where
  | insert (w : RowInsert)
  | update (id : Int) (set : LeadSet)
  | delete (id : Int)

/-- The row a write locks, by its id. -/
def LeadWrite.rowId : LeadWrite → Int
  | .insert w => w.row.id
  | .update id _ => id
  | .delete id => id

/-- The table after an `UPDATE` of a row. -/
def LeadStore.updated (s : LeadStore) (id : Int) (set : LeadSet) : Table Listings.Lead :=
  s.table.leads.update (fun r => r.id = id) set.applyTo set.key_applyTo

/-- The row an `UPDATE` leaves meets the constraints on leads. -/
def LeadStore.Admits (s : LeadStore) (id : Int) (set : LeadSet) : Prop :=
  set.NotNull ∧ ∀ row ∈ s.lead id, s.table.toDatabase.accepts (set.applyTo row).toLead

instance (s : LeadStore) (id : Int) (set : LeadSet) : Decidable (s.Admits id set) :=
  inferInstanceAs (Decidable (_ ∧ _))

/-- A new row is refused as in an import, a changed one by the constraints on
leads, and a row that others refer to is not deleted. -/
def LeadStore.apply (s : LeadStore) : LeadWrite → Option LeadStore
  | .insert w => (s.table.apply w).map fun table => { s with table := table }
  | .update id set => if s.Admits id set then some (s.setLeads (s.updated id set)) else none
  | .delete id =>
    if id ∈ s.referenced then none
    else some (s.setLeads (s.table.leads.delete fun r => r.id = id))

instance : Store LeadStore LeadWrite Int HttpException where
  apply w s := s.apply w
  lock := LeadWrite.rowId
  refused := internalServerError

/-! ## `routers/leads.py` -/

abbrev Handler (α : Type) := Prog LeadStore LeadWrite HttpException α

/-- A computation that may raise, within a handler. -/
def orRaise {α : Type} : Except HttpException α → Handler α
  | .ok a => .done a
  | .error exc => .raise exc

section Handlers

variable {D : Type} (modelValidate : Listings.Lead → Except HttpException D)

/-- `LeadRead.model_validate(obj)`. -/
def leadRead (obj : Listings.Lead) : Handler D := orRaise (modelValidate obj)

/-- `await session.refresh(obj)` and `LeadRead.model_validate(obj)`. -/
def refreshed (id : Int) : Handler D :=
  (Prog.select (LeadStore.lead id)).bind fun
    | none => .raise internalServerError
    | some row => leadRead modelValidate row

/-- `get_lead`. -/
def getLead (leadId : Int) : Handler D :=
  (getOr404 (LeadStore.lead leadId) "lead_not_found").bind (leadRead modelValidate)

/-- `create_lead`; `row` is `Lead(**payload.model_dump())` with what the database
fills in. -/
def createLead (row : Listings.Lead) : Handler D :=
  (Prog.exec (.insert ⟨row⟩)).bind fun _ => refreshed modelValidate row.id

/-- Flush of a loaded row with assigned columns. -/
def flushLead (sameJson : Json → Json → Bool) (row : Listings.Lead) (set : LeadSet) :
    Handler Unit :=
  if (set.against sameJson row).isEmpty then .done ()
  else Prog.exec (.update row.id (set.against sameJson row))

/-- `update_lead`; `set` is `payload.model_dump(exclude_unset=True)`. -/
def updateLead (sameJson : Json → Json → Bool) (leadId : Int) (set : LeadSet) : Handler D :=
  (getOr404 (LeadStore.lead leadId) "lead_not_found").bind fun obj =>
  (flushLead sameJson obj set).bind fun _ =>
  refreshed modelValidate obj.id

/-- `delete_lead`. -/
def deleteLead (leadId : Int) : Handler Unit :=
  (getOr404 (LeadStore.lead leadId) "lead_not_found").bind fun obj =>
  Prog.exec (.delete obj.id)

/-- `import_leads`, in the transaction it has on the table. -/
def importUpload (rt : Runtime) (size : Nat) (upload : Upload) : Handler LeadsImportResult :=
  (upload.transaction rt size).relabel LeadStore.table (fun _ => .insert) 0

end Handlers

/-! ## Requests -/

inductive Request where
  | listLeads (scan : Scan Listings.Lead) (campaignId : Option Int)
      (statusFilter : Option LeadStatus) (page pageSize : Nat)
  | getLead (id : Int)
  | createLead (row : Listings.Lead)
  | updateLead (id : Int) (set : LeadSet)
  | deleteLead (id : Int)
  | importLeads (upload : Upload)

inductive Answer (D : Type) where
  | page (leads : Page D)
  | lead (read : D)
  | imported (result : LeadsImportResult)
  | noContent

/-- What is outside this repository, and `BATCH_SIZE`. -/
structure Service (D : Type) where
  modelValidate : Listings.Lead → Except HttpException D
  sameJson : Json → Json → Bool
  runtime : Runtime
  batchSize : Nat

variable {D : Type}

def Answer.of {α : Type} (f : α → Answer D) (handler : Handler α) : Handler (Answer D) :=
  handler.bind fun a => .done (f a)

def Request.handler (service : Service D) : Request → Handler (Answer D)
  | .listLeads scan campaignId statusFilter page pageSize =>
    Answer.of .page ((Prog.select fun s => Listings.listLeads scan service.modelValidate campaignId
      statusFilter page pageSize s.table.leads).bind orRaise)
  | .getLead id => Answer.of .lead (Leads.getLead service.modelValidate id)
  | .createLead row => Answer.of .lead (Leads.createLead service.modelValidate row)
  | .updateLead id set =>
    Answer.of .lead (Leads.updateLead service.modelValidate service.sameJson id set)
  | .deleteLead id => Answer.of (fun _ => .noContent) (Leads.deleteLead id)
  | .importLeads upload =>
    Answer.of .imported (importUpload service.runtime service.batchSize upload)

/-- One request, alone: the answer and the store it leaves. -/
def respond (service : Service D) (s : LeadStore) (r : Request) :
    Except HttpException (Answer D) × LeadStore :=
  (r.handler service).session s

end IsalesApi.Leads
