import IsalesApi.Http
import IsalesApi.Python.Csv
import IsalesApi.Python.Json

/-!
# Importing leads

`import_leads` with its loop over the records of a CSV text: a record is
converted or reported, converted leads wait in a batch, and a full batch is
flushed. Only `ValueError` and `KeyError` are reported; any other exception, and
a row the database refuses, ends the request.
-/

namespace IsalesApi.Leads

open Foundation Python

/-! ## The table -/

/-- The columns of `lead` an import sets. -/
structure Lead where
  campaignId : Int
  phone : Str
  name : Option Str
  source : Option Str
  customData : Json

/-- The leads in the order they were inserted, and the campaigns there are. The
constraints on a single row are not part of this repository. -/
structure Database where
  campaigns : List Int
  rowOk : Lead → Bool
  leads : List Lead

/-- The foreign key and the other constraints. -/
def Database.accepts (db : Database) (lead : Lead) : Prop :=
  lead.campaignId ∈ db.campaigns ∧ db.rowOk lead = true

instance (db : Database) (lead : Lead) : Decidable (db.accepts lead) :=
  inferInstanceAs (Decidable (_ ∧ _))

def Database.add (db : Database) (leads : List Lead) : Database :=
  { db with leads := db.leads ++ leads }

inductive Write where
  | insert (lead : Lead)

def Write.lead : Write → Lead
  | .insert lead => lead

instance : Store Database Write Lead HttpException where
  apply
    | .insert lead, db => if db.accepts lead then some (db.add [lead]) else none
  lock := Write.lead
  refused := internalServerError

/-! ## A record -/

/-- The interpreter: the printable characters beyond ASCII, and the room its
stack has for nested JSON. -/
structure Runtime where
  isPrintable : Char → Bool
  depth : Nat

/-- What the `try` block can raise; a `JSONDecodeError` is a `ValueError`. -/
inductive Raised where
  | valueError (msg : String)
  | keyError (key : String)
  | typeError
  | recursionError

/-- `except (ValueError, KeyError, json.JSONDecodeError) as exc`, and `str(exc)`.
-/
def Raised.caught : Raised → Option String
  | valueError msg => some msg
  | keyError key => some ("'" ++ key ++ "'")
  | typeError => none
  | recursionError => none

/-- `row[key]`. -/
def item (header row : Csv.Row) (key : String) : Except Raised (Option Str) :=
  match Csv.cell header row key.toList with
  | none => .error (.keyError key)
  | some v => .ok v

/-- `row.get(key)`. -/
def get (header row : Csv.Row) (key : String) : Option Str :=
  (Csv.cell header row key.toList).getD none

variable (rt : Runtime)

/-- `int(row["campaign_id"])`: `int(None)` raises a `TypeError`. -/
def toInt : Option Str → Except Raised Int
  | none => .error .typeError
  | some s => (parseInt rt.isPrintable s).mapError .valueError

/-- `(row["phone"] or "").strip()`, which must not be empty. -/
def toPhone (v : Option Str) : Except Raised Str :=
  let phone := strip (v.getD [])
  if phone = [] then .error (.valueError "phone is empty") else .ok phone

/-- What `json.loads(custom)` raises. -/
def jsonRaised (custom : Str) : Json.Error → Raised
  | .decode msg rest => .valueError (Json.decodeErrorText custom msg rest)
  | .valueError msg => .valueError msg
  | .recursion => .recursionError
  | .outOfSteps => .recursionError

/-- `json.loads(custom) if custom.strip() else {}`. -/
def toCustomDict (v : Option Str) : Except Raised Json :=
  let custom := v.getD []
  if strip custom = [] then .ok (.object [])
  else (Json.loads rt.depth custom).mapError (jsonRaised custom)

/-- `v or None`. -/
def orNone (v : Option Str) : Option Str := v.filter (· ≠ [])

/-- The `try` block, up to the lead it appends. -/
def convert (header row : Csv.Row) : Except Raised Lead := do
  let campaignId ← toInt rt (← item header row "campaign_id")
  let phone ← toPhone (← item header row "phone")
  let customDict ← toCustomDict rt (get header row "custom_data")
  return {
    campaignId := campaignId
    phone := phone
    name := orNone (get header row "name")
    source := orNone (get header row "source")
    customData := customDict }

/-! ## The loop -/

structure LeadsImportError where
  row : Nat
  message : String
deriving DecidableEq

structure LeadsImportResult where
  successCount : Nat
  errorCount : Nat
  errors : List LeadsImportError
deriving DecidableEq

/-- `success`, `errors` and `batch`. -/
structure Locals where
  success : Nat
  errors : List LeadsImportError
  batch : List Lead

def Locals.start : Locals := ⟨0, [], []⟩

/-- `_flush`. -/
def flush (s : Locals) : Prog Database Write HttpException Locals :=
  if s.batch.isEmpty then .done s
  else
    (Prog.execAll (s.batch.map .insert)).bind fun _ =>
    .done { s with success := s.success + s.batch.length, batch := [] }

/-- `batch.append(lead)`, and the flush of a full batch. -/
def append (size : Nat) (lead : Lead) (s : Locals) : Prog Database Write HttpException Locals :=
  let s := { s with batch := s.batch ++ [lead] }
  if size ≤ s.batch.length then flush s else .done s

/-- One pass of the loop. -/
def importRow (size : Nat) (header : Csv.Row) (i : Nat) (row : Csv.Row) (s : Locals) :
    Prog Database Write HttpException Locals :=
  match convert rt header row with
  | .ok lead => append size lead s
  | .error e =>
    match e.caught with
    | some msg => .done { s with errors := s.errors ++ [⟨i, msg⟩] }
    | none => .raise internalServerError

/-- `for i, row in enumerate(reader, start=i)`. -/
def importRows (size : Nat) (header : Csv.Row) :
    Nat → List Csv.Row → Locals → Prog Database Write HttpException Locals
  | _, [], s => .done s
  | i, row :: rows, s =>
    (importRow rt size header i row s).bind (importRows size header (i + 1) rows)

def missingColumns : HttpException :=
  ⟨400, "csv_missing_columns: required ['campaign_id', 'phone']"⟩

/-- `REQUIRED_CSV_COLUMNS.issubset(reader.fieldnames)`. -/
def HasColumns (header : Csv.Row) : Prop :=
  "campaign_id".toList ∈ header ∧ "phone".toList ∈ header

instance (header : Csv.Row) : Decidable (HasColumns header) :=
  inferInstanceAs (Decidable (_ ∧ _))

/-- `import_leads` of a decoded file, with `size` for `BATCH_SIZE`. The reader is
lazy: what it raises after the header comes when the loop gets there. -/
def importLeads (size : Nat) (text : Str) :
    Prog Database Write HttpException LeadsImportResult :=
  match Csv.dictReader text with
  | .error _ => .raise internalServerError
  | .ok none => .raise missingColumns
  | .ok (some reader) =>
    if HasColumns reader.fieldnames then
      (importRows rt size reader.fieldnames 2 reader.records .start).bind fun s =>
      match reader.error with
      | some _ => .raise internalServerError
      | none =>
        (flush s).bind fun s => .done ⟨s.success, s.errors.length, s.errors⟩
    else .raise missingColumns

/-- `BATCH_SIZE`. -/
def batchSize : Nat := 1000

end IsalesApi.Leads
