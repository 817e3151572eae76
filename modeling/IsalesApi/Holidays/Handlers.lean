import IsalesApi.Http
import IsalesApi.Listings.Handlers
import IsalesApi.Python.IsoFormat

/-!
# Writing holidays

The payloads of `/holidays`, the table, and the handlers that write it. A date
comes as a text and is read by `date.fromisoformat`; the handlers catch its
`ValueError` and nothing else.
-/

namespace IsalesApi.Holidays

open Foundation Listings Python

/-! ## Payloads -/

/-- `Field(min_length=1, max_length=limit)`. -/
def Bounded (limit : Nat) (s : String) : Prop := 1 ≤ s.length ∧ s.length ≤ limit

instance (limit : Nat) (s : String) : Decidable (Bounded limit s) :=
  inferInstanceAs (Decidable (_ ∧ _))

structure HolidayCreate where
  date : Str
  name : String
  region : String := "CN"
  name_len : Bounded 128 name
  region_len : Bounded 32 region := by decide

/-- Each field is absent, `null` or a value. -/
structure HolidayUpdate where
  date : Option (Option Str)
  name : Option (Option String)
  region : Option (Option String)
  name_len : ∀ s, name = some (some s) → Bounded 128 s
  region_len : ∀ s, region = some (some s) → Bounded 32 s

/-! ## The table -/

/-- What is assigned to the columns of a loaded row; `name` and `region` may be
assigned `None`. -/
structure HolidaySet where
  date : Option Date
  name : Option (Option String)
  region : Option (Option String)
deriving DecidableEq

/-- The changes pending on a loaded row: only what differs is sent. -/
def HolidaySet.against (set : HolidaySet) (row : Holiday) : HolidaySet where
  date := changed set.date row.date
  name := changed set.name (some row.name)
  region := changed set.region (some row.region)

def HolidaySet.isEmpty (set : HolidaySet) : Bool :=
  set.date.isNone && set.name.isNone && set.region.isNone

/-- No column is set to `None`. -/
def HolidaySet.NotNull (set : HolidaySet) : Prop := set.name ≠ some none ∧ set.region ≠ some none

instance (set : HolidaySet) : Decidable set.NotNull := inferInstanceAs (Decidable (_ ∧ _))

/-- The row an `UPDATE` leaves; `touched` is what it makes of `updated_at`. -/
def HolidaySet.applyTo (set : HolidaySet) (touched : Auth.DateTime) (row : Holiday) : Holiday where
  id := row.id
  date := set.date.getD row.date
  name := (set.name.getD none).getD row.name
  region := (set.region.getD none).getD row.region
  createdAt := row.createdAt
  updatedAt := touched

theorem HolidaySet.key_applyTo (set : HolidaySet) (touched : Auth.DateTime) (row : Holiday) :
    key (set.applyTo touched row) = key row := rfl

/-- The holidays, with the constraints of the table, which are not part of this
repository. -/
structure Database where
  constraints : Table Holiday → Bool
  holidays : Table Holiday

/-- `session.get(Holiday, id)`. -/
def Database.holiday (id : Int) (db : Database) : Option Holiday := db.holidays.get? id

theorem Database.holiday_eq_some {db : Database} {id : Int} {r : Holiday} :
    db.holiday id = some r ↔ r ∈ db.holidays ∧ r.id = id := Table.get?_eq_some

/-- The statement is refused when it breaks a constraint. -/
def Database.store (db : Database) (t : Table Holiday) : Option Database :=
  if db.constraints t then some { db with holidays := t } else none

theorem holidays_of_store {db db' : Database} {t : Table Holiday} (h : db.store t = some db') :
    db'.holidays = t := by
  unfold Database.store at h
  split at h
  · cases h
    rfl
  · cases h

inductive Write where
  | insert (row : Holiday)
  | update (id : Int) (set : HolidaySet) (touched : Auth.DateTime)
  | delete (id : Int)

/-- The row a write locks, by its id. -/
def Write.rowId : Write → Int
  | .insert row => row.id
  | .update id _ _ => id
  | .delete id => id

/-- The table after an `UPDATE` of a row. -/
def Database.updated (db : Database) (id : Int) (set : HolidaySet) (touched : Auth.DateTime) :
    Table Holiday :=
  db.holidays.update (fun r => r.id = id) (set.applyTo touched) (set.key_applyTo touched)

/-- A `None` for `name` or `region` is refused here. Where the columns took it,
`HolidayRead` would refuse the row, and the request would end in the same way. -/
def Database.apply (db : Database) : Write → Option Database
  | .insert row => (db.holidays.insert row).bind db.store
  | .update id set touched => if set.NotNull then db.store (db.updated id set touched) else none
  | .delete id => db.store (db.holidays.delete fun r => r.id = id)

instance : Store Database Write Int HttpException where
  apply w db := db.apply w
  lock := Write.rowId
  refused := internalServerError

/-! ## `routers/holidays.py` -/

abbrev Handler (α : Type) := Prog Database Write HttpException α

def invalidDate (exc : String) : HttpException := unprocessable ("invalid_date: " ++ exc)

/-- `await session.refresh(obj)` and `HolidayRead(…)`. -/
def refreshed (id : Int) : Handler HolidayRead :=
  (Prog.select (Database.holiday id)).bind fun
    | none => .raise internalServerError
    | some row => .done row.toRead

section Handlers

variable (isPrintable : Char → Bool)

/-- The `try` block of both handlers. -/
def readDate (s : Str) : Except HttpException Date :=
  (fromisoformat isPrintable s).mapError invalidDate

/-- What the database fills in for a new row. -/
structure Filled where
  id : Int
  createdAt : Auth.DateTime
  updatedAt : Auth.DateTime

/-- `create_holiday`. -/
def createHoliday (filled : Filled) (payload : HolidayCreate) : Handler HolidayRead :=
  match readDate isPrintable payload.date with
  | .error exc => .raise exc
  | .ok d =>
    (Prog.exec (.insert ⟨filled.id, d, payload.name, payload.region, filled.createdAt,
      filled.updatedAt⟩)).bind fun _ =>
    refreshed filled.id

/-- What is assigned to `obj.date`. `fromisoformat(None)` raises a `TypeError`,
which nothing catches. -/
def assignedDate : Option (Option Str) → Except HttpException (Option Date)
  | none => .ok none
  | some none => .error internalServerError
  | some (some s) => (readDate isPrintable s).map some

/-- Flush of a loaded row with assigned columns. -/
def flushHoliday (row : Holiday) (set : HolidaySet) (touched : Auth.DateTime) : Handler Unit :=
  if (set.against row).isEmpty then .done ()
  else Prog.exec (.update row.id (set.against row) touched)

/-- `update_holiday`. -/
def updateHoliday (touched : Auth.DateTime) (holidayId : Int) (payload : HolidayUpdate) :
    Handler HolidayRead :=
  (getOr404 (Database.holiday holidayId) "holiday_not_found").bind fun obj =>
  match assignedDate isPrintable payload.date with
  | .error exc => .raise exc
  | .ok date =>
    (flushHoliday obj ⟨date, payload.name, payload.region⟩ touched).bind fun _ =>
    refreshed obj.id

end Handlers

/-- `delete_holiday`. -/
def deleteHoliday (holidayId : Int) : Handler Unit :=
  (getOr404 (Database.holiday holidayId) "holiday_not_found").bind fun obj =>
  Prog.exec (.delete obj.id)

end IsalesApi.Holidays
