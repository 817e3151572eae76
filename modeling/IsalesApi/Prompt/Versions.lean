import IsalesApi.Http
import IsalesApi.Foundation.Table

/-!
# Prompt versions

The table of prompt versions and the two handlers that set `is_active`. Each
stores its row first and then, when the row is active, deactivates the other
versions of the scope in one `UPDATE`.
-/

namespace IsalesApi.Prompt

open Foundation

/-- `PromptScopeType`, by its value; its members are not part of this
repository. -/
structure PromptScopeType where
  value : String
deriving DecidableEq

/-- `(scope_type, scope_id)`. -/
structure Scope where
  scopeType : PromptScopeType
  scopeId : Int
deriving DecidableEq

/-- `PromptVersionCreate`: a row without its id. -/
structure PromptVersionCreate extends Scope where
  content : String
  createdBy : Option String
  isActive : Bool
deriving DecidableEq

structure PromptVersion extends PromptVersionCreate where
  id : Int
deriving DecidableEq

instance : Keyed PromptVersion Int := ⟨PromptVersion.id⟩

def PromptVersion.scope (r : PromptVersion) : Scope := r.toScope

/-- `PromptVersionUpdate` is not part of the repository either: it is taken to
carry any column but the id. -/
structure PromptVersionUpdate where
  scopeType : Option PromptScopeType
  scopeId : Option Int
  content : Option String
  createdBy : Option (Option String)
  isActive : Option Bool
deriving DecidableEq

def PromptVersionUpdate.applyTo (set : PromptVersionUpdate) (row : PromptVersion) :
    PromptVersion where
  id := row.id
  scopeType := set.scopeType.getD row.scopeType
  scopeId := set.scopeId.getD row.scopeId
  content := set.content.getD row.content
  createdBy := set.createdBy.getD row.createdBy
  isActive := set.isActive.getD row.isActive

theorem PromptVersionUpdate.key_applyTo (set : PromptVersionUpdate) (row : PromptVersion) :
    key (set.applyTo row) = key row := rfl

/-- The changes pending on a loaded row: only what differs is sent. -/
def PromptVersionUpdate.against (set : PromptVersionUpdate) (row : PromptVersion) :
    PromptVersionUpdate where
  scopeType := changed set.scopeType row.scopeType
  scopeId := changed set.scopeId row.scopeId
  content := changed set.content row.content
  createdBy := changed set.createdBy row.createdBy
  isActive := changed set.isActive row.isActive

/-- Sending the changed columns only has the effect of sending all. -/
theorem PromptVersionUpdate.applyTo_against (set : PromptVersionUpdate) (row : PromptVersion) :
    (set.against row).applyTo row = set.applyTo row := by
  simp only [applyTo, against, changed_getD]

def PromptVersionUpdate.isEmpty (set : PromptVersionUpdate) : Bool :=
  set.scopeType.isNone && set.scopeId.isNone && set.content.isNone && set.createdBy.isNone &&
    set.isActive.isNone

theorem PromptVersionUpdate.applyTo_of_isEmpty {set : PromptVersionUpdate}
    (h : set.isEmpty = true) (row : PromptVersion) : set.applyTo row = row := by
  obtain ⟨scopeType, scopeId, content, createdBy, isActive⟩ := set
  simp only [isEmpty, Bool.and_eq_true, Option.isNone_iff_eq_none] at h
  obtain ⟨⟨⟨⟨rfl, rfl⟩, rfl⟩, rfl⟩, rfl⟩ := h
  rfl

/-! ## The table -/

/-- The versions, with the constraints on single rows, which are not part of
this repository. -/
structure Database where
  rowOk : PromptVersion → Bool
  versions : Table PromptVersion

/-- `session.get(PromptVersion, id)`. -/
def Database.version (id : Int) (db : Database) : Option PromptVersion := db.versions.get? id

theorem Database.version_eq_some {db : Database} {id : Int} {r : PromptVersion} :
    db.version id = some r ↔ r ∈ db.versions ∧ r.id = id := Table.get?_eq_some

/-- One row change. `deactivate` is what the `UPDATE` of `_deactivate_siblings`
does to a row its search found: the row is set inactive if it is still in the
scope. -/
inductive Write where
  | insert (row : PromptVersion)
  | update (id : Int) (set : PromptVersionUpdate)
  | deactivate (id : Int) (scope : Scope)
deriving DecidableEq

/-- The row a write locks, by its id. -/
def Write.rowId : Write → Int
  | .insert row => row.id
  | .update id _ => id
  | .deactivate id _ => id

/-- `.values(is_active=False)`. -/
def PromptVersion.inactive (r : PromptVersion) : PromptVersion := { r with isActive := false }

theorem PromptVersion.key_inactive (r : PromptVersion) : key r.inactive = key r := rfl

def Database.apply (db : Database) : Write → Option Database
  | .insert row =>
    if db.rowOk row then (db.versions.insert row).map fun t => { db with versions := t } else none
  | .update id set =>
    match db.version id with
    | none => none
    | some row =>
      if db.rowOk (set.applyTo row) then
        some { db with
          versions := db.versions.update (fun r => r.id = id) set.applyTo set.key_applyTo }
      else none
  | .deactivate id scope =>
    some { db with
      versions := db.versions.update (fun r => r.id = id && r.scope = scope)
        PromptVersion.inactive PromptVersion.key_inactive }

instance : Store Database Write Int HttpException where
  apply w db := db.apply w
  lock := Write.rowId
  refused := internalServerError

/-! ## `routers/prompt_versions.py` -/

abbrev Handler (α : Type) := Prog Database Write HttpException α

/-- `_deactivate_siblings`. -/
def deactivateSiblings (scope : Scope) (keepId : Int) : Handler Unit :=
  Prog.execWhere fun db =>
    (db.versions.select fun r => r.scope = scope && r.id ≠ keepId).map fun r =>
      .deactivate r.id scope

/-- `if obj.is_active: …`, on the row as the session holds it. -/
def deactivateOthers (obj : PromptVersion) : Handler Unit :=
  if obj.isActive then deactivateSiblings obj.scope obj.id else pure ()

/-- What both handlers do after the flush of `obj`. -/
def activate (obj : PromptVersion) : Handler PromptVersion := do
  deactivateOthers obj
  let fresh ← Prog.select (Database.version obj.id)
  pure (fresh.getD obj)

/-- `PromptVersion(**payload.model_dump())` with the id it is given. -/
def PromptVersionCreate.row (payload : PromptVersionCreate) (id : Int) : PromptVersion :=
  { payload with id }

def createPromptVersion (id : Int) (payload : PromptVersionCreate) : Handler PromptVersion := do
  Prog.exec (.insert (payload.row id))
  activate (payload.row id)

/-- Flush of a loaded row with assigned columns. -/
def flushVersion (row : PromptVersion) (set : PromptVersionUpdate) : Handler Unit :=
  if (set.against row).isEmpty then pure () else Prog.exec (.update row.id (set.against row))

def updatePromptVersion (id : Int) (payload : PromptVersionUpdate) : Handler PromptVersion :=
  (getOr404 (Database.version id) "prompt_version_not_found").bind fun obj => do
    flushVersion obj payload
    activate (payload.applyTo obj)

inductive Request where
  | create (id : Int) (payload : PromptVersionCreate)
  | update (id : Int) (payload : PromptVersionUpdate)

def Request.handler : Request → Handler PromptVersion
  | .create id payload => createPromptVersion id payload
  | .update id payload => updatePromptVersion id payload

/-- The version a request stores. -/
def Request.id : Request → Int
  | .create id _ => id
  | .update id _ => id

end IsalesApi.Prompt
