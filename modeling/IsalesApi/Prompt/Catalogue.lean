import IsalesApi.Foundation.Directory
import IsalesApi.Foundation.Replies
import IsalesApi.Listings.Handlers
import IsalesApi.Prompt.Activation

/-!
# The catalogue of prompts

What `/prompt-versions` is for: drafts of prompts by their ids, and for each
scope the draft that is in force, if there is one. A draft does not know whether
it is in force, so a scope cannot have two of them. The handlers, which keep a
flag in every row and switch the others off by an `UPDATE`, answer every run of
requests as the catalogue does.
-/

namespace IsalesApi.Prompt

open Foundation Listings

/-! ## Requests -/

section Handlers

variable {D : Type} (modelValidate : PromptVersion → Except HttpException D)

/-- `PromptVersionRead.model_validate(obj)`. -/
def promptVersionRead (obj : PromptVersion) : Handler D :=
  match modelValidate obj with
  | .ok read => .done read
  | .error exc => .raise exc

/-- `get_prompt_version`. -/
def getPromptVersion (promptVersionId : Int) : Handler D :=
  (getOr404 (Database.version promptVersionId) "prompt_version_not_found").bind
    (promptVersionRead modelValidate)

/-- What a client sends to `/prompt-versions`. -/
inductive Visit where
  | list (scan : Scan PromptVersion) (scopeType : Option PromptScopeType) (scopeId : Option Int)
      (page pageSize : Nat)
  | get (id : Int)
  | write (r : Request)
  | delete (id : Int)

inductive Answer (D : Type) where
  | page (versions : Page D)
  | version (read : D)
  | noContent

/-- One request, alone: the answer and the table it leaves. -/
def respond (db : Database) : Visit → Except HttpException (Answer D) × Database
  | .list scan scopeType scopeId page pageSize =>
    ((listPromptVersions scan modelValidate scopeType scopeId page pageSize db).map .page, db)
  | .get id =>
    ((getPromptVersion modelValidate id).bind fun read => .done (.version read)).session db
  | .write r =>
    (r.handler.bind fun obj => (promptVersionRead modelValidate obj).bind fun read =>
      .done (.version read)).session db
  | .delete id =>
    ((deletePromptVersion id db).1.map fun _ => .noContent, (deletePromptVersion id db).2)

end Handlers

/-! ## The catalogue -/

/-- A version but for its id and for whether it is active. -/
structure Draft extends Scope where
  content : String
  createdBy : Option String

def PromptVersion.draft (row : PromptVersion) : Draft :=
  ⟨row.toScope, row.content, row.createdBy⟩

/-- The draft in force in a scope is there, and of the scope. -/
structure Catalogue where
  rowOk : PromptVersion → Bool
  drafts : Finmap fun _ : Int => Draft
  inForce : Scope → Option Int
  points : ∀ scope id, inForce scope = some id →
    ∃ d, drafts.lookup id = some d ∧ d.toScope = scope

namespace Catalogue

variable {D : Type}

/-- A draft as it is shown. -/
def version (c : Catalogue) (id : Int) (d : Draft) : PromptVersion :=
  ⟨⟨d.toScope, d.content, d.createdBy, c.inForce d.toScope = some id⟩, id⟩

def find (c : Catalogue) (id : Int) : Option PromptVersion :=
  (c.drafts.lookup id).map (c.version id)

/-- No scope points at the draft. -/
def release (c : Catalogue) (id : Int) (scope : Scope) : Option Int :=
  if c.inForce scope = some id then none else c.inForce scope

/-- The row is entered or replaces the draft with its id. When it is active it is
in force from now on, and otherwise it is not. -/
def store (c : Catalogue) (row : PromptVersion) : Catalogue where
  rowOk := c.rowOk
  drafts := c.drafts.insert row.id row.draft
  inForce := fun scope =>
    if row.isActive = true ∧ scope = row.scope then some row.id else c.release row.id scope
  points := by
    intro scope id h
    by_cases hrow : row.isActive = true ∧ scope = row.scope
    · rw [if_pos hrow] at h
      cases h
      exact ⟨row.draft, Finmap.lookup_insert _, hrow.2.symm⟩
    · rw [if_neg hrow, release] at h
      split at h
      · cases h
      · rename_i hother
        obtain ⟨d, hd, hscope⟩ := c.points scope id h
        refine ⟨d, ?_, hscope⟩
        rw [Finmap.lookup_insert_of_ne _ (fun hid => hother (by rw [h, hid]))]
        exact hd

def remove (c : Catalogue) (id : Int) : Catalogue where
  rowOk := c.rowOk
  drafts := c.drafts.erase id
  inForce := c.release id
  points := by
    intro scope id' h
    rw [release] at h
    split at h
    · cases h
    · rename_i hother
      obtain ⟨d, hd, hscope⟩ := c.points scope id' h
      refine ⟨d, ?_, hscope⟩
      rw [Finmap.lookup_erase_ne (fun hid => hother (by rw [h, hid]))]
      exact hd

/-- The row a request asks to store, if the catalogue takes it. -/
def accept (c : Catalogue) : Request → Except HttpException PromptVersion
  | .create id payload =>
    if id ∈ c.drafts ∨ c.rowOk (payload.row id) = false then .error internalServerError
    else .ok (payload.row id)
  | .update id payload =>
    match c.find id with
    | none => .error (notFound "prompt_version_not_found")
    | some row =>
      if payload.applyTo row ≠ row ∧ c.rowOk (payload.applyTo row) = false then
        .error internalServerError
      else .ok (payload.applyTo row)

/-- The draft is one of those a list asks for. -/
def Asked (scopeType : Option PromptScopeType) (scopeId : Option Int) (_ : Int) (d : Draft) :
    Bool :=
  scopeType.all (fun v => d.scopeType = v) && scopeId.all fun v => d.scopeId = v

/-- A request that fails leaves the catalogue as it was. -/
def respond (modelValidate : PromptVersion → Except HttpException D) (c : Catalogue) :
    Visit → Except HttpException (Answer D) × Catalogue
  | .list _ scopeType scopeId page pageSize =>
    let versions := listing c.version (Asked scopeType scopeId) c.drafts
    (((pageOf page pageSize versions).mapM modelValidate).map fun items =>
      .page ⟨items, versions.length, page, pageSize⟩, c)
  | .get id =>
    match c.find id with
    | none => (.error (notFound "prompt_version_not_found"), c)
    | some row => ((modelValidate row).map .version, c)
  | .write r => settle c <| (c.accept r).bind fun row =>
      (modelValidate row).map fun read => (.version read, c.store row)
  | .delete id =>
    match c.find id with
    | none => (.error (notFound "prompt_version_not_found"), c)
    | some _ => (.ok .noContent, c.remove id)

theorem find_store (c : Catalogue) (row : PromptVersion) (id : Int) :
    (c.store row).find id = if id = row.id then some row else (c.find id).map (besides row) := by
  by_cases hid : id = row.id
  · -- the row is shown as it was stored
    rw [if_pos hid, hid]
    have hlookup : (c.store row).drafts.lookup row.id = some row.draft := Finmap.lookup_insert _
    have hactive : decide ((c.store row).inForce row.scope = some row.id) = row.isActive := by
      cases hrow : row.isActive with
      | true => simp [store, hrow]
      | false =>
        simp only [store, hrow, Bool.false_eq_true, false_and, if_false, release]
        split <;> simp_all
    rw [find, hlookup]
    show some (PromptVersion.mk ⟨row.toScope, row.content, row.createdBy,
      decide ((c.store row).inForce row.scope = some row.id)⟩ row.id) = some row
    rw [hactive]
  · rw [if_neg hid]
    have hlookup : (c.store row).drafts.lookup id = c.drafts.lookup id :=
      Finmap.lookup_insert_of_ne _ hid
    rw [find, find, hlookup, Option.map_map]
    refine congrArg (fun f => (c.drafts.lookup id).map f) (funext fun d => ?_)
    have hne : (some row.id : Option Int) ≠ some id := fun h => hid (Option.some.inj h).symm
    show (c.store row).version id d = besides row (c.version id d)
    by_cases hscope : row.isActive = true ∧ d.toScope = row.scope
    · -- the scope points at the row from now on
      have hoff : besides row (c.version id d) = (c.version id d).inactive :=
        if_pos ⟨hscope.1, hscope.2, hid⟩
      rw [hoff]
      simp [version, store, hscope, PromptVersion.inactive, Ne.symm hid]
    · have hkeep : besides row (c.version id d) = c.version id d :=
        if_neg fun h => hscope ⟨h.1, h.2.1⟩
      rw [hkeep]
      have hsame : c.release row.id d.toScope = some id ↔ c.inForce d.toScope = some id := by
        unfold release
        split
        · rename_i h
          rw [h]
          simp [hne]
        · rfl
      simp only [version, store, if_neg hscope, hsame]

theorem find_remove (c : Catalogue) (id id' : Int) :
    (c.remove id).find id' = if id' = id then none else c.find id' := by
  by_cases hid : id' = id
  · rw [if_pos hid, hid]
    have hlookup : (c.remove id).drafts.lookup id = none := Finmap.lookup_erase _ _
    rw [find, hlookup]
    rfl
  · rw [if_neg hid]
    have hlookup : (c.remove id).drafts.lookup id' = c.drafts.lookup id' :=
      Finmap.lookup_erase_ne hid
    rw [find, find, hlookup]
    refine congrArg (fun f => (c.drafts.lookup id').map f) (funext fun d => ?_)
    have hsame : c.release id d.toScope = some id' ↔ c.inForce d.toScope = some id' := by
      unfold release
      split
      · rename_i h
        rw [h]
        simp [Ne.symm hid]
      · rfl
    show (c.remove id).version id' d = c.version id' d
    simp only [version, remove, hsame]

end Catalogue

end IsalesApi.Prompt
