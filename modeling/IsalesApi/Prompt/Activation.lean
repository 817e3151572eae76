import IsalesApi.Foundation.Transition
import IsalesApi.Prompt.Versions

/-!
# Activation of a version

What a request alone does to the table. The row it writes is stored as
assigned; if it is active, the `UPDATE` that follows finds every other version
of its scope and deactivates it, and nothing else changes (`ActivatesOnly`). So
requests one after the other leave at most one active version in each scope.
-/

namespace IsalesApi.Prompt

open Foundation

/-- Every scope has at most one active version. -/
def OneActive (db : Database) : Prop :=
  ∀ r ∈ db.versions, ∀ s ∈ db.versions, r.isActive = true → s.isActive = true →
    r.scope = s.scope → r = s

instance (db : Database) : Decidable (OneActive db) :=
  inferInstanceAs (Decidable (∀ r ∈ db.versions.rows, ∀ s ∈ db.versions.rows,
    r.isActive = true → s.isActive = true → r.scope = s.scope → r = s))

variable {db db' : Database}

/-! ## What the writes do -/

theorem apply_insert {row : PromptVersion} (h : db.apply (.insert row) = some db') :
    (∀ r ∈ db.versions, r.id ≠ row.id) ∧ ∀ r, r ∈ db'.versions ↔ r ∈ db.versions ∨ r = row := by
  simp only [Database.apply] at h
  split at h
  · obtain ⟨t, ht, rfl⟩ := Option.map_eq_some_iff.mp h
    exact ⟨(Table.insert_eq_some.mp ht).1, fun r => Table.mem_insert ht⟩
  · cases h

theorem apply_update {id : Int} {set : PromptVersionUpdate}
    (h : db.apply (.update id set) = some db') : ∀ r, r ∈ db'.versions ↔
      ∃ old ∈ db.versions, (if old.id = id then set.applyTo old else old) = r := by
  simp only [Database.apply] at h
  split at h
  · cases h
  · split at h
    · cases h
      intro r
      rw [Table.mem_update]
      simp
    · cases h

/-- A row as the deactivation of the rows `ids` of a scope leaves it. -/
def deactivated (ids : List Int) (scope : Scope) (r : PromptVersion) : PromptVersion :=
  if r.id ∈ ids ∧ r.scope = scope then r.inactive else r

@[simp] theorem deactivated_id (ids : List Int) (scope : Scope) (r : PromptVersion) :
    (deactivated ids scope r).id = r.id := by
  unfold deactivated
  split <;> rfl

@[simp] theorem deactivated_scope (ids : List Int) (scope : Scope) (r : PromptVersion) :
    (deactivated ids scope r).scope = r.scope := by
  unfold deactivated
  split <;> rfl

theorem deactivated_isActive {ids : List Int} {scope : Scope} {r : PromptVersion} :
    (deactivated ids scope r).isActive = true ↔
      r.isActive = true ∧ ¬ (r.id ∈ ids ∧ r.scope = scope) := by
  unfold deactivated
  split
  · rename_i h
    exact iff_of_false (by simp [PromptVersion.inactive]) fun h' => h'.2 h
  · rename_i h
    exact (and_iff_left h).symm

theorem deactivated_cons {id : Int} {ids : List Int} {scope : Scope} (r : PromptVersion) :
    deactivated ids scope (if r.id = id ∧ r.scope = scope then r.inactive else r) =
      deactivated (id :: ids) scope r := by
  by_cases h : r.id = id ∧ r.scope = scope
  · have hmem : r.id ∈ id :: ids ∧ r.scope = scope := ⟨by simp [h.1], h.2⟩
    rw [if_pos h, deactivated, deactivated, if_pos hmem]
    split <;> rfl
  · rw [if_neg h]
    have hiff : r.id ∈ id :: ids ∧ r.scope = scope ↔ r.id ∈ ids ∧ r.scope = scope := by
      rw [List.mem_cons]
      tauto
    simp only [deactivated, hiff]

theorem applyAll_deactivate {ids : List Int} {scope : Scope}
    (h : applyAll (ids.map fun id => Write.deactivate id scope) db = some db') :
    ∀ r, r ∈ db'.versions ↔ ∃ old ∈ db.versions, deactivated ids scope old = r := by
  induction ids generalizing db with
  | nil =>
    cases h
    simp [deactivated]
  | cons id ids ih =>
    obtain ⟨m, hm, h⟩ := applyAll_cons.mp h
    cases hm
    intro r
    rw [ih h, Table.exists_mem_update]
    simp only [Bool.and_eq_true, decide_eq_true_eq, deactivated_cons]

/-! ## What a request does -/

/-- The request has stored `row` under `id`. If it is active, it is the only
active version of its scope; if not, no other version has changed. Versions of
other scopes are as they were, and of the others at most `is_active` differs. -/
structure ActivatesOnly (id : Int) (row : PromptVersion) (db db' : Database) : Prop where
  stored : row ∈ db'.versions ∧ row.id = id
  active : row.isActive = true → ∀ s ∈ db'.versions, s.isActive = true → s.scope = row.scope →
    s = row
  inactive : row.isActive = false → ∀ s, s.id ≠ id → (s ∈ db'.versions ↔ s ∈ db.versions)
  otherScopes : ∀ s, s.id ≠ id → s.scope ≠ row.scope → (s ∈ db'.versions ↔ s ∈ db.versions)
  fields : ∀ s ∈ db.versions, s.id ≠ id → ∃ s' ∈ db'.versions, s'.inactive = s.inactive
  nothingNew : ∀ s' ∈ db'.versions, s'.id ≠ id → ∃ s ∈ db.versions, s'.inactive = s.inactive

/-- A version after the activation of `obj`. -/
def besides (obj s : PromptVersion) : PromptVersion :=
  if obj.isActive = true ∧ s.scope = obj.scope ∧ s.id ≠ obj.id then s.inactive else s

section Besides

variable {obj s : PromptVersion}

@[simp] theorem besides_id : (besides obj s).id = s.id := by
  unfold besides
  split <;> rfl

@[simp] theorem besides_scope : (besides obj s).scope = s.scope := by
  unfold besides
  split <;> rfl

@[simp] theorem besides_inactive : (besides obj s).inactive = s.inactive := by
  unfold besides
  split <;> rfl

theorem besides_self : besides obj obj = obj := if_neg fun h => h.2.2 rfl

/-- Where nothing is deactivated the version stays. -/
theorem besides_eq (h : obj.isActive = false ∨ s.scope ≠ obj.scope) : besides obj s = s := by
  refine if_neg ?_
  rintro ⟨hactive, hscope, _⟩
  rcases h with h | h
  · rw [hactive] at h
    cases h
  · exact h hscope

end Besides

/-- The `UPDATE` of `_deactivate_siblings` reaches every other version of the
scope of an active row. -/
theorem run_deactivateOthers {obj : PromptVersion} {m : Database}
    (h : (deactivateOthers obj).run m = .ok ((), db')) :
    ∀ x, x ∈ db'.versions ↔ ∃ s ∈ m.versions, besides obj s = x := by
  unfold deactivateOthers at h
  by_cases hactive : obj.isActive = true
  · rw [if_pos hactive] at h
    let ids := (m.versions.select fun s => s.scope = obj.scope && s.id ≠ obj.id).map
      PromptVersion.id
    have happly : applyAll (ids.map fun j => Write.deactivate j obj.scope) m = some db' := by
      rw [List.map_map]
      exact Prog.run_execWhere_ok.mp h
    have hids : ∀ s ∈ m.versions, s.id ∈ ids ↔ s.scope = obj.scope ∧ s.id ≠ obj.id := by
      intro s hs
      simp only [ids, List.mem_map, Table.mem_select, Bool.and_eq_true, decide_eq_true_eq]
      constructor
      · rintro ⟨s', ⟨hs', hsel⟩, hid⟩
        obtain rfl : s' = s := Table.eq_of_key_eq hs' hs hid
        exact hsel
      · intro hsel
        exact ⟨s, ⟨hs, hsel⟩, rfl⟩
    intro x
    rw [applyAll_deactivate happly]
    refine exists_congr fun s => and_congr_right fun hs => ?_
    have hiff : s.id ∈ ids ∧ s.scope = obj.scope ↔
        obj.isActive = true ∧ s.scope = obj.scope ∧ s.id ≠ obj.id := by
      rw [hids s hs]
      tauto
    simp only [deactivated, besides, hiff]
  · rw [if_neg hactive] at h
    cases h
    have hsame : ∀ s, besides obj s = s := fun s => besides_eq (Or.inl (by simpa using hactive))
    simp [hsame]

/-- The refresh reads the row as it was flushed. -/
theorem run_activate {obj row : PromptVersion} {m : Database} (hobj : obj ∈ m.versions)
    (h : (activate obj).run m = .ok (row, db')) :
    row = obj ∧ ∀ x, x ∈ db'.versions ↔ ∃ s ∈ m.versions, besides obj s = x := by
  obtain ⟨_, n, hdeactivate, hread⟩ := Prog.run_bind_ok.mp h
  rw [Prog.bind_eq, Prog.run_select_bind] at hread
  cases hread
  have hmem := run_deactivateOthers hdeactivate
  have hrow : db'.version obj.id = some obj :=
    Database.version_eq_some.mpr ⟨(hmem obj).mpr ⟨obj, hobj, besides_self⟩, rfl⟩
  rw [hrow]
  exact ⟨rfl, hmem⟩

/-- The flush of a loaded row stores it as it was assigned. -/
theorem run_flushVersion {obj : PromptVersion} {set : PromptVersionUpdate}
    (hobj : obj ∈ db.versions) (h : (flushVersion obj set).run db = .ok ((), db')) :
    ∀ x, x ∈ db'.versions ↔ x = set.applyTo obj ∨ (x ∈ db.versions ∧ x.id ≠ obj.id) := by
  have hsame : ∀ old ∈ db.versions, old.id = obj.id → old = obj :=
    fun old hold hid => Table.eq_of_key_eq hold hobj hid
  intro x
  unfold flushVersion at h
  by_cases hempty : (set.against obj).isEmpty = true
  · -- no column differed, so no UPDATE was sent
    rw [if_pos hempty] at h
    cases h
    have hkept : set.applyTo obj = obj := by
      rw [← set.applyTo_against, PromptVersionUpdate.applyTo_of_isEmpty hempty]
    rw [hkept]
    constructor
    · intro hx
      by_cases hid : x.id = obj.id
      · exact Or.inl (hsame x hx hid)
      · exact Or.inr ⟨hx, hid⟩
    · rintro (rfl | ⟨hx, _⟩)
      · exact hobj
      · exact hx
  · rw [if_neg hempty] at h
    rw [apply_update (Prog.run_exec_ok.mp h)]
    constructor
    · rintro ⟨old, hold, rfl⟩
      by_cases hid : old.id = obj.id
      · rw [if_pos hid, hsame old hold hid, set.applyTo_against]
        exact Or.inl rfl
      · rw [if_neg hid]
        exact Or.inr ⟨hold, hid⟩
    · rintro (rfl | ⟨hx, hid⟩)
      · exact ⟨obj, hobj, (if_pos rfl).trans (set.applyTo_against obj)⟩
      · exact ⟨x, hx, if_neg hid⟩

/-- Up to its activation a request stores one row. -/
theorem run_handler {r : Request} {row : PromptVersion} (h : r.handler.run db = .ok (row, db')) :
    ∃ obj m, (activate obj).run m = .ok (row, db') ∧ obj.id = r.id ∧
      ∀ x, x ∈ m.versions ↔ x = obj ∨ (x ∈ db.versions ∧ x.id ≠ r.id) := by
  cases r with
  | create id payload =>
    obtain ⟨_, m, hins, hactivate⟩ := Prog.run_bind_ok.mp h
    obtain ⟨hfresh, hmem⟩ := apply_insert (Prog.run_exec_ok.mp hins)
    refine ⟨payload.row id, m, hactivate, rfl, fun x => ?_⟩
    rw [hmem, or_comm]
    exact or_congr_right ⟨fun hx => ⟨hx, hfresh x hx⟩, And.left⟩
  | update id payload =>
    obtain ⟨obj, hobj, hbody⟩ := run_getOr404.mp h
    obtain ⟨hstored, rfl⟩ := Database.version_eq_some.mp hobj
    obtain ⟨_, m, hflush, hactivate⟩ := Prog.run_bind_ok.mp hbody
    exact ⟨payload.applyTo obj, m, hactivate, rfl, run_flushVersion hstored hflush⟩

theorem activatesOnly_of_run {r : Request} {row : PromptVersion}
    (h : r.handler.run db = .ok (row, db')) : ActivatesOnly r.id row db db' := by
  obtain ⟨obj, m, hactivate, hid, hm⟩ := run_handler h
  obtain ⟨rfl, hmem⟩ := run_activate ((hm obj).mpr (Or.inl rfl)) hactivate
  have hself : row ∈ db'.versions :=
    (hmem row).mpr ⟨row, (hm row).mpr (Or.inl rfl), besides_self⟩
  -- the other versions, one by one
  have hothers : ∀ x, x.id ≠ r.id →
      (x ∈ db'.versions ↔ ∃ s ∈ db.versions, s.id ≠ r.id ∧ besides row s = x) := by
    intro x hx
    rw [hmem]
    constructor
    · rintro ⟨s, hs, rfl⟩
      rcases (hm s).mp hs with rfl | ⟨hs, hsid⟩
      · exact absurd hid (by simpa using hx)
      · exact ⟨s, hs, hsid, rfl⟩
    · rintro ⟨s, hs, hsid, rfl⟩
      exact ⟨s, (hm s).mpr (Or.inr ⟨hs, hsid⟩), rfl⟩
  have hkept : ∀ x, x.id ≠ r.id → (row.isActive = false ∨ x.scope ≠ row.scope) →
      (x ∈ db'.versions ↔ x ∈ db.versions) := by
    intro x hx hfree
    rw [hothers x hx]
    constructor
    · rintro ⟨s, hs, _, rfl⟩
      rw [besides_scope] at hfree
      rw [besides_eq hfree]
      exact hs
    · intro hs
      exact ⟨x, hs, hx, besides_eq hfree⟩
  refine ⟨⟨hself, hid⟩, ?_, ?_, ?_, ?_, ?_⟩
  · intro hactive s hs hsactive hscope
    obtain ⟨t, _, rfl⟩ := (hmem s).mp hs
    rw [besides_scope] at hscope
    by_cases htid : t.id = row.id
    · exact Table.eq_of_key_eq hs hself (by simpa [key] using htid)
    · -- it would have been deactivated
      rw [besides, if_pos ⟨hactive, hscope, htid⟩] at hsactive
      cases hsactive
  · intro hinactive s hs
    exact hkept s hs (Or.inl hinactive)
  · intro s hs hscope
    exact hkept s hs (Or.inr hscope)
  · intro s hs hsid
    exact ⟨besides row s, (hothers _ (by simpa using hsid)).mpr ⟨s, hs, hsid, rfl⟩,
      besides_inactive⟩
  · intro s' hs' hid'
    obtain ⟨s, hs, _, rfl⟩ := (hothers s' hid').mp hs'
    exact ⟨s, hs, besides_inactive⟩

/-! ## Over whole runs -/

/-- One activation keeps the scopes exclusive: two active versions of a scope
would have been there before. -/
theorem ActivatesOnly.oneActive {id : Int} {row : PromptVersion}
    (h : ActivatesOnly id row db db') (hdb : OneActive db) : OneActive db' := by
  have hold : ∀ s ∈ db'.versions, s ≠ row → s.isActive = true → s ∈ db.versions ∨
      (row.isActive = true ∧ s.scope = row.scope) := by
    intro s hs hne _
    have hsid : s.id ≠ id := by
      intro hsid
      exact hne (Table.eq_of_key_eq hs h.stored.1 (hsid.trans h.stored.2.symm))
    by_cases hscope : s.scope = row.scope
    · by_cases hactive : row.isActive = true
      · exact Or.inr ⟨hactive, hscope⟩
      · exact Or.inl ((h.inactive (by simpa using hactive) s hsid).mp hs)
    · exact Or.inl ((h.otherScopes s hsid hscope).mp hs)
  have hrow : ∀ s ∈ db'.versions, s.isActive = true → row.isActive = true →
      s.scope = row.scope → s = row := fun s hs hsa hra => h.active hra s hs hsa
  intro s hs t ht hsa hta hscope
  by_cases hsr : s = row
  · subst hsr
    exact (hrow t ht hta hsa hscope.symm).symm
  · by_cases htr : t = row
    · subst htr
      exact hrow s hs hsa hta hscope
    · rcases hold s hs hsr hsa with hsdb | ⟨hra, hss⟩
      · rcases hold t ht htr hta with htdb | ⟨hra, hts⟩
        · exact hdb s hsdb t htdb hsa hta hscope
        · exact absurd (hrow t ht hta hra hts) htr
      · exact absurd (hrow s hs hsa hra hss) hsr

theorem OneActive.accepted {r : Request} {row : PromptVersion} (hdb : OneActive db)
    (h : r.handler.run db = .ok (row, db')) : OneActive db' :=
  (activatesOnly_of_run h).oneActive hdb

/-- `delete_prompt_version`, with its session. -/
def deletePromptVersion (id : Int) (db : Database) : Except HttpException Unit × Database :=
  match db.version id with
  | none => (.error (notFound "prompt_version_not_found"), db)
  | some _ => (.ok (), { db with versions := db.versions.delete fun r => r.id = id })

inductive Call where
  | write (r : Request)
  | delete (id : Int)

/-- One request after the other. -/
def serve (db : Database) : Call → Option Database
  | .write r => some (r.handler.session db).2
  | .delete id => some (deletePromptVersion id db).2

def Database.empty (rowOk : PromptVersion → Bool) : Database := ⟨rowOk, .empty⟩

theorem OneActive.delete (hdb : OneActive db) (id : Int) :
    OneActive (deletePromptVersion id db).2 := by
  unfold deletePromptVersion
  cases db.version id with
  | none => exact hdb
  | some row =>
    intro s hs t ht
    exact hdb s (Table.mem_delete.mp hs).1 t (Table.mem_delete.mp ht).1

theorem OneActive.serve {c : Call} (hdb : OneActive db) (h : Prompt.serve db c = some db') :
    OneActive db' := by
  cases c with
  | write r =>
    cases h
    unfold Prog.session
    cases hrun : r.handler.run db with
    | ok x => exact hdb.accepted hrun
    | error e => exact hdb
  | delete id =>
    cases h
    exact hdb.delete id

/-- **Activation changes exactly one scope**, on every table and for every
request that is accepted. So every run from the empty table keeps at most one
active version in each scope. -/
theorem activation_one_scope :
    (∀ (db : Database) (r : Request) (row : PromptVersion) (db' : Database),
      r.handler.run db = .ok (row, db') → ActivatesOnly r.id row db db') ∧
    ∀ rowOk cs, Always serve OneActive (Database.empty rowOk) cs := by
  constructor
  · intro db r row db' h
    exact activatesOnly_of_run h
  · intro rowOk cs
    refine always_of_step (fun db c db' hdb h => hdb.serve h) ?_ cs
    intro s hs
    exact absurd hs (Table.not_mem_empty s)

/-- Version 1 is active in scope `(main, 1)` and version 2 in `(main, 2)`. -/
def twoScopes : Database where
  rowOk := fun _ => true
  versions := ⟨[⟨⟨⟨⟨"main"⟩, 1⟩, "a", none, true⟩, 1⟩, ⟨⟨⟨⟨"main"⟩, 2⟩, "b", none, true⟩, 2⟩],
    by decide⟩

/-- Version 2 is moved to the scope of version 1. -/
def moveScope : Request := .update 2 ⟨none, some 1, none, none, none⟩

theorem activation_one_scope_moved :
    ∃ row db', moveScope.handler.run twoScopes = .ok (row, db') ∧
      ActivatesOnly moveScope.id row twoScopes db' := by
  have hrun : moveScope.handler.run twoScopes = .ok (_, _) := rfl
  exact ⟨_, _, hrun, activation_one_scope.1 _ _ _ _ hrun⟩

end IsalesApi.Prompt
