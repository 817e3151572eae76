import IsalesApi.Prompt.Catalogue

/-!
# The handlers keep the catalogue

The table shows the catalogue when each id is found alike in both. A request that
is accepted stores its row and switches others off, which is what it means that
the scope of the row points at it.
-/

namespace IsalesApi.Prompt

open Foundation Listings

/-- The table says what the catalogue does. -/
structure Shows (db : Database) (c : Catalogue) : Prop where
  rowOk : db.rowOk = c.rowOk
  versions : ∀ id, db.version id = c.find id

variable {db db' m : Database} {c : Catalogue}

/-- What shows a catalogue has at most one active version in each scope. -/
theorem Shows.oneActive (h : Shows db c) : OneActive db := by
  have hforce : ∀ r ∈ db.versions, r.isActive = true → c.inForce r.scope = some r.id := by
    intro r hr hactive
    have hfind := (h.versions r.id).symm.trans (Database.version_eq_some.mpr ⟨hr, rfl⟩)
    obtain ⟨d, _, hrow⟩ := Option.map_eq_some_iff.mp hfind
    have hscope : d.toScope = r.scope := congrArg PromptVersion.scope hrow
    rw [← hrow] at hactive
    rw [← hscope]
    exact of_decide_eq_true hactive
  intro r hr s hs hra hsa hscope
  have hids : some r.id = some s.id := by
    rw [← hforce r hr hra, ← hforce s hs hsa, hscope]
  exact Table.eq_of_key_eq hr hs (Option.some.inj hids)

/-- The drafts of a table, and the first active version of each scope. -/
def Database.catalogue (db : Database) : Catalogue where
  rowOk := db.rowOk
  drafts := db.versions.byKey PromptVersion.draft
  inForce := fun scope =>
    (db.versions.rows.find? fun r => r.isActive && r.scope = scope).map PromptVersion.id
  points := by
    intro scope id h
    obtain ⟨r, hr, rfl⟩ := Option.map_eq_some_iff.mp h
    have hmem : r ∈ db.versions := List.mem_of_find?_eq_some hr
    have hsel := List.find?_some hr
    rw [Bool.and_eq_true, decide_eq_true_eq] at hsel
    have hget : db.versions.get? r.id = some r := Table.get?_eq_some.mpr ⟨hmem, rfl⟩
    refine ⟨r.draft, ?_, hsel.2⟩
    rw [Table.lookup_byKey, hget]
    rfl

theorem shows_catalogue (hdb : OneActive db) : Shows db db.catalogue := by
  refine ⟨rfl, fun id => ?_⟩
  rw [Catalogue.find]
  show db.version id = ((db.versions.byKey PromptVersion.draft).lookup id).map _
  rw [Table.lookup_byKey]
  show db.version id = ((db.version id).map PromptVersion.draft).map _
  cases hrow : db.version id with
  | none => rfl
  | some row =>
    obtain ⟨hmem, rfl⟩ := Database.version_eq_some.mp hrow
    -- the first active version of the scope is the row, if the row is active
    have hactive : decide (db.catalogue.inForce row.scope = some row.id) = row.isActive := by
      rw [Bool.eq_iff_iff, decide_eq_true_eq]
      constructor
      · intro h
        obtain ⟨r, hr, hid⟩ := Option.map_eq_some_iff.mp h
        have hsel := List.find?_some hr
        obtain rfl : r = row := Table.eq_of_key_eq (List.mem_of_find?_eq_some hr) hmem hid
        exact (Bool.and_eq_true_iff.mp hsel).1
      · intro h
        cases hfound : db.versions.rows.find? fun r => r.isActive && r.scope = row.scope with
        | none =>
          have hnone := List.find?_eq_none.mp hfound row hmem
          simp [h] at hnone
        | some r =>
          have hsel := List.find?_some hfound
          rw [Bool.and_eq_true, decide_eq_true_eq] at hsel
          have hsame : r = row :=
            hdb r (List.mem_of_find?_eq_some hfound) row hmem hsel.1 h hsel.2
          show (db.versions.rows.find? _).map PromptVersion.id = some row.id
          rw [hfound, hsame]
          rfl
    show some row = some (PromptVersion.mk ⟨row.toScope, row.content, row.createdBy,
      decide (db.catalogue.inForce row.scope = some row.id)⟩ row.id)
    rw [hactive]

/-! ## Requests that write -/

theorem rowOk_applyAll {ws : List Write} (h : applyAll ws db = some db') :
    db'.rowOk = db.rowOk := by
  induction ws generalizing db with
  | nil =>
    cases h
    rfl
  | cons w ws ih =>
    obtain ⟨m, hm, h⟩ := applyAll_cons.mp h
    rw [ih h]
    have hstep : db.apply w = some m := hm
    unfold Database.apply at hstep
    split at hstep
    · split at hstep
      · obtain ⟨t, _, rfl⟩ := Option.map_eq_some_iff.mp hstep
        rfl
      · cases hstep
    · split at hstep
      · cases hstep
      · split at hstep
        · cases hstep
          rfl
        · cases hstep
    · cases hstep
      rfl

theorem rowOk_run {α : Type} {p : Handler α} {a : α} (h : p.run db = .ok (a, db')) :
    db'.rowOk = db.rowOk := by
  obtain ⟨ws, _, happly⟩ := Prog.ends_of_run h
  exact rowOk_applyAll happly

/-- What an accepted request leaves, id by id. -/
theorem version_run {r : Request} {row : PromptVersion} (h : r.handler.run db = .ok (row, db'))
    (id : Int) : db'.version id =
      if id = row.id then some row else (db.version id).map (besides row) := by
  obtain ⟨obj, m, hactivate, hid, hm⟩ := run_handler h
  obtain ⟨rfl, hmem⟩ := run_activate ((hm obj).mpr (Or.inl rfl)) hactivate
  ext x
  rw [Database.version_eq_some, hmem]
  by_cases hrow : id = row.id
  · rw [if_pos hrow]
    constructor
    -- under the id of the request there is only the row it has stored
    · rintro ⟨⟨s, hs, rfl⟩, hx⟩
      rcases (hm s).mp hs with rfl | ⟨_, hne⟩
      · rw [besides_self]
      · exact absurd ((besides_id.symm.trans hx).trans (hrow.trans hid)) hne
    · rintro ⟨⟩
      exact ⟨⟨row, (hm row).mpr (Or.inl rfl), besides_self⟩, hrow.symm⟩
  · rw [if_neg hrow, Option.map_eq_some_iff]
    simp only [Database.version_eq_some]
    constructor
    · rintro ⟨⟨s, hs, rfl⟩, hx⟩
      rw [besides_id] at hx
      rcases (hm s).mp hs with rfl | ⟨hs, _⟩
      · exact absurd hx.symm hrow
      · exact ⟨s, ⟨hs, hx⟩, rfl⟩
    · rintro ⟨s, ⟨hs, hx⟩, rfl⟩
      have hne : s.id ≠ r.id := fun h => hrow (hx.symm.trans (h.trans hid.symm))
      exact ⟨⟨s, (hm s).mpr (Or.inr ⟨hs, hne⟩), rfl⟩, by rw [besides_id, hx]⟩

theorem Shows.store {r : Request} {row : PromptVersion} (hc : Shows db c)
    (h : r.handler.run db = .ok (row, db')) : Shows db' (c.store row) := by
  refine ⟨(rowOk_run h).trans hc.rowOk, fun id => ?_⟩
  rw [version_run h, Catalogue.find_store, hc.versions]

/-- Nothing refuses a deactivation. -/
theorem exists_run_activate {obj : PromptVersion} (hobj : obj ∈ m.versions) :
    ∃ db', (activate obj).run m = .ok (obj, db') := by
  have hall : ∀ (rows : List PromptVersion) (scope : Scope) (m : Database),
      ∃ db', applyAll (rows.map fun r => Write.deactivate r.id scope) m = some db' := by
    intro rows scope
    induction rows with
    | nil => exact fun m => ⟨m, rfl⟩
    | cons r rows ih => exact fun m => ih _
  have hothers : ∃ db', (deactivateOthers obj).run m = .ok ((), db') := by
    unfold deactivateOthers
    split
    · obtain ⟨db', h⟩ := hall (m.versions.select fun r => r.scope = obj.scope && r.id ≠ obj.id)
        obj.scope m
      exact ⟨db', Prog.run_execWhere_ok.mpr h⟩
    · exact ⟨m, rfl⟩
  obtain ⟨db', hdeactivate⟩ := hothers
  have hrun : (activate obj).run m = .ok ((db'.version obj.id).getD obj, db') :=
    Prog.run_bind_ok.mpr ⟨(), db', hdeactivate, rfl⟩
  have hrow := (run_activate hobj hrun).1
  rw [hrow] at hrun
  exact ⟨db', hrun⟩

theorem isEmpty_against_iff {set : PromptVersionUpdate} {row : PromptVersion} :
    (set.against row).isEmpty = true ↔ set.applyTo row = row := by
  constructor
  · intro h
    rw [← set.applyTo_against, PromptVersionUpdate.applyTo_of_isEmpty h]
  · intro h
    have hcolumn : ∀ {α : Type} [DecidableEq α] (assigned : Option α) (loaded : α),
        assigned.getD loaded = loaded → (changed assigned loaded).isNone = true := by
      intro α _ assigned loaded heq
      cases assigned with
      | none => rfl
      | some v =>
        obtain rfl : v = loaded := heq
        simp [changed, Option.filter]
    have hscopeType := hcolumn set.scopeType row.scopeType (congrArg (fun r => r.scopeType) h)
    have hscopeId := hcolumn set.scopeId row.scopeId (congrArg (fun r => r.scopeId) h)
    have hcontent := hcolumn set.content row.content (congrArg (fun r => r.content) h)
    have hcreatedBy := hcolumn set.createdBy row.createdBy (congrArg (fun r => r.createdBy) h)
    have hisActive := hcolumn set.isActive row.isActive (congrArg (fun r => r.isActive) h)
    simp only [PromptVersionUpdate.isEmpty, PromptVersionUpdate.against, hscopeType, hscopeId,
      hcontent, hcreatedBy, hisActive, Bool.and_self]

/-- The flush of a loaded row is refused when the row has changed and breaks a
constraint. -/
theorem run_flushVersion_eq {row : PromptVersion} {set : PromptVersionUpdate}
    (hrow : row ∈ db.versions) :
    (set.applyTo row ≠ row ∧ db.rowOk (set.applyTo row) = false →
        (flushVersion row set).run db = .error internalServerError) ∧
      (¬ (set.applyTo row ≠ row ∧ db.rowOk (set.applyTo row) = false) →
        ∃ m, (flushVersion row set).run db = .ok ((), m)) := by
  have hloaded : db.version row.id = some row := Database.version_eq_some.mpr ⟨hrow, rfl⟩
  unfold flushVersion
  by_cases hsame : set.applyTo row = row
  · rw [if_pos (isEmpty_against_iff.mpr hsame)]
    exact ⟨fun h => absurd hsame h.1, fun _ => ⟨db, rfl⟩⟩
  · rw [if_neg (mt isEmpty_against_iff.mp hsame)]
    have happly : db.apply (.update row.id (set.against row)) =
        if db.rowOk (set.applyTo row) then some { db with
          versions := db.versions.update (fun r => r.id = row.id) (set.against row).applyTo
            (set.against row).key_applyTo } else none := by
      simp only [Database.apply, hloaded, set.applyTo_against]
    constructor
    · rintro ⟨_, hok⟩
      refine Prog.run_exec_refused ?_
      show db.apply _ = none
      rw [happly, hok]
      rfl
    · intro hok
      have hadmitted : db.rowOk (set.applyTo row) = true := by
        simpa using fun h => hok ⟨hsame, h⟩
      rw [if_pos hadmitted] at happly
      exact ⟨_, Prog.run_exec_ok.mpr happly⟩

/-- A row is refused for a taken id or by a constraint. -/
theorem apply_insert_eq_none (hc : Shows db c) {id : Int} {payload : PromptVersionCreate} :
    db.apply (.insert (payload.row id)) = none ↔
      id ∈ c.drafts ∨ c.rowOk (payload.row id) = false := by
  have htaken : db.versions.insert (payload.row id) = none ↔ id ∈ c.drafts := by
    rw [Table.insert_eq_none, Finmap.mem_iff]
    constructor
    · rintro ⟨x, hx, hkey⟩
      have hthere : c.find id = some x :=
        (hc.versions id).symm.trans (Database.version_eq_some.mpr ⟨hx, hkey⟩)
      obtain ⟨d, hd, _⟩ := Option.map_eq_some_iff.mp hthere
      exact ⟨d, hd⟩
    · rintro ⟨d, hd⟩
      have hthere : db.version id = some (c.version id d) := by
        rw [hc.versions, Catalogue.find, hd]
        rfl
      obtain ⟨hx, hkey⟩ := Database.version_eq_some.mp hthere
      exact ⟨_, hx, hkey⟩
  simp only [Database.apply, ← htaken, hc.rowOk]
  cases c.rowOk (payload.row id) <;> simp

theorem run_of_accept {r : Request} {row : PromptVersion} (hc : Shows db c)
    (h : c.accept r = .ok row) : ∃ db', r.handler.run db = .ok (row, db') := by
  cases r with
  | create id payload =>
    simp only [Catalogue.accept, ← apply_insert_eq_none hc] at h
    split at h
    · cases h
    · rename_i happly
      cases h
      obtain ⟨m, happly⟩ := Option.ne_none_iff_exists'.mp happly
      obtain ⟨db', hactivate⟩ :=
        exists_run_activate (((apply_insert happly).2 _).mpr (Or.inr rfl))
      exact ⟨db', Prog.run_bind_ok.mpr ⟨(), m, Prog.run_exec_ok.mpr happly, hactivate⟩⟩
  | update id payload =>
    simp only [Catalogue.accept, ← hc.versions, ← hc.rowOk] at h
    split at h
    · cases h
    · rename_i old hold
      split at h
      · cases h
      · rename_i hok
        cases h
        obtain ⟨hmem, _⟩ := Database.version_eq_some.mp hold
        obtain ⟨m, hflush⟩ := (run_flushVersion_eq hmem).2 hok
        obtain ⟨db', hactivate⟩ :=
          exists_run_activate ((run_flushVersion hmem hflush _).mpr (Or.inl rfl))
        refine ⟨db', (run_getOr404_some hold).trans ?_⟩
        exact Prog.run_bind_ok.mpr ⟨(), m, hflush, hactivate⟩

theorem run_of_refuse {r : Request} {e : HttpException} (hc : Shows db c)
    (h : c.accept r = .error e) : r.handler.run db = .error e := by
  cases r with
  | create id payload =>
    simp only [Catalogue.accept, ← apply_insert_eq_none hc] at h
    split at h
    · rename_i happly
      cases h
      exact Prog.run_bind_error.mpr (Or.inl (Prog.run_exec_refused happly))
    · cases h
  | update id payload =>
    simp only [Catalogue.accept, ← hc.versions, ← hc.rowOk] at h
    split at h
    · rename_i hnone
      cases h
      exact run_getOr404_none hnone
    · rename_i old hold
      split at h
      · rename_i hbad
        cases h
        obtain ⟨hmem, _⟩ := Database.version_eq_some.mp hold
        refine (run_getOr404_some hold).trans ?_
        exact Prog.run_bind_error.mpr (Or.inl ((run_flushVersion_eq hmem).1 hbad))
      · cases h

/-! ## One request -/

section Visits

variable {D : Type} {modelValidate : PromptVersion → Except HttpException D}

def columns : Columns PromptVersion PromptVersionCreate where
  rest row := row.toPromptVersionCreate
  row id payload := payload.row id
  key_row _ _ := rfl
  rest_row _ _ := rfl
  row_rest _ := rfl

theorem Shows.list (hc : Shows db c) (scan : Scan PromptVersion)
    (scopeType : Option PromptScopeType) (scopeId : Option Int) (page pageSize : Nat) :
    listPromptVersions scan modelValidate scopeType scopeId page pageSize db =
      ((pageOf page pageSize (listing c.version (Catalogue.Asked scopeType scopeId)
        c.drafts)).mapM modelValidate).map fun items =>
      ⟨items, (listing c.version (Catalogue.Asked scopeType scopeId) c.drafts).length, page,
        pageSize⟩ := by
  have hconditions : ∀ row : PromptVersion,
      ((whereEq (fun r : PromptVersion => r.scopeType) scopeType ++
          whereEq (fun r : PromptVersion => r.scopeId) scopeId).all fun p => p row) =
        Catalogue.Asked scopeType scopeId (key row) row.draft := by
    intro row
    cases scopeType <;> cases scopeId <;> simp [whereEq, Catalogue.Asked] <;> rfl
  let asked : Int → PromptVersionCreate → Bool := fun id payload =>
    Catalogue.Asked scopeType scopeId id (payload.row id).draft
  have hrows := Table.orderBy_desc columns scan (T := db.versions) (q := asked) hconditions
  have htotal := Table.countP_eq columns (T := db.versions) (q := asked) hconditions
  have hlookup : ∀ id, ((db.versions.toMap columns).lookup id).map (columns.row id) =
      (c.drafts.lookup id).map (c.version id) := by
    intro id
    rw [Table.lookup_toMap, Option.map_map]
    refine Eq.trans ?_ (hc.versions id)
    show (db.version id).map _ = db.version id
    cases hrow : db.version id with
    | none => rfl
    | some row =>
      obtain ⟨_, rfl⟩ := Database.version_eq_some.mp hrow
      rfl
  have hlisting : listing columns.row asked (db.versions.toMap columns) =
      listing c.version (Catalogue.Asked scopeType scopeId) c.drafts := by
    refine listing_congr hlookup fun id payload d hpayload hd => ?_
    have hsame := hlookup id
    rw [hpayload, hd] at hsame
    have hdraft := congrArg PromptVersion.draft (Option.some.inj hsame)
    exact congrArg (Catalogue.Asked scopeType scopeId id) hdraft
  rw [hlisting] at hrows htotal
  unfold listPromptVersions listRows Page.validate
  simp only
  rw [htotal]
  exact congrArg (fun rows => ((pageOf page pageSize rows).mapM modelValidate).map _) hrows

theorem run_read {p : Handler PromptVersion} {row : PromptVersion}
    (h : p.run db = .ok (row, db')) :
    (p.bind fun obj => (promptVersionRead modelValidate obj).bind fun read =>
        .done (Answer.version read)).run db =
      (modelValidate row).map fun read => (Answer.version read, db') := by
  rw [Prog.run_bind, h]
  show ((promptVersionRead modelValidate row).bind _).run db' = _
  unfold promptVersionRead
  cases modelValidate row <;> rfl

theorem run_getPromptVersion {id : Int} {row : PromptVersion} (h : db.version id = some row) :
    ((getPromptVersion modelValidate id).bind fun read => .done (Answer.version read)).run db =
      (modelValidate row).map fun read => (Answer.version read, db) := by
  rw [Prog.run_bind, getPromptVersion, run_getOr404_some h]
  unfold promptVersionRead
  cases modelValidate row <;> rfl

/-- A deleted draft is in force nowhere. -/
theorem Shows.delete (hc : Shows db c) (id : Int) :
    Shows { db with versions := db.versions.delete fun r => r.id = id } (c.remove id) := by
  refine ⟨hc.rowOk, fun id' => ?_⟩
  have hdelete := Table.get?_delete (T := db.versions) (p := fun r => r.id = id) (k := id)
    (fun r => decide_eq_true_iff) id'
  rw [Catalogue.find_remove, ← hc.versions]
  exact hdelete

/-- **One request.** -/
theorem simulates_catalogue :
    Simulates Shows (respond modelValidate) (Catalogue.respond modelValidate) := by
  intro db c visit hc
  cases visit with
  | list scan scopeType scopeId page pageSize =>
    refine ⟨?_, hc⟩
    show (listPromptVersions scan modelValidate scopeType scopeId page pageSize db).map _ = _
    rw [hc.list]
    simp only [Catalogue.respond]
    cases (pageOf page pageSize (listing c.version (Catalogue.Asked scopeType scopeId)
      c.drafts)).mapM modelValidate <;> rfl
  | get id =>
    cases hrow : db.version id with
    | none =>
      have hrun : ((getPromptVersion modelValidate id).bind fun read =>
          .done (Answer.version read)).run db = .error (notFound "prompt_version_not_found") :=
        Prog.run_bind_error.mpr (Or.inl (run_getOr404_none hrow))
      simp only [respond, Catalogue.respond, ← hc.versions, hrow, Prog.session, hrun]
      exact ⟨trivial, hc⟩
    | some row =>
      simp only [respond, Catalogue.respond, ← hc.versions, hrow, Prog.session,
        run_getPromptVersion hrow]
      cases modelValidate row with
      | error e => exact ⟨rfl, hc⟩
      | ok read => exact ⟨rfl, hc⟩
  | write r =>
    cases haccept : c.accept r with
    | error e =>
      have hrun := run_of_refuse hc haccept
      simp only [respond, Catalogue.respond, haccept, Prog.session]
      rw [Prog.run_bind, hrun]
      exact ⟨rfl, hc⟩
    | ok row =>
      obtain ⟨db', hrun⟩ := run_of_accept hc haccept
      simp only [respond, Catalogue.respond, haccept, Prog.session, run_read hrun]
      -- a row that cannot be shown is rolled back
      cases hread : modelValidate row with
      | error e => simpa [settle, Except.bind, Except.map, hread] using hc
      | ok read => simpa [settle, Except.bind, Except.map, hread] using hc.store hrun
  | delete id =>
    simp only [respond, Catalogue.respond, deletePromptVersion, hc.versions]
    cases c.find id with
    | none => exact ⟨rfl, hc⟩
    | some row => exact ⟨rfl, hc.delete id⟩

end Visits

/-- **The handlers keep the catalogue.** Every run of requests to
`/prompt-versions`, with lists and single versions, is answered as the catalogue
answers it, and leaves a table that shows what the catalogue has become. -/
theorem prompts_kept {D : Type} (modelValidate : PromptVersion → Except HttpException D)
    {db : Database} (hdb : OneActive db) (visits : List Visit) :
    (converse (respond modelValidate) db visits).1 =
        (converse (Catalogue.respond modelValidate) db.catalogue visits).1 ∧
      Shows (converse (respond modelValidate) db visits).2
        (converse (Catalogue.respond modelValidate) db.catalogue visits).2 :=
  simulates_catalogue.converse (shows_catalogue hdb) visits


/-- The version of the second scope is moved into the first one. -/
theorem prompts_kept_moveScope :
    (converse (respond Except.ok) twoScopes [.write moveScope, .get 1]).1 =
        (converse (Catalogue.respond Except.ok) twoScopes.catalogue
          [.write moveScope, .get 1]).1 ∧
      Shows (converse (respond Except.ok) twoScopes [.write moveScope, .get 1]).2
        (converse (Catalogue.respond Except.ok) twoScopes.catalogue
          [.write moveScope, .get 1]).2 :=
  prompts_kept Except.ok (by decide) [.write moveScope, .get 1]

end IsalesApi.Prompt
