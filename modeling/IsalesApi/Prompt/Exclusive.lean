import IsalesApi.Foundation.ReadCommitted
import IsalesApi.Prompt.Activation

/-!
# At most one active version per scope

Both handlers write first and deactivate the other versions of the scope
afterwards. Alone this is enough: the `UPDATE` of `_deactivate_siblings` finds
every other version. In a transaction it finds what was committed when it
started, so a version that another transaction makes active and commits later is
missed. The commit of a request keeps the scopes exclusive exactly when nothing
was missed (`NoneMissed`).
-/

namespace IsalesApi.Prompt

open Foundation

variable {db db' : Database}

/-! ## What the requests write -/

/-- The columns the pending `UPDATE` of the request's row sets. -/
def sentIn (ws : List Write) : PromptVersionUpdate :=
  (ws.findSome? fun w => match w with
    | .update _ set => some set
    | _ => none).getD ⟨none, none, none, none, none⟩

theorem sentIn_deactivations (ids : List Int) (scope : Scope) :
    sentIn (ids.map fun j => .deactivate j scope) = ⟨none, none, none, none, none⟩ := by
  rw [sentIn, List.findSome?_eq_none_iff.mpr]
  · rfl
  · intro w hw
    obtain ⟨j, _, rfl⟩ := List.mem_map.mp hw
    rfl

/-- The row of the request as its commit stores it. -/
def Request.stored (r : Request) (db : Database) (ws : List Write) : Option PromptVersion :=
  match r with
  | .create id payload => some (payload.row id)
  | .update id _ => (db.version id).map (sentIn ws).applyTo

/-- The row is written first; then siblings are deactivated, in one scope. -/
structure VersionWrites (r : Request) (first : List Write) (ids : List Int) (scope : Scope)
    (ws : List Write) : Prop where
  first_eq : match r with
    | .create id payload => first = [.insert (payload.row id)]
    | .update id _ => (∃ set, first = [.update id set]) ∨ first = []
  others : ∀ j ∈ ids, j ≠ r.id
  writes : ws = first ++ ids.map fun j => .deactivate j scope

section VersionWrites

variable {r : Request} {first ws : List Write} {ids : List Int} {scope : Scope}

theorem VersionWrites.mem_deactivate (h : VersionWrites r first ids scope ws) {j : Int}
    {scope' : Scope} : Write.deactivate j scope' ∈ ws ↔ j ∈ ids ∧ scope' = scope := by
  obtain ⟨hfirst, _, rfl⟩ := h
  have hnot : Write.deactivate j scope' ∉ first := by
    cases r with
    | create id payload => rw [hfirst]; simp
    | update id payload => rcases hfirst with ⟨set, rfl⟩ | rfl <;> simp
  rw [List.mem_append, or_iff_right hnot, List.mem_map]
  constructor
  · rintro ⟨_, hj, ⟨⟩⟩
    exact ⟨hj, rfl⟩
  · rintro ⟨hj, rfl⟩
    exact ⟨j, hj, rfl⟩

/-- After its first write the row of the request is stored, and the other rows
are as they were. -/
theorem VersionWrites.mem_first (h : VersionWrites r first ids scope ws) {m : Database}
    (happly : applyAll first db = some m) (x : PromptVersion) :
    x ∈ m.versions ↔ (x ∈ db.versions ∧ x.id ≠ r.id) ∨ r.stored db ws = some x := by
  obtain ⟨hfirst, _, hws⟩ := h
  cases r with
  | create id payload =>
    obtain rfl := hfirst
    obtain ⟨hfresh, hmem⟩ := apply_insert (applyAll_singleton.mp happly)
    rw [hmem]
    constructor
    · rintro (hx | rfl)
      · exact Or.inl ⟨hx, hfresh x hx⟩
      · exact Or.inr rfl
    · rintro (⟨hx, _⟩ | hx)
      · exact Or.inl hx
      · exact Or.inr (Option.some.inj hx).symm
  | update id payload =>
    have hrows : ∀ x, x ∈ m.versions ↔
        ∃ old ∈ db.versions, (if old.id = id then (sentIn ws).applyTo old else old) = x := by
      rcases hfirst with ⟨set, rfl⟩ | rfl
      · have hsent : sentIn ws = set := by rw [hws]; rfl
        rw [hsent]
        exact apply_update (applyAll_singleton.mp happly)
      · -- no column differed, so no UPDATE was sent
        cases happly
        have hid : ∀ old, (sentIn ws).applyTo old = old := by
          rw [hws, List.nil_append, sentIn_deactivations]
          exact fun old => rfl
        simp [hid]
    rw [hrows]
    constructor
    · rintro ⟨old, hold, rfl⟩
      by_cases hid : old.id = id
      · rw [if_pos hid]
        refine Or.inr ?_
        rw [Request.stored, Database.version_eq_some.mpr ⟨hold, hid⟩]
        rfl
      · rw [if_neg hid]
        exact Or.inl ⟨hold, hid⟩
    · rintro (⟨hx, hid⟩ | hx)
      · exact ⟨x, hx, if_neg hid⟩
      · obtain ⟨old, hold, rfl⟩ := Option.map_eq_some_iff.mp hx
        obtain ⟨hold, hid⟩ := Database.version_eq_some.mp hold
        exact ⟨old, hold, if_pos hid⟩

theorem Request.stored_id {r : Request} {v : PromptVersion} (h : r.stored db ws = some v) :
    v.id = r.id := by
  cases r with
  | create id payload =>
    cases h
    rfl
  | update id payload =>
    obtain ⟨old, hold, rfl⟩ := Option.map_eq_some_iff.mp h
    exact (Database.version_eq_some.mp hold).2

/-! ## The commit -/

/-- If the row of the request is stored active, its deactivation has found every
other version that is committed active in its scope. -/
def NoneMissed (r : Request) (db : Database) (ws : List Write) : Prop :=
  ∀ v, r.stored db ws = some v → v.isActive = true →
    ∀ s ∈ db.versions, s.id ≠ r.id → s.isActive = true → s.scope = v.scope →
      .deactivate s.id s.scope ∈ ws

/-- What a commit leaves: the row of the request, and the others with those
deactivated that were found. -/
theorem VersionWrites.mem_versions (h : VersionWrites r first ids scope ws)
    (happly : applyAll ws db = some db') (x : PromptVersion) :
    x ∈ db'.versions ↔ r.stored db ws = some x ∨
      ∃ s ∈ db.versions, s.id ≠ r.id ∧ deactivated ids scope s = x := by
  have hws := h.writes
  rw [hws] at happly
  obtain ⟨m, hm, happly⟩ := applyAll_append.mp happly
  rw [applyAll_deactivate happly]
  -- the row of the request is not among its siblings
  have hown : ∀ v, r.stored db ws = some v → deactivated ids scope v = v := by
    intro v hv
    refine if_neg fun hmem => h.others v.id hmem.1 (Request.stored_id hv)
  constructor
  · rintro ⟨old, hold, rfl⟩
    rcases (h.mem_first hm old).mp hold with ⟨hold, hid⟩ | hv
    · exact Or.inr ⟨old, hold, hid, rfl⟩
    · exact Or.inl (by rw [hown old hv]; exact hv)
  · rintro (hv | ⟨s, hs, hid, rfl⟩)
    · exact ⟨x, (h.mem_first hm x).mpr (Or.inr hv), hown x hv⟩
    · exact ⟨s, (h.mem_first hm s).mpr (Or.inl ⟨hs, hid⟩), rfl⟩

/-- A commit keeps the scopes exclusive exactly when nothing was missed. -/
theorem VersionWrites.oneActive_iff (h : VersionWrites r first ids scope ws) (hdb : OneActive db)
    (happly : applyAll ws db = some db') : OneActive db' ↔ NoneMissed r db ws := by
  have hmem := h.mem_versions happly
  constructor
  · intro hone v hv hactive s hs hid hsactive hscope
    by_contra hmissed
    rw [h.mem_deactivate] at hmissed
    have hstill : (deactivated ids scope s).isActive = true :=
      deactivated_isActive.mpr ⟨hsactive, hmissed⟩
    have hsame := hone v ((hmem v).mpr (Or.inl hv)) _ ((hmem _).mpr (Or.inr ⟨s, hs, hid, rfl⟩))
      hactive hstill (by rw [deactivated_scope]; exact hscope.symm)
    have hids : v.id = s.id := by rw [hsame, deactivated_id]
    exact hid (hids.symm.trans (Request.stored_id hv))
  · intro hnone
    -- the row of the request against another one
    have hclash : ∀ v s, r.stored db ws = some v → s ∈ db.versions → s.id ≠ r.id →
        v.isActive = true → (deactivated ids scope s).isActive = true → s.scope ≠ v.scope := by
      intro v s hv hs hid hactive hstill hscope
      obtain ⟨hsactive, hkept⟩ := deactivated_isActive.mp hstill
      exact hkept (h.mem_deactivate.mp (hnone v hv hactive s hs hid hsactive hscope))
    intro x hx y hy hxa hya hscope
    rcases (hmem x).mp hx with hv | ⟨s, hs, hsid, rfl⟩
    · rcases (hmem y).mp hy with hw | ⟨t, ht, htid, rfl⟩
      · exact Option.some.inj (hv.symm.trans hw)
      · rw [deactivated_scope] at hscope
        exact absurd hscope.symm (hclash x t hv ht htid hxa hya)
    · rcases (hmem y).mp hy with hw | ⟨t, ht, _, rfl⟩
      · rw [deactivated_scope] at hscope
        exact absurd hscope (hclash y s hw hs hsid hya hxa)
      · rw [deactivated_scope, deactivated_scope] at hscope
        rw [hdb s hs t ht (deactivated_isActive.mp hxa).1 (deactivated_isActive.mp hya).1 hscope]

end VersionWrites

/-! ## The handlers -/

theorem ends_activate {obj row : PromptVersion} {ws : List Write}
    (h : (activate obj).Ends row ws) :
    ∃ ids : List Int, (∀ j ∈ ids, j ≠ obj.id) ∧ ws = ids.map fun j => .deactivate j obj.scope := by
  obtain ⟨_, us, vs, hdeactivate, hread, rfl⟩ := Prog.ends_bind.mp h
  obtain ⟨d, hread⟩ := Prog.ends_select_bind.mp hread
  obtain ⟨_, rfl⟩ := Prog.ends_done.mp hread
  rw [List.append_nil]
  unfold deactivateOthers at hdeactivate
  split at hdeactivate
  · obtain ⟨m, rfl⟩ := Prog.ends_execWhere.mp hdeactivate
    refine ⟨(m.versions.select fun r => r.scope = obj.scope && r.id ≠ obj.id).map
      PromptVersion.id, ?_, by rw [List.map_map]; rfl⟩
    intro j hj
    obtain ⟨r, hr, rfl⟩ := List.mem_map.mp hj
    have hsel := (Table.mem_select.mp hr).2
    simp only [Bool.and_eq_true, decide_eq_true_eq] at hsel
    exact hsel.2
  · obtain ⟨_, rfl⟩ := Prog.ends_done.mp hdeactivate
    exact ⟨[], by simp, rfl⟩

theorem ends_handler {r : Request} {row : PromptVersion} {ws : List Write}
    (h : r.handler.Ends row ws) : ∃ first ids scope, VersionWrites r first ids scope ws := by
  cases r with
  | create id payload =>
    obtain ⟨_, us, vs, hins, hactivate, rfl⟩ := Prog.ends_bind.mp h
    obtain rfl := Prog.ends_exec.mp hins
    obtain ⟨ids, hids, rfl⟩ := ends_activate hactivate
    exact ⟨_, ids, _, rfl, hids, rfl⟩
  | update id payload =>
    obtain ⟨_, obj, hobj, hbody⟩ := ends_getOr404.mp h
    obtain ⟨_, rfl⟩ := Database.version_eq_some.mp hobj
    obtain ⟨_, us, vs, hflush, hactivate, rfl⟩ := Prog.ends_bind.mp hbody
    obtain ⟨ids, hids, rfl⟩ := ends_activate hactivate
    refine ⟨us, ids, _, ?_, hids, rfl⟩
    unfold flushVersion at hflush
    split at hflush
    · exact Or.inr (Prog.ends_done.mp hflush).2
    · exact Or.inl ⟨_, Prog.ends_exec.mp hflush⟩

/-! ## Two overlapping requests -/

/-- Two requests begin as transactions on a committed table. -/
def overlap (r : Fin 2 → Request) (db : Database) :
    Server (Fin 2) Database Write HttpException PromptVersion :=
  Server.start db fun i => (r i).handler

/-- **At most one active version.** Two requests, in any interleaving, leave at
most one active version in every scope if and only if no commit has missed one. -/
theorem oneActive_iff_noneMissed {r : Fin 2 → Request} (hdb : OneActive db)
    {as : List (ServerAction (Fin 2))}
    {t : Server (Fin 2) Database Write HttpException PromptVersion}
    (hrun : exec Server.step (overlap r db) as = some t) :
    OneActive t.committed ↔
      Along Server.step (AtCommit fun i => NoneMissed (r i)) (overlap r db) as := by
  refine last_iff_atCommit ?_ (fun i _ _ h => hdb.accepted h) hdb hrun
  intro i row ws m m' hends hm happly
  obtain ⟨first, ids, scope, hwrites⟩ := ends_handler hends
  exact hwrites.oneActive_iff hm happly

def mainPrompt (content : String) : PromptVersionCreate :=
  ⟨⟨⟨"main"⟩, 1⟩, content, none, true⟩

/-- Version 1 is active in its scope. -/
def oneVersion : Database where
  rowOk := fun _ => true
  versions := ⟨[(mainPrompt "v1").row 1], by decide⟩

/-- Versions 2 and 3 are created active in the same scope. -/
def twoCreates : Fin 2 → Request
  | 0 => .create 2 (mainPrompt "v2")
  | 1 => .create 3 (mainPrompt "v3")

/-- Insert, search, deactivate version 1, refresh and commit; then the same, with
two versions to deactivate. -/
def oneByOne : List (ServerAction (Fin 2)) :=
  [.advance 0, .advance 0, .advance 0, .advance 0, .advance 0,
    .advance 1, .advance 1, .advance 1, .advance 1, .advance 1, .advance 1]

theorem oneActive_iff_noneMissed_oneByOne :
    ∃ t, exec Server.step (overlap twoCreates oneVersion) oneByOne = some t ∧
      Along Server.step (AtCommit fun i => NoneMissed (twoCreates i))
        (overlap twoCreates oneVersion) oneByOne :=
  ⟨_, rfl, (oneActive_iff_noneMissed (by decide) rfl).mp (by decide)⟩

/-- Both insert before either searches. The second search waits for version 1,
which the first has locked, and does not look for others afterwards. -/
def bothInsert : List (ServerAction (Fin 2)) :=
  [.advance 0, .advance 1, .advance 0, .advance 1, .advance 0, .advance 0, .advance 0,
    .advance 1, .advance 1, .advance 1]

/-- Versions 2 and 3 are both active in the end. -/
theorem two_active_versions :
    OneActive oneVersion ∧ ∃ t, exec Server.step (overlap twoCreates oneVersion) bothInsert =
      some t ∧ (∀ i, ∃ v, t.sessions i = .committed v) ∧ ¬ OneActive t.committed := by
  refine ⟨by decide, _, rfl, fun i => ?_, by decide⟩
  match i with
  | 0 => exact ⟨_, rfl⟩
  | 1 => exact ⟨_, rfl⟩

end IsalesApi.Prompt
