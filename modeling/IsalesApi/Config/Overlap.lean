import IsalesApi.Config.Closed
import IsalesApi.Foundation.ReadCommitted

/-!
# Overlapping requests on one campaign

Two of the requests `PUT routing-rules`, `PATCH campaign`, `POST /role-configs`
and `DELETE /role-configs/{id}` run as two READ COMMITTED transactions. Each
handler validates against what it reads and takes no lock on it, so what it has
validated can be gone when it commits. Whether it matters is a question of the
commit alone: the campaign stays intact exactly when, on what is committed by
then, the check of the handler would pass again (`Recheck`).
-/

namespace IsalesApi.Config

open Foundation

/-- The label rule and the references of one campaign. -/
structure Intact (c : Int) (db : Database) : Prop where
  labels : Disciplined (db.rolesOf c)
  closed : ∀ row, db.campaign c = some row → row.Bound (db.rolesOf c)

/-- The four requests on the campaign. A role row of another campaign may be
deleted as well. -/
def Request.On (c : Int) : Request → Prop
  | .replaceRoutingRules id _ => id = c
  | .updateCampaign _ id _ => id = c
  | .createRoleConfig _ payload => payload.campaignId = c
  | .deleteRoleConfig _ => True
  | _ => False

variable {db db' : Database} {c : Int} {validateInterruptionRule : Json → Option String}

theorem Edits.intact_iff {campaign : Option Campaign} {roles : List RoleConfig}
    (h : Edits c campaign roles db db') :
    Intact c db' ↔ Disciplined roles ∧ ∀ row, campaign = some row → row.Bound roles := by
  constructor
  · rintro ⟨hlabels, hclosed⟩
    rw [h.roles_self] at hlabels hclosed
    rw [h.campaign_self] at hclosed
    exact ⟨hlabels, hclosed⟩
  · rintro ⟨hlabels, hclosed⟩
    refine ⟨?_, ?_⟩
    · rw [h.roles_self]
      exact hlabels
    · rw [h.roles_self, h.campaign_self]
      exact hclosed

theorem Edits.intact_other {d : Int} {campaign : Option Campaign} {roles : List RoleConfig}
    (h : Edits d campaign roles db db') (hc : c ≠ d) : Intact c db' ↔ Intact c db := by
  have hroles := h.roles_other c hc
  have hcampaign := h.campaign_other c hc
  constructor
  · rintro ⟨hlabels, hclosed⟩
    rw [hroles] at hlabels hclosed
    rw [hcampaign] at hclosed
    exact ⟨hlabels, hclosed⟩
  · rintro ⟨hlabels, hclosed⟩
    rw [← hroles] at hlabels hclosed
    rw [← hcampaign] at hclosed
    exact ⟨hlabels, hclosed⟩

/-- Alone, each of the requests leaves the campaign intact. -/
theorem Intact.accepted {r : Request} {a : Answer} (hr : r.On c) (hdb : Intact c db)
    (h : (r.handler validateInterruptionRule).run db = .ok (a, db')) : Intact c db' := by
  cases r with
  | replaceRoutingRules id payload =>
    subst hr
    obtain ⟨read, h, _⟩ := run_answer.mp h
    obtain ⟨campaign, hrow, hvalid, hflush⟩ := run_replaceRoutingRules h
    obtain ⟨_, rfl⟩ := Database.campaign_eq_some.mp hrow
    refine (edits_flushCampaign hrow hflush).intact_iff.mpr ⟨hdb.labels, ?_⟩
    rintro _ ⟨⟩
    exact bound_of_valid (fun _ hrule => hrule) hvalid
  | updateCampaign ids id payload =>
    subst hr
    obtain ⟨d, h, _⟩ := run_answer.mp h
    obtain ⟨campaign, hrow, hvalid, hpatch⟩ := run_updateCampaign h
    obtain ⟨_, rfl⟩ := Database.campaign_eq_some.mp hrow
    refine (edits_patchCampaign hrow hpatch).intact_iff.mpr
      ⟨disciplined_rolesAfter hvalid.labels hdb.labels, ?_⟩
    rintro _ ⟨⟩
    exact bound_rolesAfter hvalid
  | createRoleConfig id payload =>
    obtain rfl : payload.campaignId = c := hr
    obtain ⟨row, h, _⟩ := run_answer.mp h
    obtain ⟨hunique, hstore⟩ := run_createRoleConfig h
    refine (edits_insertRole (run_storeRole hstore)).intact_iff.mpr
      ⟨(disciplined_insert_iff hdb.labels).mpr hunique, fun row hrow => ?_⟩
    exact (hdb.closed row hrow).insert _
  | deleteRoleConfig id =>
    obtain ⟨_, h, _⟩ := run_answer.mp h
    obtain ⟨obj, hobj, hunused, happly⟩ := run_deleteRoleConfig h
    obtain ⟨hstored, rfl⟩ := Database.role_eq_some.mp hobj
    have hedits := edits_deleteRole hstored happly
    by_cases hc : c = obj.campaignId
    · subst hc
      refine hedits.intact_iff.mpr ⟨hdb.labels.sublist List.filter_sublist, fun row hrow => ?_⟩
      exact bound_of_unused hdb.labels hstored hunused hrow (hdb.closed row hrow)
    · exact (hedits.intact_other hc).mpr hdb
  | _ => exact hr.elim

/-! ## What the requests commit -/

theorem ends_answer {α : Type} {answer : α → Answer} {h : Handler α} {a : Answer}
    {ws : List Write} (hends : (Answer.of answer h).Ends a ws) : ∃ x, h.Ends x ws := by
  obtain ⟨x, hh, _⟩ := Prog.ends_map.mp hends
  exact ⟨x, hh⟩

theorem ends_requireUniqueLabel {campaignId : Int} {kind : RoleKind} {label : Option String}
    {excludeId : Option Int} {ws : List Write}
    (h : (requireUniqueLabel (pure ()) campaignId kind label excludeId).Ends () ws) :
    ws = [] := by
  unfold requireUniqueLabel at h
  split at h
  · exact (Prog.ends_done.mp h).2
  · split at h
    · exact absurd h Prog.not_ends_raise
    · obtain ⟨_, us, vs, hpure, hcount, rfl⟩ := Prog.ends_bind.mp h
      obtain ⟨_, rfl⟩ := Prog.ends_done.mp hpure
      obtain ⟨d, hraise⟩ := Prog.ends_select_bind.mp hcount
      unfold Prog.raiseIf at hraise
      split at hraise
      · exact absurd hraise Prog.not_ends_raise
      · exact (Prog.ends_done.mp hraise).2

theorem ends_createRoleConfig {id : Int} {payload : RoleConfigCreate} {row : RoleConfig}
    {ws : List Write} (h : (createRoleConfig id payload).Ends row ws) :
    ws = [.insertRole (payload.row id)] := by
  obtain ⟨_, us, vs, hcheck, hstore, rfl⟩ := Prog.ends_bind.mp h
  obtain rfl := ends_requireUniqueLabel hcheck
  obtain ⟨_, us, ts, hins, hread, rfl⟩ := Prog.ends_bind.mp hstore
  obtain rfl := Prog.ends_exec.mp hins
  obtain ⟨d, hread⟩ := Prog.ends_select_bind.mp hread
  obtain ⟨_, rfl⟩ := Prog.ends_done.mp hread
  rfl

theorem ends_requireUnused {obj : RoleConfig} {ws : List Write}
    (h : (requireUnused obj).Ends () ws) : ws = [] := by
  unfold requireUnused at h
  split at h
  · exact (Prog.ends_done.mp h).2
  · split at h
    · obtain ⟨d, h⟩ := Prog.ends_select_bind.mp h
      split at h
      · exact (Prog.ends_done.mp h).2
      · exact absurd h Prog.not_ends_raise
    · exact (Prog.ends_done.mp h).2

theorem ends_deleteRoleConfig {id : Int} {ws : List Write}
    (h : (deleteRoleConfig id).Ends () ws) : ws = [.deleteRole id] := by
  obtain ⟨_, obj, _, h⟩ := ends_getOr404.mp h
  obtain ⟨_, us, vs, hunused, hdel, rfl⟩ := Prog.ends_bind.mp h
  obtain rfl := ends_requireUnused hunused
  exact Prog.ends_exec.mp hdel

/-- What a `PUT routing-rules` or a `PATCH` commits: columns of the campaign,
role rows that are deleted and inserted, and callbacks. -/
structure CampaignWrites (c : Int) (set : CampaignSet) (deleted : List Int)
    (inserted : List RoleConfig) (ws : List Write) : Prop where
  ofCampaign : ∀ r ∈ inserted, r.campaignId = c
  writes : ∃ first last, (first = [.updateCampaign c set] ∨ first = [] ∧ set.isEmpty = true) ∧
    (∀ w ∈ last, w.isCallback = true) ∧
    ws = first ++ (deleted.map fun id => .deleteRoleOf id c) ++ inserted.map .insertRole ++ last

theorem ends_flushCampaign {campaign : Campaign} {set : CampaignSet} {ws : List Write}
    (h : (flushCampaign campaign set).Ends () ws) :
    ws = [.updateCampaign campaign.id (set.against campaign)] ∨
      ws = [] ∧ (set.against campaign).isEmpty = true := by
  change Prog.Ends (if (set.against campaign).isEmpty then pure ()
    else Prog.exec (.updateCampaign campaign.id (set.against campaign)) : Handler Unit) () ws at h
  by_cases hempty : (set.against campaign).isEmpty = true
  · rw [if_pos hempty] at h
    exact Or.inr ⟨(Prog.ends_done.mp h).2, hempty⟩
  · rw [if_neg hempty] at h
    exact Or.inl (Prog.ends_exec.mp h)

theorem ends_replaceRoutingRules {id : Int} {payload : RoutingRulesReplace}
    {read : RoutingRulesRead} {ws : List Write}
    (h : (replaceRoutingRules id payload).Ends read ws) :
    ∃ set, CampaignWrites id set [] [] ws := by
  obtain ⟨_, campaign, hrow, hbody⟩ := ends_getOr404.mp h
  obtain ⟨_, rfl⟩ := Database.campaign_eq_some.mp hrow
  obtain ⟨_, hbody⟩ := Prog.ends_select_bind.mp hbody
  obtain ⟨_, us, vs, hcheck, hrest, rfl⟩ := Prog.ends_bind.mp hbody
  obtain ⟨_, rfl⟩ := Prog.ends_check.mp hcheck
  obtain ⟨_, us, vs, hflush, hdone, rfl⟩ := Prog.ends_bind.mp hrest
  obtain ⟨_, rfl⟩ := Prog.ends_done.mp hdone
  exact ⟨_, by simp, us, [], ends_flushCampaign hflush, by simp, by simp⟩

theorem ends_replaceRoles {ids : Draws} {roleConfigs : Option (List RoleConfigNestedWrite)}
    {ws : List Write} (h : (replaceRoles ids c roleConfigs).Ends () ws) :
    ∃ (deleted : List Int) (inserted : List RoleConfig), (∀ r ∈ inserted, r.campaignId = c) ∧
      ws = (deleted.map fun id => .deleteRoleOf id c) ++ inserted.map .insertRole := by
  cases roleConfigs with
  | none =>
    obtain ⟨_, rfl⟩ := Prog.ends_done.mp h
    exact ⟨[], [], by simp, rfl⟩
  | some rcs =>
    obtain ⟨_, us, vs, hdel, hins, rfl⟩ := Prog.ends_bind.mp h
    obtain ⟨d, rfl⟩ := Prog.ends_execWhere.mp hdel
    obtain rfl := Prog.ends_execAll.mp hins
    refine ⟨(d.rolesOf c).map RoleConfig.id, newRoles ids c rcs, newRoles_campaignId, ?_⟩
    rw [List.map_map]
    rfl

theorem ends_replaceCallbacks {ids : Draws}
    {callbackConfigs : Option (List CallbackConfigNestedWrite)} {ws : List Write}
    (h : (replaceCallbacks ids c callbackConfigs).Ends () ws) : ∀ w ∈ ws, w.isCallback = true := by
  cases callbackConfigs with
  | none =>
    obtain ⟨_, rfl⟩ := Prog.ends_done.mp h
    simp
  | some cbs =>
    obtain ⟨_, us, vs, hdel, hins, rfl⟩ := Prog.ends_bind.mp h
    obtain ⟨d, rfl⟩ := Prog.ends_execWhere.mp hdel
    obtain rfl := Prog.ends_execAll.mp hins
    intro w hw
    rcases List.mem_append.mp hw with hw | hw
    · obtain ⟨_, _, rfl⟩ := List.mem_map.mp hw
      rfl
    · obtain ⟨_, _, rfl⟩ := List.mem_map.mp hw
      rfl

theorem ends_validatePatch {campaign : Campaign} {payload : CampaignNestedUpdate} {ws : List Write}
    (h : (validatePatch validateInterruptionRule campaign payload).Ends () ws) : ws = [] := by
  obtain ⟨_, us, vs, hrules, hrouting, rfl⟩ := Prog.ends_bind.mp h
  obtain ⟨_, rfl⟩ := Prog.ends_check.mp hrules
  obtain ⟨_, us, vs, hlabels, hcheck, rfl⟩ := Prog.ends_bind.mp hrouting
  obtain ⟨_, rfl⟩ := Prog.ends_check.mp hcheck
  cases hrcs : payload.roleConfigs with
  | none =>
    rw [hrcs] at hlabels
    obtain ⟨d, hlabels⟩ := Prog.ends_select_bind.mp hlabels
    obtain ⟨_, rfl⟩ := Prog.ends_done.mp hlabels
    rfl
  | some rcs =>
    rw [hrcs] at hlabels
    obtain ⟨_, us, ts, hvalid, hdone, rfl⟩ := Prog.ends_bind.mp hlabels
    obtain ⟨_, rfl⟩ := Prog.ends_check.mp hvalid
    obtain ⟨_, rfl⟩ := Prog.ends_done.mp hdone
    rfl

theorem ends_updateCampaign {ids : Draws} {id : Int} {payload : CampaignNestedUpdate}
    {d : CampaignDetailRead} {ws : List Write}
    (h : (updateCampaign validateInterruptionRule ids id payload).Ends d ws) :
    ∃ set deleted inserted, CampaignWrites id set deleted inserted ws := by
  obtain ⟨_, campaign, hrow, hbody⟩ := ends_getOr404.mp h
  obtain ⟨_, rfl⟩ := Database.campaign_eq_some.mp hrow
  obtain ⟨_, us, vs, hvalid, hpatch, rfl⟩ := Prog.ends_bind.mp hbody
  obtain rfl := ends_validatePatch hvalid
  obtain ⟨_, first, vs, hflush, hrest, rfl⟩ := Prog.ends_bind.mp hpatch
  obtain ⟨_, us, vs, hchildren, hload, rfl⟩ := Prog.ends_bind.mp hrest
  obtain ⟨_, hload⟩ := Prog.ends_select_bind.mp hload
  obtain ⟨_, hload⟩ := Prog.ends_select_bind.mp hload
  obtain ⟨_, rfl⟩ := Prog.ends_done.mp hload
  obtain ⟨_, us, last, hroles, hcallbacks, rfl⟩ := Prog.ends_bind.mp hchildren
  obtain ⟨deleted, inserted, hof, rfl⟩ := ends_replaceRoles hroles
  exact ⟨_, deleted, inserted, hof, first, last, ends_flushCampaign hflush,
    ends_replaceCallbacks hcallbacks, by simp⟩

/-! ## Rechecking at the commit -/

/-- The columns the pending `UPDATE` of the campaign sets. -/
def sentIn (ws : List Write) : CampaignSet :=
  (ws.findSome? fun w => match w with
    | .updateCampaign _ set => some set
    | _ => none).getD ⟨none, none, []⟩

/-- The role rows the pending `DELETE` of `_replace_children` has found. -/
def deletedIn (ws : List Write) : List Int :=
  ws.filterMap fun w => match w with
    | .deleteRoleOf id _ => some id
    | _ => none

/-- The role rows that are pending. -/
def insertedIn (ws : List Write) : List RoleConfig :=
  ws.filterMap fun w => match w with
    | .insertRole row => some row
    | _ => none

/-- The role rows of the campaign that the commit leaves. -/
def rowsLeft (c : Int) (db : Database) (ws : List Write) : List RoleConfig :=
  (db.rolesOf c).filter (fun r => r.id ∉ deletedIn ws) ++ insertedIn ws

/-- `validate_role_labels` and `validate_routing_rules` pass on the committed
rows that stay with the pending ones, and on the rules and tools that are
pending or else committed. -/
structure Revalidates (c : Int) (db : Database) (ws : List Write) : Prop where
  labels : validateRoleLabels (rowsLeft c db ws) = .ok ()
  rules : ∀ row, db.campaign c = some row →
    validateRoutingRules (refereeLabelsOf (rowsLeft c db ws)) (personaLabelsOf (rowsLeft c db ws))
      ((sentIn ws).applyTo row).toolAliases ((sentIn ws).applyTo row).rules = .ok ()

/-- The check of a request holds of what is committed when it commits itself:
the count of `_require_unique_label` for a new role row, no rule that needs the
label of a deleted one, the validators for a campaign. -/
def Recheck (c : Int) (r : Request) (db : Database) (ws : List Write) : Prop :=
  match r with
  | .createRoleConfig _ payload =>
    UniqueLabel payload.campaignId payload.kind payload.label none db
  | .deleteRoleConfig id =>
    ∀ obj row l, db.role id = some obj → obj.campaignId = c → db.campaign c = some row →
      obj.label = some l → ¬ row.Needs obj.kind l
  | _ => Revalidates c db ws

theorem Write.isCallback_cases {w : Write} (h : w.isCallback = true) :
    (∃ row, w = .insertCallback row) ∨ ∃ id d, w = .deleteCallbackOf id d := by
  cases w with
  | insertCallback row => exact Or.inl ⟨row, rfl⟩
  | deleteCallbackOf id d => exact Or.inr ⟨id, d, rfl⟩
  | _ => cases h

section CampaignWrites

variable {set : CampaignSet} {deleted : List Int} {inserted : List RoleConfig} {ws : List Write}

theorem CampaignWrites.applyTo_sentIn (h : CampaignWrites c set deleted inserted ws)
    (row : Campaign) : (sentIn ws).applyTo row = set.applyTo row := by
  obtain ⟨_, first, last, hfirst, hlast, rfl⟩ := h
  rcases hfirst with rfl | ⟨rfl, hempty⟩
  · rfl
  · have hnone : sentIn ([] ++ (deleted.map fun id => .deleteRoleOf id c) ++
        inserted.map .insertRole ++ last) = ⟨none, none, []⟩ := by
      unfold sentIn
      rw [List.findSome?_eq_none_iff.mpr]
      · rfl
      · intro w hw
        simp only [List.nil_append, List.mem_append, List.mem_map] at hw
        rcases hw with (⟨id, _, rfl⟩ | ⟨r, _, rfl⟩) | hw
        · rfl
        · rfl
        · rcases Write.isCallback_cases (hlast w hw) with ⟨r, rfl⟩ | ⟨id, d, rfl⟩ <;> rfl
    rw [hnone, CampaignSet.applyTo_of_isEmpty hempty]
    rfl

theorem CampaignWrites.deletedIn_eq (h : CampaignWrites c set deleted inserted ws) :
    deletedIn ws = deleted := by
  obtain ⟨_, first, last, hfirst, hlast, rfl⟩ := h
  have hfirst : deletedIn first = [] := by
    rcases hfirst with rfl | ⟨rfl, _⟩ <;> rfl
  have hlast : deletedIn last = [] := by
    refine List.filterMap_eq_nil_iff.mpr fun w hw => ?_
    rcases Write.isCallback_cases (hlast w hw) with ⟨r, rfl⟩ | ⟨id, d, rfl⟩ <;> rfl
  unfold deletedIn at hfirst hlast ⊢
  rw [List.filterMap_append, List.filterMap_append, List.filterMap_append, hfirst, hlast,
    List.filterMap_map, List.filterMap_map]
  simp

theorem CampaignWrites.insertedIn_eq (h : CampaignWrites c set deleted inserted ws) :
    insertedIn ws = inserted := by
  obtain ⟨_, first, last, hfirst, hlast, rfl⟩ := h
  have hfirst : insertedIn first = [] := by
    rcases hfirst with rfl | ⟨rfl, _⟩ <;> rfl
  have hlast : insertedIn last = [] := by
    refine List.filterMap_eq_nil_iff.mpr fun w hw => ?_
    rcases Write.isCallback_cases (hlast w hw) with ⟨r, rfl⟩ | ⟨id, d, rfl⟩ <;> rfl
  unfold insertedIn at hfirst hlast ⊢
  rw [List.filterMap_append, List.filterMap_append, List.filterMap_append, hfirst, hlast,
    List.filterMap_map, List.filterMap_map]
  simp

theorem CampaignWrites.edits (h : CampaignWrites c set deleted inserted ws)
    (happly : applyAll ws db = some db') :
    Edits c ((db.campaign c).map (sentIn ws).applyTo) (rowsLeft c db ws) db db' := by
  have hrows : rowsLeft c db ws = (db.rolesOf c).filter (fun r => r.id ∉ deleted) ++ inserted := by
    rw [rowsLeft, h.deletedIn_eq, h.insertedIn_eq]
  have hsent : (db.campaign c).map (sentIn ws).applyTo = (db.campaign c).map set.applyTo := by
    congr 1
    exact funext h.applyTo_sentIn
  rw [hrows, hsent]
  obtain ⟨hof, first, last, hfirst, hlast, rfl⟩ := h
  obtain ⟨m₃, happly, hcallbacks⟩ := applyAll_append.mp happly
  obtain ⟨m₂, happly, hins⟩ := applyAll_append.mp happly
  obtain ⟨m₁, happly, hdel⟩ := applyAll_append.mp happly
  have hcampaign : Edits c ((db.campaign c).map set.applyTo) (db.rolesOf c) db m₁ := by
    rcases hfirst with rfl | ⟨rfl, hempty⟩
    · exact edits_updateCampaign (applyAll_singleton.mp happly)
    · cases happly
      have hid : (db.campaign c).map set.applyTo = db.campaign c := by
        cases db.campaign c with
        | none => rfl
        | some row => exact congrArg some (CampaignSet.applyTo_of_isEmpty hempty row)
      rw [hid]
      exact Edits.refl c db
  have hroles := edits_deleteInsertRoles hof hdel hins
  rw [hcampaign.campaign_self, hcampaign.roles_self] at hroles
  have hroles := hcampaign.trans hroles
  obtain ⟨hcampaigns, hsame⟩ := applyAll_callbacks hlast hcallbacks
  have hrest := Edits.of_eq (c := c) hcampaigns hsame
  rw [hroles.campaign_self, hroles.roles_self] at hrest
  exact hroles.trans hrest

theorem CampaignWrites.intact_iff (h : CampaignWrites c set deleted inserted ws)
    (happly : applyAll ws db = some db') : Intact c db' ↔ Revalidates c db ws := by
  rw [(h.edits happly).intact_iff]
  constructor
  · rintro ⟨hlabels, hclosed⟩
    refine ⟨validateRoleLabels_ok.mpr hlabels, fun row hrow => ?_⟩
    exact valid_of_bound hlabels (hclosed _ (by rw [hrow]; rfl))
  · rintro ⟨hlabels, hrules⟩
    refine ⟨validateRoleLabels_ok.mp hlabels, fun row hrow => ?_⟩
    obtain ⟨old, hold, rfl⟩ := Option.map_eq_some_iff.mp hrow
    exact bound_of_valid (fun _ hrule => hrule) (hrules old hold)

end CampaignWrites

theorem Intact.deleteRole_iff {id : Int} (hdb : Intact c db)
    (h : db.apply (.deleteRole id) = some db') : Intact c db' ↔
      ∀ obj row l, db.role id = some obj → obj.campaignId = c → db.campaign c = some row →
        obj.label = some l → ¬ row.Needs obj.kind l := by
  cases hobj : db.role id with
  | none =>
    -- another transaction has deleted the row
    obtain ⟨hcampaigns, hrows⟩ := apply_deleteRole h
    have hsame : db'.roles = db.roles := by
      refine Table.ext (hrows.trans (List.filter_eq_self.mpr fun r hr => ?_))
      have hne : r.id ≠ id := Table.get?_eq_none.mp hobj r hr
      simpa using hne
    have hedits := Edits.of_eq (c := c) hcampaigns hsame
    exact iff_of_true (hedits.intact_iff.mpr ⟨hdb.labels, hdb.closed⟩) (by simp)
  | some obj =>
    obtain ⟨hstored, rfl⟩ := Database.role_eq_some.mp hobj
    have hedits := edits_deleteRole hstored h
    by_cases hc : obj.campaignId = c
    · subst hc
      have hmem : obj ∈ db.rolesOf obj.campaignId := Database.mem_rolesOf.mpr ⟨hstored, rfl⟩
      have hkey : ∀ r ∈ db.rolesOf obj.campaignId, r.id = obj.id → r = obj :=
        fun r hr hid => Table.eq_of_key_eq (Database.mem_rolesOf.mp hr).1 hstored hid
      rw [hedits.intact_iff, and_iff_right (hdb.labels.sublist List.filter_sublist)]
      constructor
      · intro hbound obj' row l hobj' _ hrow hl
        cases hobj'
        exact (bound_delete_iff hdb.labels hmem hkey (hdb.closed row hrow)).mp
          (hbound row hrow) l hl
      · intro hfree row hrow
        exact (bound_delete_iff hdb.labels hmem hkey (hdb.closed row hrow)).mpr
          fun l hl => hfree obj row l rfl rfl hrow hl
    · refine iff_of_true ((hedits.intact_other (Ne.symm hc)).mpr hdb) ?_
      rintro obj' row l ⟨⟩ hc'
      exact absurd hc' hc

/-- On an intact campaign, a commit keeps it intact exactly when it rechecks. -/
theorem Intact.commit_iff {r : Request} (hr : r.On c) {a : Answer} {ws : List Write}
    (hends : (r.handler validateInterruptionRule).Ends a ws) (hdb : Intact c db)
    (happly : applyAll ws db = some db') : Intact c db' ↔ Recheck c r db ws := by
  cases r with
  | replaceRoutingRules id payload =>
    subst hr
    obtain ⟨read, hends⟩ := ends_answer hends
    obtain ⟨set, hwrites⟩ := ends_replaceRoutingRules hends
    exact hwrites.intact_iff happly
  | updateCampaign ids id payload =>
    subst hr
    obtain ⟨d, hends⟩ := ends_answer hends
    obtain ⟨set, deleted, inserted, hwrites⟩ := ends_updateCampaign hends
    exact hwrites.intact_iff happly
  | createRoleConfig id payload =>
    obtain rfl : payload.campaignId = c := hr
    obtain ⟨row, hends⟩ := ends_answer hends
    obtain rfl := ends_createRoleConfig hends
    have hedits := edits_insertRole (applyAll_singleton.mp happly)
    refine hedits.intact_iff.trans ((and_iff_left fun row hrow => ?_).trans ?_)
    · exact (hdb.closed row hrow).insert _
    · exact disciplined_insert_iff hdb.labels
  | deleteRoleConfig id =>
    obtain ⟨_, hends⟩ := ends_answer hends
    obtain rfl := ends_deleteRoleConfig hends
    exact hdb.deleteRole_iff (applyAll_singleton.mp happly)
  | _ => exact hr.elim

/-! ## Two overlapping requests -/

/-- Two requests begin as transactions on a committed database. -/
def overlap (validateInterruptionRule : Json → Option String) (r : Fin 2 → Request)
    (db : Database) : Server (Fin 2) Database Write HttpException Answer :=
  Server.start db fun i => (r i).handler validateInterruptionRule

/-- **Integrity under concurrency.** Two requests on an intact campaign, in any
interleaving, leave it intact if and only if every commit rechecks. -/
theorem intact_iff_recheck {r : Fin 2 → Request} (hr : ∀ i, (r i).On c) (hdb : Intact c db)
    {as : List (ServerAction (Fin 2))} {t : Server (Fin 2) Database Write HttpException Answer}
    (hrun : exec Server.step (overlap validateInterruptionRule r db) as = some t) :
    Intact c t.committed ↔ Along Server.step (AtCommit fun i => Recheck c (r i))
      (overlap validateInterruptionRule r db) as :=
  last_iff_atCommit (fun i _ _ _ _ hends hm happly => hm.commit_iff (hr i) hends happly)
    (fun i _ _ h => hdb.accepted (hr i) h) hdb hrun

/-- Campaign 1 has one referee and no rules. -/
def oneReferee : Database :=
  (respond (fun _ => none) (Database.empty anySchema)
    (.createCampaign ⟨1, fun _ => 1, fun _ => 1⟩ { judgedCampaign with routingRules := none })).2

theorem intact_oneReferee : Intact 1 oneReferee where
  labels := validateRoleLabels_ok.mp rfl
  closed := by
    rintro _ ⟨⟩ rule hrule
    cases hrule

/-- A rule for the referee is put while the referee is deleted. -/
def putAndDelete : Fin 2 → Request
  | 0 => .replaceRoutingRules 1 ⟨[⟨"main_judge", .route "closing" ⟨"{}"⟩, ⟨"{}"⟩⟩], none⟩
  | 1 => .deleteRoleConfig 1

theorem putAndDelete_on : ∀ i, (putAndDelete i).On 1
  | 0 => rfl
  | 1 => trivial

/-- One after the other, the `DELETE` is refused. -/
theorem intact_iff_recheck_sequential :
    ∃ t, exec Server.step (overlap (fun _ => none) putAndDelete oneReferee)
        [.advance 0, .advance 0, .advance 0, .advance 0, .advance 1, .advance 1, .advance 1] =
          some t ∧
      Along Server.step (AtCommit fun i => Recheck 1 (putAndDelete i))
        (overlap (fun _ => none) putAndDelete oneReferee)
        [.advance 0, .advance 0, .advance 0, .advance 0, .advance 1, .advance 1, .advance 1] := by
  refine ⟨_, rfl, (intact_iff_recheck putAndDelete_on intact_oneReferee rfl).mp ⟨?_, ?_⟩⟩
  · exact validateRoleLabels_ok.mp rfl
  · rintro _ ⟨⟩
    exact bound_of_valid (fun _ hrule => hrule) rfl

/-- Both validate before either commits: the rule is left without its referee. -/
theorem delete_during_put :
    Intact 1 oneReferee ∧ ∃ t, exec Server.step (overlap (fun _ => none) putAndDelete oneReferee)
        [.advance 0, .advance 0, .advance 1, .advance 1, .advance 0, .advance 0, .advance 1,
          .advance 1] = some t ∧
      (∀ i, (t.sessions i).finished = true) ∧ ¬ Intact 1 t.committed := by
  refine ⟨intact_oneReferee, _, rfl, by decide, fun h => ?_⟩
  obtain ⟨⟨r, hr, _⟩, _⟩ := h.closed _ rfl _ List.mem_cons_self
  cases hr

end IsalesApi.Config
