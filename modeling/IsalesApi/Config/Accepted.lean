import IsalesApi.Config.Handlers

/-!
# What an accepted request does

One lemma for each handler: the checks it has passed and the change it has
made. The changes are stated per campaign (`Edits`): its row and its role rows
are given, and every other campaign is left as it was. The label and routing
invariants are derived from these lemmas alone.
-/

namespace IsalesApi.Config

open Foundation

variable {db db' : Database}

/-! ## Lists of writes -/

theorem applyAll_deleteRolesOf {ids : List Int} {c : Int}
    (h : applyAll (ids.map fun id => Write.deleteRoleOf id c) db = some db') :
    db'.campaigns = db.campaigns ∧
      db'.roles.rows = db.roles.rows.filter fun r => ¬ (r.id ∈ ids ∧ r.campaignId = c) := by
  induction ids generalizing db with
  | nil =>
    cases h
    simp
  | cons id ids ih =>
    obtain ⟨m, hm, h⟩ := applyAll_cons.mp h
    obtain ⟨hcampaigns, hroles⟩ := apply_deleteRoleOf hm
    obtain ⟨hcampaigns', hroles'⟩ := ih h
    refine ⟨hcampaigns'.trans hcampaigns, ?_⟩
    rw [hroles', hroles, List.filter_filter]
    apply List.filter_congr
    intro r _
    rw [← Bool.decide_and, decide_eq_decide, List.mem_cons]
    tauto

theorem applyAll_insertRoles {rows : List RoleConfig}
    (h : applyAll (rows.map Write.insertRole) db = some db') :
    db'.campaigns = db.campaigns ∧ db'.roles.rows = db.roles.rows ++ rows := by
  induction rows generalizing db with
  | nil =>
    cases h
    simp
  | cons row rows ih =>
    obtain ⟨m, hm, h⟩ := applyAll_cons.mp h
    obtain ⟨hcampaigns, hroles⟩ := apply_insertRole hm
    obtain ⟨hcampaigns', hroles'⟩ := ih h
    refine ⟨hcampaigns'.trans hcampaigns, ?_⟩
    rw [hroles', hroles, List.append_assoc, List.singleton_append]

theorem applyAll_callbacks {ws : List Write} (hws : ∀ w ∈ ws, w.isCallback = true)
    (h : applyAll ws db = some db') :
    db'.campaigns = db.campaigns ∧ db'.roles = db.roles := by
  induction ws generalizing db with
  | nil =>
    cases h
    exact ⟨rfl, rfl⟩
  | cons w ws ih =>
    obtain ⟨m, hm, h⟩ := applyAll_cons.mp h
    obtain ⟨hcampaigns', hroles'⟩ := ih (fun v hv => hws v (List.mem_cons_of_mem w hv)) h
    obtain ⟨hcampaigns, hroles⟩ := apply_callback hm (hws w List.mem_cons_self)
    exact ⟨hcampaigns'.trans hcampaigns, hroles'.trans hroles⟩

theorem campaign_congr (h : db'.campaigns = db.campaigns) (d : Int) :
    db'.campaign d = db.campaign d := by
  rw [Database.campaign, h]
  rfl

theorem rolesOf_eq (d : Int) : db.rolesOf d = db.roles.rows.filter fun r => r.campaignId = d := rfl

theorem rolesOf_congr (h : db'.roles = db.roles) (d : Int) : db'.rolesOf d = db.rolesOf d := by
  rw [Database.rolesOf, h]
  rfl

/-! ## The change of one campaign -/

/-- Of all campaigns only `c` changes: to the row `campaign` with the role rows
`roles`. -/
structure Edits (c : Int) (campaign : Option Campaign) (roles : List RoleConfig)
    (db db' : Database) : Prop where
  campaign_self : db'.campaign c = campaign
  roles_self : db'.rolesOf c = roles
  campaign_other : ∀ d, d ≠ c → db'.campaign d = db.campaign d
  roles_other : ∀ d, d ≠ c → db'.rolesOf d = db.rolesOf d

theorem Edits.refl (c : Int) (db : Database) : Edits c (db.campaign c) (db.rolesOf c) db db :=
  ⟨rfl, rfl, fun _ _ => rfl, fun _ _ => rfl⟩

theorem Edits.trans {c : Int} {campaign campaign' : Option Campaign}
    {roles roles' : List RoleConfig} {m : Database} (h : Edits c campaign roles db m)
    (h' : Edits c campaign' roles' m db') : Edits c campaign' roles' db db' where
  campaign_self := h'.campaign_self
  roles_self := h'.roles_self
  campaign_other d hd := (h'.campaign_other d hd).trans (h.campaign_other d hd)
  roles_other d hd := (h'.roles_other d hd).trans (h.roles_other d hd)

/-- A step that changes neither campaigns nor roles. -/
theorem Edits.of_eq {c : Int} (hcampaigns : db'.campaigns = db.campaigns)
    (hroles : db'.roles = db.roles) : Edits c (db.campaign c) (db.rolesOf c) db db' where
  campaign_self := campaign_congr hcampaigns c
  roles_self := rolesOf_congr hroles c
  campaign_other d _ := campaign_congr hcampaigns d
  roles_other d _ := rolesOf_congr hroles d

theorem edits_insertRole {row : RoleConfig} (h : db.apply (.insertRole row) = some db') :
    Edits row.campaignId (db.campaign row.campaignId) (db.rolesOf row.campaignId ++ [row])
      db db' := by
  obtain ⟨hcampaigns, hroles⟩ := apply_insertRole h
  refine ⟨campaign_congr hcampaigns _, ?_, fun d _ => campaign_congr hcampaigns d, ?_⟩
  · simp [rolesOf_eq, hroles]
  · intro d hd
    simp [rolesOf_eq, hroles, Ne.symm hd]

theorem edits_deleteRole {obj : RoleConfig} (hobj : obj ∈ db.roles)
    (h : db.apply (.deleteRole obj.id) = some db') :
    Edits obj.campaignId (db.campaign obj.campaignId)
      ((db.rolesOf obj.campaignId).filter fun r => r.id ≠ obj.id) db db' := by
  obtain ⟨hcampaigns, hroles⟩ := apply_deleteRole h
  refine ⟨campaign_congr hcampaigns _, ?_, fun d _ => campaign_congr hcampaigns d, ?_⟩
  · rw [rolesOf_eq, hroles, rolesOf_eq, List.filter_filter, List.filter_filter]
    exact List.filter_congr fun r _ => Bool.and_comm _ _
  · intro d hd
    rw [rolesOf_eq, hroles, rolesOf_eq, List.filter_filter]
    apply List.filter_congr
    intro r hr
    -- a row of another campaign is another row
    have hne : r.campaignId = d → r.id ≠ obj.id := by
      rintro rfl hid
      exact hd (congrArg RoleConfig.campaignId (Table.eq_of_key_eq hr hobj hid))
    by_cases hrd : r.campaignId = d <;> simp_all

theorem edits_deleteCampaign {id : Int} (h : db.apply (.deleteCampaign id) = some db') :
    Edits id none [] db db' := by
  obtain ⟨hcampaign, hroles⟩ := apply_deleteCampaign h
  refine ⟨by rw [hcampaign, if_pos rfl], ?_, fun d hd => by rw [hcampaign, if_neg hd], ?_⟩
  · rw [rolesOf_eq, hroles, List.filter_filter]
    simp
  · intro d hd
    rw [rolesOf_eq, hroles, rolesOf_eq, List.filter_filter]
    apply List.filter_congr
    intro r _
    by_cases hrd : r.campaignId = d <;> simp_all

theorem edits_insertCampaign {row : Campaign} (h : db.apply (.insertCampaign row) = some db') :
    Edits row.id (some row) (db.rolesOf row.id) db db' := by
  obtain ⟨hroles, hcampaign⟩ := apply_insertCampaign h
  exact ⟨by rw [hcampaign, if_pos rfl], rolesOf_congr hroles _,
    fun d hd => by rw [hcampaign, if_neg hd], fun d _ => rolesOf_congr hroles d⟩

theorem edits_updateCampaign {id : Int} {set : CampaignSet}
    (h : db.apply (.updateCampaign id set) = some db') :
    Edits id ((db.campaign id).map set.applyTo) (db.rolesOf id) db db' := by
  obtain ⟨hroles, hcampaign⟩ := apply_updateCampaign h
  exact ⟨by rw [hcampaign, if_pos rfl], rolesOf_congr hroles _,
    fun d hd => by rw [hcampaign, if_neg hd], fun d _ => rolesOf_congr hroles d⟩

/-! ## Parts of the campaign handlers -/

/-- The role rows `_replace_children` leaves. -/
def rolesAfter (ids : Draws) (c : Int) (roleConfigs : Option (List RoleConfigNestedWrite))
    (existing : List RoleConfig) : List RoleConfig :=
  match roleConfigs with
  | none => existing
  | some rcs => newRoles ids c rcs

theorem mem_newRoles {ids : Draws} {c : Int} {rcs : List RoleConfigNestedWrite} {r : RoleConfig} :
    r ∈ newRoles ids c rcs ↔
      ∃ i rc, rcs[i]? = some rc ∧ r = ⟨rc, ids.role i, c⟩ := by
  unfold newRoles
  rw [List.mem_mapIdx]
  constructor
  · rintro ⟨i, hi, rfl⟩
    exact ⟨i, rcs[i], List.getElem?_eq_getElem hi, rfl⟩
  · rintro ⟨i, rc, hrc, rfl⟩
    obtain ⟨hi, rfl⟩ := List.getElem?_eq_some_iff.mp hrc
    exact ⟨i, hi, rfl⟩

theorem newRoles_campaignId {ids : Draws} {c : Int} {rcs : List RoleConfigNestedWrite} :
    ∀ r ∈ newRoles ids c rcs, r.campaignId = c := by
  intro r hr
  obtain ⟨_, _, _, rfl⟩ := mem_newRoles.mp hr
  rfl

/-- The new rows are the payload's, in order. -/
theorem newRoles_toNested {ids : Draws} {c : Int} {rcs : List RoleConfigNestedWrite} :
    (newRoles ids c rcs).map RoleConfig.toRoleConfigNestedWrite = rcs := by
  apply List.ext_getElem?
  intro i
  rw [List.getElem?_map, newRoles, List.getElem?_mapIdx, Option.map_map]
  cases rcs[i]? with
  | none => rfl
  | some rc => rfl

theorem labelsOf_newRoles {ids : Draws} {c : Int} {rcs : List RoleConfigNestedWrite}
    (k : RoleKind) : labelsOf k (newRoles ids c rcs) = labelsOf k rcs := by
  conv_rhs => rw [← @newRoles_toNested ids c rcs]
  simp only [labelsOf, List.filterMap_map]
  rfl

/-- Rows of `c` are deleted and others inserted. -/
theorem edits_deleteInsertRoles {ids : List Int} {c : Int} {rows : List RoleConfig} {m : Database}
    (hrows : ∀ r ∈ rows, r.campaignId = c)
    (hdel : applyAll (ids.map fun id => Write.deleteRoleOf id c) db = some m)
    (hins : applyAll (rows.map Write.insertRole) m = some db') :
    Edits c (db.campaign c) ((db.rolesOf c).filter (fun r => r.id ∉ ids) ++ rows) db db' := by
  obtain ⟨hcampaigns, hroles⟩ := applyAll_deleteRolesOf hdel
  obtain ⟨hcampaigns', hroles'⟩ := applyAll_insertRoles hins
  have hcampaign := campaign_congr (hcampaigns'.trans hcampaigns)
  refine ⟨hcampaign c, ?_, fun d _ => hcampaign d, fun d hd => ?_⟩
  · have hall : rows.filter (fun r => r.campaignId = c) = rows :=
      List.filter_eq_self.mpr fun r hr => by simpa using hrows r hr
    rw [rolesOf_eq, hroles', hroles, List.filter_append, hall, List.filter_filter, rolesOf_eq,
      List.filter_filter]
    congr 1
    apply List.filter_congr
    intro r _
    rw [← Bool.decide_and, ← Bool.decide_and, decide_eq_decide]
    tauto
  · have hnone : rows.filter (fun r => r.campaignId = d) = [] :=
      List.filter_eq_nil_iff.mpr fun r hr => by simpa [hrows r hr] using Ne.symm hd
    rw [rolesOf_eq, hroles', hroles, List.filter_append, hnone, List.append_nil,
      List.filter_filter, rolesOf_eq]
    apply List.filter_congr
    intro r _
    rw [← Bool.decide_and, decide_eq_decide]
    constructor
    · exact And.left
    · rintro rfl
      exact ⟨rfl, fun h => hd h.2⟩

theorem edits_replaceRoles {ids : Draws} {c : Int}
    {roleConfigs : Option (List RoleConfigNestedWrite)}
    (h : (replaceRoles ids c roleConfigs).run db = .ok ((), db')) :
    Edits c (db.campaign c) (rolesAfter ids c roleConfigs (db.rolesOf c)) db db' := by
  cases roleConfigs with
  | none =>
    cases h
    exact Edits.refl c db
  | some rcs =>
    obtain ⟨_, m, hdel, hins⟩ := Prog.run_bind_ok.mp h
    have hdel' : applyAll (((db.rolesOf c).map RoleConfig.id).map fun id =>
        Write.deleteRoleOf id c) db = some m := by
      rw [List.map_map]
      exact Prog.run_execWhere_ok.mp hdel
    have hedits := edits_deleteInsertRoles newRoles_campaignId hdel' (Prog.run_execAll_ok.mp hins)
    have hnone : (db.rolesOf c).filter (fun r => r.id ∉ (db.rolesOf c).map RoleConfig.id) = [] :=
      List.filter_eq_nil_iff.mpr fun r hr => by simpa using ⟨r, hr, rfl⟩
    rw [hnone, List.nil_append] at hedits
    exact hedits

theorem run_replaceCallbacks {ids : Draws} {c : Int}
    {callbackConfigs : Option (List CallbackConfigNestedWrite)}
    (h : (replaceCallbacks ids c callbackConfigs).run db = .ok ((), db')) :
    db'.campaigns = db.campaigns ∧ db'.roles = db.roles := by
  cases callbackConfigs with
  | none =>
    cases h
    exact ⟨rfl, rfl⟩
  | some cbs =>
    obtain ⟨_, m, hdel, hins⟩ := Prog.run_bind_ok.mp h
    have hdel' := applyAll_callbacks (by simp [Write.isCallback]) (Prog.run_execWhere_ok.mp hdel)
    have hins' := applyAll_callbacks (by simp [Write.isCallback]) (Prog.run_execAll_ok.mp hins)
    exact ⟨hins'.1.trans hdel'.1, hins'.2.trans hdel'.2⟩

theorem edits_replaceChildren {ids : Draws} {c : Int}
    {roleConfigs : Option (List RoleConfigNestedWrite)}
    {callbackConfigs : Option (List CallbackConfigNestedWrite)}
    (h : (replaceChildren ids c roleConfigs callbackConfigs).run db = .ok ((), db')) :
    Edits c (db.campaign c) (rolesAfter ids c roleConfigs (db.rolesOf c)) db db' := by
  obtain ⟨_, m, hroles, hcallbacks⟩ := Prog.run_bind_ok.mp h
  have hedits := edits_replaceRoles hroles
  obtain ⟨hcampaigns, hroles⟩ := run_replaceCallbacks hcallbacks
  have hsame := Edits.of_eq (c := c) hcampaigns hroles
  rw [hedits.campaign_self, hedits.roles_self] at hsame
  exact hedits.trans hsame

theorem edits_flushCampaign {campaign : Campaign} {set : CampaignSet}
    (hrow : db.campaign campaign.id = some campaign)
    (h : (flushCampaign campaign set).run db = .ok ((), db')) :
    Edits campaign.id (some (set.applyTo campaign)) (db.rolesOf campaign.id) db db' := by
  rw [← CampaignSet.applyTo_against]
  change (if (set.against campaign).isEmpty then pure ()
    else Prog.exec (.updateCampaign campaign.id (set.against campaign)) : Handler Unit).run db =
      _ at h
  by_cases hempty : (set.against campaign).isEmpty = true
  · rw [if_pos hempty] at h
    cases h
    rw [CampaignSet.applyTo_of_isEmpty hempty, ← hrow]
    exact Edits.refl _ _
  · rw [if_neg hempty] at h
    have hedits := edits_updateCampaign (Prog.run_exec_ok.mp h)
    rw [hrow] at hedits
    exact hedits

theorem run_loadDetail {campaign : Campaign} {d : CampaignDetailRead}
    (h : (loadDetail campaign).run db = .ok (d, db')) : db' = db := by
  unfold loadDetail at h
  simp only [Prog.bind_eq, Prog.pure_eq, Prog.run_select_bind, Prog.run_done] at h
  cases h
  rfl

/-! ## The handlers -/

/-- What `_require_unique_label` asks of a row in the state its count reads. -/
def UniqueLabel (campaignId : Int) (kind : RoleKind) (label : Option String)
    (excludeId : Option Int) (db : Database) : Prop :=
  kind.labelled = true →
    blank label = false ∧ sameLabel campaignId kind label excludeId db = []

theorem run_refreshRole {row fresh : RoleConfig}
    (h : (refreshRole row).run db = .ok (fresh, db')) : db' = db := by
  unfold refreshRole at h
  simp only [Prog.bind_eq, Prog.pure_eq, Prog.run_select_bind, Prog.run_done] at h
  cases h
  rfl

theorem run_storeRole {row fresh : RoleConfig}
    (h : (storeRole row).run db = .ok (fresh, db')) : db.apply (.insertRole row) = some db' := by
  obtain ⟨_, m, hins, hread⟩ := Prog.run_bind_ok.mp h
  obtain rfl := run_refreshRole hread
  exact Prog.run_exec_ok.mp hins

/-- `_require_unique_label` for a labelled kind: what is pending is flushed, and
the count reads the result. -/
theorem run_requireUniqueLabel {pending : Handler Unit} {campaignId : Int} {kind : RoleKind}
    {label : Option String} {excludeId : Option Int} (hk : kind.labelled = true) :
    (requireUniqueLabel pending campaignId kind label excludeId).run db = .ok ((), db') ↔
      pending.run db = .ok ((), db') ∧ UniqueLabel campaignId kind label excludeId db' := by
  have hmem : ¬ kind ∉ labelledKinds := not_not.mpr (mem_labelledKinds.mpr hk)
  unfold requireUniqueLabel
  rw [if_neg hmem]
  by_cases hb : blank label = true
  · -- refused before anything is flushed
    rw [if_pos hb]
    refine iff_of_false (by simp) ?_
    rintro ⟨_, hunique⟩
    rw [(hunique hk).1] at hb
    cases hb
  · rw [if_neg hb]
    simp only [Prog.bind_eq]
    rw [Prog.run_bind_ok]
    constructor
    · rintro ⟨_, m, hpending, h⟩
      rw [Prog.run_select_bind, Prog.run_raiseIf_ok] at h
      obtain ⟨hcount, hm⟩ := h
      cases hm
      refine ⟨hpending, fun _ => ⟨by simpa using hb, ?_⟩⟩
      simpa using hcount
    · rintro ⟨hpending, hunique⟩
      refine ⟨(), db', hpending, ?_⟩
      rw [Prog.run_select_bind, Prog.run_raiseIf_ok]
      exact ⟨by simp [(hunique hk).2], rfl⟩

/-- For a kind without labels it does nothing, and nothing is flushed. -/
theorem requireUniqueLabel_unlabelled {pending : Handler Unit} {campaignId : Int}
    {kind : RoleKind} {label : Option String} {excludeId : Option Int}
    (hk : ¬ kind.labelled = true) :
    requireUniqueLabel pending campaignId kind label excludeId = .done () := by
  unfold requireUniqueLabel
  rw [if_pos fun hmem => hk (mem_labelledKinds.mp hmem)]
  rfl

/-- Before an insert nothing is pending. -/
theorem run_requireUniqueLabel_insert {campaignId : Int} {kind : RoleKind}
    {label : Option String} {excludeId : Option Int}
    (h : (requireUniqueLabel (pure ()) campaignId kind label excludeId).run db = .ok ((), db')) :
    UniqueLabel campaignId kind label excludeId db ∧ db' = db := by
  by_cases hk : kind.labelled = true
  · obtain ⟨hm, hunique⟩ := (run_requireUniqueLabel hk).mp h
    cases hm
    exact ⟨hunique, rfl⟩
  · rw [requireUniqueLabel_unlabelled hk] at h
    cases h
    exact ⟨fun hk' => absurd hk' hk, rfl⟩

theorem run_createRoleConfig {id : Int} {payload : RoleConfigCreate} {row : RoleConfig}
    (h : (createRoleConfig id payload).run db = .ok (row, db')) :
    UniqueLabel payload.campaignId payload.kind payload.label none db ∧
      (storeRole (payload.row id)).run db = .ok (row, db') := by
  obtain ⟨_, m, hcheck, hstore⟩ := Prog.run_bind_ok.mp h
  obtain ⟨hunique, rfl⟩ := run_requireUniqueLabel_insert hcheck
  exact ⟨hunique, hstore⟩

/-- The check and the flush of `update_role_config`: the patch is sent either
before the count or, for a kind without labels, after it. -/
theorem run_flushUncounted {id : Int} {payload : RoleConfigUpdate} {kind : RoleKind}
    {campaignId : Int} {label : Option String} {m : Database}
    (hcheck : (requireUniqueLabel (Prog.exec (.updateRole id payload)) campaignId kind label
      (some id)).run db = .ok ((), m)) :
    (flushUncounted id payload kind).run m = .ok ((), db') ↔
      db.apply (.updateRole id payload) = some db' ∧
        UniqueLabel campaignId kind label (some id) db' := by
  unfold flushUncounted
  by_cases hk : kind.labelled = true
  · obtain ⟨hm, hunique⟩ := (run_requireUniqueLabel hk).mp hcheck
    have hm : db.apply (.updateRole id payload) = some m := Prog.run_exec_ok.mp hm
    rw [if_neg (not_not.mpr (mem_labelledKinds.mpr hk)), hm]
    constructor
    · intro h
      cases h
      exact ⟨rfl, hunique⟩
    · rintro ⟨⟨⟩, _⟩
      rfl
  · rw [requireUniqueLabel_unlabelled hk] at hcheck
    cases hcheck
    rw [if_pos fun hmem => hk (mem_labelledKinds.mp hmem), Prog.run_exec_ok]
    exact (and_iff_left fun hk' => absurd hk' hk).symm

/-- The patched row passes the constraints of the database and the label check,
which leaves `db'`. -/
def RoleConfigUpdate.Passes (payload : RoleConfigUpdate) (obj : RoleConfig) (db db' : Database) :
    Prop :=
  db.apply (.updateRole obj.id payload) = some db' ∧
    UniqueLabel (payload.applyTo obj).campaignId (payload.applyTo obj).kind
      (payload.applyTo obj).label (some obj.id) db'

theorem run_updateRoleConfig {id : Int} {payload : RoleConfigUpdate} {row : RoleConfig}
    (h : (updateRoleConfig id payload).run db = .ok (row, db')) :
    ∃ obj, db.role id = some obj ∧ payload.Passes obj db db' := by
  obtain ⟨obj, hobj, h⟩ := run_getOr404.mp h
  obtain ⟨_, m, hcheck, h⟩ := Prog.run_bind_ok.mp h
  obtain ⟨_, n, hflush, hread⟩ := Prog.run_bind_ok.mp h
  obtain rfl := run_refreshRole hread
  obtain ⟨_, rfl⟩ := Database.role_eq_some.mp hobj
  exact ⟨obj, hobj, (run_flushUncounted hcheck).mp hflush⟩

/-- A patch that passes is accepted. -/
theorem run_updateRoleConfig_of_passes {id : Int} {payload : RoleConfigUpdate} {obj : RoleConfig}
    (hobj : db.role id = some obj) (h : payload.Passes obj db db') :
    ∃ row, (updateRoleConfig id payload).run db = .ok (row, db') := by
  obtain ⟨_, rfl⟩ := Database.role_eq_some.mp hobj
  obtain ⟨happly, hunique⟩ := h
  have hcheck : ∃ m, (requireUniqueLabel (Prog.exec (.updateRole obj.id payload))
      (payload.applyTo obj).campaignId (payload.applyTo obj).kind (payload.applyTo obj).label
      (some obj.id)).run db = .ok ((), m) := by
    by_cases hk : (payload.applyTo obj).kind.labelled = true
    · exact ⟨db', (run_requireUniqueLabel hk).mpr ⟨Prog.run_exec_ok.mpr happly, hunique⟩⟩
    · exact ⟨db, by rw [requireUniqueLabel_unlabelled hk]; rfl⟩
  obtain ⟨m, hcheck⟩ := hcheck
  have hflush := (run_flushUncounted hcheck).mpr ⟨happly, hunique⟩
  refine ⟨(db'.role obj.id).getD (payload.applyTo obj), run_getOr404.mpr ⟨obj, hobj, ?_⟩⟩
  exact Prog.run_bind_ok.mpr ⟨(), m, hcheck, Prog.run_bind_ok.mpr ⟨(), db', hflush, rfl⟩⟩

/-- What the guard of `delete_role_config` asks. -/
def Unused (obj : RoleConfig) (db : Database) : Prop :=
  ∀ l, obj.label = some l → l ≠ "" → ∀ c, db.campaign obj.campaignId = some c →
    labelInUse obj.kind l c = none

theorem labelInUse_other {kind : RoleKind} {l : String} {c : Campaign}
    (hk : ¬ (kind = .referee ∨ kind = .persona)) : labelInUse kind l c = none := by
  rw [not_or] at hk
  unfold labelInUse
  rw [if_neg fun h => hk.1 h.1, if_neg fun h => hk.2 h.1]

theorem run_requireUnused {obj : RoleConfig} :
    (requireUnused obj).run db = .ok ((), db') ↔ Unused obj db ∧ db' = db := by
  unfold requireUnused Unused
  cases hl : obj.label with
  | none => simp [eq_comm]
  | some l =>
    simp only
    by_cases hk : (obj.kind = .referee ∨ obj.kind = .persona) ∧ l ≠ ""
    · rw [if_pos hk, Prog.bind_eq, Prog.run_select_bind]
      cases hc : db.campaign obj.campaignId with
      | none => simp [eq_comm]
      | some c =>
        cases huse : labelInUse obj.kind l c with
        | none => simp [huse, eq_comm]
        | some e => simp [huse, hk.2]
    · rw [if_neg hk]
      refine ⟨fun h => ⟨?_, by simpa [eq_comm] using h⟩, fun ⟨_, h⟩ => by simp [h]⟩
      rintro _ ⟨⟩ hne c _
      exact labelInUse_other fun hkind => hk ⟨hkind, hne⟩

theorem run_deleteRoleConfig {id : Int}
    (h : (deleteRoleConfig id).run db = .ok ((), db')) :
    ∃ obj, db.role id = some obj ∧ Unused obj db ∧ db.apply (.deleteRole id) = some db' := by
  obtain ⟨obj, hobj, h⟩ := run_getOr404.mp h
  obtain ⟨_, m, hunused, hdel⟩ := Prog.run_bind_ok.mp h
  obtain ⟨hunused, rfl⟩ := run_requireUnused.mp hunused
  exact ⟨obj, hobj, hunused, Prog.run_exec_ok.mp hdel⟩

variable {validateInterruptionRule : Json → Option String}

theorem edits_storeCampaign {ids : Draws} {payload : CampaignNestedCreate}
    {d : CampaignDetailRead} (h : (storeCampaign ids payload).run db = .ok (d, db')) :
    Edits ids.campaign (some (payload.row ids.campaign))
      (newRoles ids ids.campaign payload.roleConfigs) db db' := by
  obtain ⟨_, m, hins, h⟩ := Prog.run_bind_ok.mp h
  obtain ⟨_, n, hchildren, hload⟩ := Prog.run_bind_ok.mp h
  obtain rfl := run_loadDetail hload
  have hins := edits_insertCampaign (Prog.run_exec_ok.mp hins)
  have hchildren := edits_replaceChildren hchildren
  have hself : m.campaign ids.campaign = some (payload.row ids.campaign) := hins.campaign_self
  rw [hself] at hchildren
  exact hins.trans hchildren

theorem edits_patchCampaign {ids : Draws} {campaign : Campaign} {payload : CampaignNestedUpdate}
    {d : CampaignDetailRead} (hrow : db.campaign campaign.id = some campaign)
    (h : (patchCampaign ids campaign payload).run db = .ok (d, db')) :
    Edits campaign.id (some (payload.baseFields.applyTo campaign))
      (rolesAfter ids campaign.id payload.roleConfigs (db.rolesOf campaign.id)) db db' := by
  obtain ⟨_, m, hflush, h⟩ := Prog.run_bind_ok.mp h
  obtain ⟨_, n, hchildren, hload⟩ := Prog.run_bind_ok.mp h
  obtain rfl := run_loadDetail hload
  have hflush := edits_flushCampaign hrow hflush
  have hchildren := edits_replaceChildren hchildren
  rw [hflush.campaign_self, hflush.roles_self] at hchildren
  exact hflush.trans hchildren

/-- The labels of kind `k` among the role rows the final state will have. -/
def labelsAfter (k : RoleKind) (roleConfigs : Option (List RoleConfigNestedWrite))
    (existing : List RoleConfig) : List String :=
  match roleConfigs with
  | none => labelsOf k existing
  | some rcs => labelsOf k rcs

theorem labelsOf_rolesAfter {ids : Draws} {c : Int}
    {roleConfigs : Option (List RoleConfigNestedWrite)} {existing : List RoleConfig}
    (k : RoleKind) : labelsOf k (rolesAfter ids c roleConfigs existing) =
      labelsAfter k roleConfigs existing := by
  cases roleConfigs with
  | none => rfl
  | some rcs => exact labelsOf_newRoles k

/-- What `_validate_referee_routing` asks, in the state it reads. -/
structure RoutingValid (db : Database) (campaign : Option Campaign)
    (roleConfigs : Option (List RoleConfigNestedWrite))
    (routingRules : Option (List RoutingRule)) (tools : Option Tools) (toolsSet : Bool) :
    Prop where
  labels : ∀ rcs, roleConfigs = some rcs → validateRoleLabels rcs = .ok ()
  rules :
    let existing := (campaign.map fun c => db.rolesOf c.id).getD []
    validateRoutingRules (labelsAfter .referee roleConfigs existing)
      (labelsAfter .persona roleConfigs existing)
      (if toolsSet then (tools.getD []).map Prod.fst
        else (campaign.map Campaign.toolAliases).getD [])
      (routingRules.getD ((campaign.map Campaign.rules).getD [])) = .ok ()

theorem run_finalLabels {campaign : Option Campaign}
    {roleConfigs : Option (List RoleConfigNestedWrite)} {labels : List String × List String}
    (h : (finalLabels campaign roleConfigs).run db = .ok (labels, db')) :
    let existing := (campaign.map fun c => db.rolesOf c.id).getD []
    db' = db ∧ (∀ rcs, roleConfigs = some rcs → validateRoleLabels rcs = .ok ()) ∧
      labels = (labelsAfter .referee roleConfigs existing,
        labelsAfter .persona roleConfigs existing) := by
  cases roleConfigs with
  | none =>
    cases campaign <;>
    · cases h
      exact ⟨rfl, by simp, rfl⟩
  | some rcs =>
    obtain ⟨_, m, hvalid, hdone⟩ := Prog.run_bind_ok.mp h
    obtain ⟨hlabelled, hm⟩ := Prog.run_check_ok.mp hvalid
    cases hm
    cases hdone
    refine ⟨rfl, fun rcs' hrcs' => ?_, rfl⟩
    cases hrcs'
    exact hlabelled

theorem run_validateRefereeRouting {campaign : Option Campaign}
    {roleConfigs : Option (List RoleConfigNestedWrite)}
    {routingRules : Option (List RoutingRule)} {tools : Option Tools} {toolsSet : Bool}
    (h : (validateRefereeRouting campaign roleConfigs routingRules tools toolsSet).run db =
      .ok ((), db')) :
    RoutingValid db campaign roleConfigs routingRules tools toolsSet ∧ db' = db := by
  obtain ⟨labels, m, hlabels, hcheck⟩ := Prog.run_bind_ok.mp h
  obtain ⟨rfl, hvalid, rfl⟩ := run_finalLabels hlabels
  obtain ⟨hresolved, hdb⟩ := Prog.run_check_ok.mp hcheck
  cases hdb
  exact ⟨⟨hvalid, hresolved⟩, rfl⟩

theorem run_createCampaign {ids : Draws} {payload : CampaignNestedCreate}
    {d : CampaignDetailRead}
    (h : (createCampaign validateInterruptionRule ids payload).run db = .ok (d, db')) :
    RoutingValid db none (some payload.roleConfigs) payload.routingRules payload.tools true ∧
      (storeCampaign ids payload).run db = .ok (d, db') := by
  obtain ⟨_, m, hrules, h⟩ := Prog.run_bind_ok.mp h
  cases (Prog.run_check_ok.mp hrules).2
  obtain ⟨_, n, hrouting, hstore⟩ := Prog.run_bind_ok.mp h
  obtain ⟨hvalid, rfl⟩ := run_validateRefereeRouting hrouting
  exact ⟨hvalid, hstore⟩

/-- What the validations of `update_campaign` ask of labels and references. -/
abbrev PatchValid (db : Database) (campaign : Campaign) (payload : CampaignNestedUpdate) : Prop :=
  RoutingValid db (some campaign) payload.roleConfigs payload.baseFields.routingRules.join
    payload.baseFields.tools.join payload.baseFields.tools.isSome

theorem run_validatePatch {campaign : Campaign} {payload : CampaignNestedUpdate}
    (h : (validatePatch validateInterruptionRule campaign payload).run db = .ok ((), db')) :
    PatchValid db campaign payload ∧ db' = db := by
  obtain ⟨_, m, hrules, h⟩ := Prog.run_bind_ok.mp h
  cases (Prog.run_check_ok.mp hrules).2
  exact run_validateRefereeRouting h

theorem run_updateCampaign {ids : Draws} {id : Int} {payload : CampaignNestedUpdate}
    {d : CampaignDetailRead}
    (h : (updateCampaign validateInterruptionRule ids id payload).run db = .ok (d, db')) :
    ∃ campaign, db.campaign id = some campaign ∧ PatchValid db campaign payload ∧
      (patchCampaign ids campaign payload).run db = .ok (d, db') := by
  obtain ⟨campaign, hrow, h⟩ := run_getOr404.mp h
  obtain ⟨_, m, hvalid, hpatch⟩ := Prog.run_bind_ok.mp h
  obtain ⟨hvalid, rfl⟩ := run_validatePatch hvalid
  exact ⟨campaign, hrow, hvalid, hpatch⟩

theorem run_deleteCampaign {id : Int} (h : (deleteCampaign id).run db = .ok ((), db')) :
    db.apply (.deleteCampaign id) = some db' := by
  obtain ⟨_, _, h⟩ := run_getOr404.mp h
  exact Prog.run_exec_ok.mp h

theorem run_replaceRoutingRules {id : Int} {payload : RoutingRulesReplace}
    {read : RoutingRulesRead}
    (h : (replaceRoutingRules id payload).run db = .ok (read, db')) :
    ∃ campaign, db.campaign id = some campaign ∧
      validateRoutingRules (refereeLabelsOf (db.rolesOf id)) (personaLabelsOf (db.rolesOf id))
        campaign.toolAliases payload.routingRules = .ok () ∧
      (flushCampaign campaign payload.set).run db = .ok ((), db') := by
  obtain ⟨campaign, hrow, h⟩ := run_getOr404.mp h
  simp only [Prog.bind_eq, Prog.run_select_bind] at h
  obtain ⟨_, m, hcheck, h⟩ := Prog.run_bind_ok.mp h
  obtain ⟨hresolved, hm⟩ := Prog.run_check_ok.mp hcheck
  cases hm
  obtain ⟨_, n, hflush, hdone⟩ := Prog.run_bind_ok.mp h
  cases hdone
  exact ⟨campaign, hrow, hresolved, hflush⟩

end IsalesApi.Config
