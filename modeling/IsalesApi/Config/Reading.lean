import IsalesApi.Config.Patches
import IsalesApi.Config.RuleWrites
import IsalesApi.Config.Closed
import IsalesApi.Foundation.Transition

/-!
# Reading back what was written

The `GET` endpoints of the two routers answer from the row of a campaign and
from its child rows, and from nothing else. An accepted request leaves these
alone unless it concerns the campaign, so what it has answered is what the reads
go on answering until the next accepted request that concerns the campaign.
-/

namespace IsalesApi.Config

open Foundation

variable {db db' m : Database} {c : Int} {validateInterruptionRule : Json → Option String}
variable {Rule : Type} {M : RuleModel Rule}

/-! ## The reads -/

def getCampaign (id : Int) : Handler CampaignDetailRead :=
  (getOr404 (Database.campaign id) "campaign_not_found").bind loadDetail

def getRoleConfig (id : Int) : Handler RoleConfig :=
  (getOr404 (Database.role id) "role_config_not_found").bind fun obj => .done obj

/-- What a read answers. -/
def answerIn {α : Type} (db : Database) (read : Handler α) : Except HttpException α :=
  (read.session db).1

theorem answerIn_ok {α : Type} {read : Handler α} {a : α} :
    answerIn db read = .ok a ↔ ∃ db', read.run db = .ok (a, db') := by
  unfold answerIn Prog.session
  cases read.run db with
  | error e => simp
  | ok r =>
    obtain ⟨a', db'⟩ := r
    simp

theorem answerIn_error {α : Type} {read : Handler α} {e : HttpException} :
    answerIn db read = .error e ↔ read.run db = .error e := by
  unfold answerIn Prog.session
  cases read.run db <;> simp

theorem run_loadDetail_ok {campaign : Campaign} {detail : CampaignDetailRead} :
    (loadDetail campaign).run db = .ok (detail, db') ↔
      detail = ⟨campaign, db.rolesOf campaign.id, db.callbacksOf campaign.id⟩ ∧ db' = db := by
  unfold loadDetail
  simp only [Prog.bind_eq, Prog.pure_eq, Prog.run_select_bind, Prog.run_done]
  simp [eq_comm]

theorem getCampaign_ok {detail : CampaignDetailRead} :
    answerIn db (getCampaign c) = .ok detail ↔
      db.campaign c = some detail.campaign ∧ detail.roleConfigs = db.rolesOf c ∧
        detail.callbackConfigs = db.callbacksOf c := by
  rw [answerIn_ok]
  constructor
  · rintro ⟨db', h⟩
    obtain ⟨campaign, hrow, hload⟩ := run_getOr404.mp h
    obtain ⟨rfl, _⟩ := run_loadDetail_ok.mp hload
    obtain ⟨_, rfl⟩ := Database.campaign_eq_some.mp hrow
    exact ⟨hrow, rfl, rfl⟩
  · obtain ⟨campaign, roles, callbacks⟩ := detail
    rintro ⟨hrow, rfl, rfl⟩
    have hid : campaign.id = c := (Database.campaign_eq_some.mp hrow).2
    subst hid
    exact ⟨db, run_getOr404.mpr ⟨campaign, hrow, run_loadDetail_ok.mpr ⟨rfl, rfl⟩⟩⟩

theorem getCampaign_notFound (h : db.campaign c = none) :
    answerIn db (getCampaign c) = .error (notFound "campaign_not_found") :=
  answerIn_error.mpr (run_getOr404_none h)

/-- The rules as objects, and the knob beside them. -/
def RoutingRulesRead.validated (M : RuleModel Rule) (read : RoutingRulesRead) : List Rule × Json :=
  (read.routingRules.map M.modelValidate, read.maxContinuousRestructure)

/-- What a campaign says of its rules. -/
def Campaign.rulesRead (campaign : Campaign) : RoutingRulesRead :=
  ⟨campaign.rules, campaign.columns .maxContinuousRestructure⟩

theorem getRoutingRules_ok {campaign : Campaign} (h : db.campaign c = some campaign) :
    answerIn db (getRoutingRules M c) = .ok (campaign.rulesRead.validated M) :=
  answerIn_ok.mpr ⟨db, run_getOr404.mpr ⟨campaign, h, rfl⟩⟩

theorem getRoutingRules_notFound (h : db.campaign c = none) :
    answerIn db (getRoutingRules M c) = .error (notFound "campaign_not_found") :=
  answerIn_error.mpr (run_getOr404_none h)

theorem getRoleConfig_ok {id : Int} {row : RoleConfig} :
    answerIn db (getRoleConfig id) = .ok row ↔ db.role id = some row := by
  rw [answerIn_ok]
  constructor
  · rintro ⟨db', h⟩
    obtain ⟨obj, hobj, hdone⟩ := run_getOr404.mp h
    cases hdone
    exact hobj
  · intro hobj
    exact ⟨db, run_getOr404.mpr ⟨row, hobj, rfl⟩⟩

/-- A listed row is the one the read by its id answers. -/
theorem getRoleConfig_of_mem_rolesOf {row : RoleConfig} (h : row ∈ db.rolesOf c) :
    answerIn db (getRoleConfig row.id) = .ok row :=
  getRoleConfig_ok.mpr (Database.role_eq_some.mpr ⟨(Database.mem_rolesOf.mp h).1, rfl⟩)

/-! ## Requests that do not concern a campaign -/

theorem SameCampaign.trans (h : SameCampaign c db m) (h' : SameCampaign c m db') :
    SameCampaign c db db' :=
  ⟨h'.1.trans h.1, h'.2.1.trans h.2.1, h'.2.2.trans h.2.2⟩

/-- What a request changes may be read through the campaign. A patch of a role
row can take it from one campaign to another. -/
def Request.Concerns (c : Int) (db : Database) : Request → Prop
  | .createCampaign ids _ => ids.campaign = c
  | .updateCampaign _ id _ => id = c
  | .replaceRoutingRules id _ => id = c
  | .deleteCampaign id => id = c
  | .createRoleConfig _ payload => payload.campaignId = c
  | .updateRoleConfig id payload =>
    ∃ obj, db.role id = some obj ∧ (obj.campaignId = c ∨ (payload.applyTo obj).campaignId = c)
  | .deleteRoleConfig id => ∃ obj, db.role id = some obj ∧ obj.campaignId = c

theorem Edits.sameCampaign {d : Int} {campaign : Option Campaign} {roles : List RoleConfig}
    (h : Edits d campaign roles db db') (hc : c ≠ d)
    (hcallbacks : db'.callbacksOf c = db.callbacksOf c) : SameCampaign c db db' :=
  ⟨h.campaign_other c hc, h.roles_other c hc, hcallbacks⟩

theorem callbacks_storeCampaign {ids : Draws} {payload : CampaignNestedCreate}
    {detail : CampaignDetailRead} (h : (storeCampaign ids payload).run db = .ok (detail, db'))
    (hc : c ≠ ids.campaign) : db'.callbacksOf c = db.callbacksOf c := by
  obtain ⟨_, m, hins, h⟩ := Prog.run_bind_ok.mp h
  obtain ⟨_, n, hchildren, hload⟩ := Prog.run_bind_ok.mp h
  obtain rfl := run_loadDetail hload
  obtain ⟨_, o, hroles, hcallbacks⟩ := Prog.run_bind_ok.mp hchildren
  have hbefore : o.callbacks = db.callbacks :=
    (callbacks_replaceRoles hroles).trans (apply_leavesCallbacks (Prog.run_exec_ok.mp hins) rfl)
  exact ((callbacks_replaceCallbacks hcallbacks).2 c hc).trans (callbacksOf_congr hbefore c)

theorem callbacks_deleteCampaign {id : Int} (h : db.apply (.deleteCampaign id) = some db')
    (hc : c ≠ id) : db'.callbacksOf c = db.callbacksOf c := by
  cases h
  simp only [callbacksOf_eq, Table.delete, List.filter_filter]
  apply List.filter_congr
  intro r _
  by_cases hr : r.campaignId = c <;> simp [hr, hc]

/-- A patched role row is read through no campaign but the old one and the new
one. -/
theorem sameCampaign_updateRole {payload : RoleConfigUpdate} {obj : RoleConfig}
    (hobj : db.role obj.id = some obj) (h : db.apply (.updateRole obj.id payload) = some db')
    (hold : obj.campaignId ≠ c) (hnew : (payload.applyTo obj).campaignId ≠ c) :
    SameCampaign c db db' := by
  obtain ⟨hcampaigns, hrows⟩ := apply_updateRole h
  refine ⟨campaign_congr hcampaigns c, ?_, callbacksOf_congr (apply_leavesCallbacks h rfl) c⟩
  have hstored := (Database.role_eq_some.mp hobj).1
  rw [rolesOf_eq, rolesOf_eq, hrows, List.filter_map]
  -- the row is in the campaign neither before nor after, and no other row changes
  have hkept : ∀ r ∈ db.roles.rows.filter fun r => r.campaignId = c, r.id ≠ obj.id := by
    intro r hr hid
    obtain ⟨hr, hrc⟩ := List.mem_filter.mp hr
    have hrc : r.campaignId = c := by simpa using hrc
    exact hold ((congrArg RoleConfig.campaignId (Table.eq_of_key_eq hr hstored hid)).symm.trans
      hrc)
  have hfilter : db.roles.rows.filter ((fun r => decide (r.campaignId = c)) ∘
      fun r => if r.id = obj.id then payload.applyTo r else r) =
      db.roles.rows.filter fun r => r.campaignId = c := by
    apply List.filter_congr
    intro r hr
    by_cases hid : r.id = obj.id
    · obtain rfl := Table.eq_of_key_eq hr hstored hid
      simp [hold, hnew]
    · simp [hid]
  rw [hfilter]
  refine (List.map_congr_left fun r hr => ?_).trans (List.map_id _)
  exact if_neg (hkept r hr)

/-- **Frame.** An accepted request leaves every campaign as it was that it does
not concern. -/
theorem sameCampaign_respond {r : Request} {answer : Answer}
    (h : respond validateInterruptionRule db r = (.ok answer, db')) (hc : ¬ r.Concerns c db) :
    SameCampaign c db db' := by
  have hrun := Prog.session_ok.mp h
  cases r with
  | createCampaign ids payload =>
    obtain ⟨detail, hrun, _⟩ := run_answer.mp hrun
    obtain ⟨_, hstore⟩ := run_createCampaign hrun
    exact (edits_storeCampaign hstore).sameCampaign (Ne.symm hc)
      (callbacks_storeCampaign hstore (Ne.symm hc))
  | updateCampaign ids id payload =>
    obtain ⟨detail, hrun, _⟩ := run_answer.mp hrun
    exact (configured_updateCampaign hrun).2 c (Ne.symm hc)
  | replaceRoutingRules id payload =>
    obtain ⟨read, hrun, _⟩ := run_answer.mp hrun
    obtain ⟨campaign, hrow, _, hflush⟩ := run_replaceRoutingRules hrun
    obtain ⟨_, rfl⟩ := Database.campaign_eq_some.mp hrow
    exact (edits_flushCampaign hrow hflush).sameCampaign (Ne.symm hc)
      (callbacksOf_congr (callbacks_flushCampaign hflush) c)
  | deleteCampaign id =>
    obtain ⟨_, hrun, _⟩ := run_answer.mp hrun
    have hdelete := run_deleteCampaign hrun
    exact (edits_deleteCampaign hdelete).sameCampaign (Ne.symm hc)
      (callbacks_deleteCampaign hdelete (Ne.symm hc))
  | createRoleConfig id payload =>
    obtain ⟨row, hrun, _⟩ := run_answer.mp hrun
    have hinsert := run_storeRole (run_createRoleConfig hrun).2
    exact (edits_insertRole hinsert).sameCampaign (Ne.symm hc)
      (callbacksOf_congr (apply_leavesCallbacks hinsert rfl) c)
  | updateRoleConfig id payload =>
    obtain ⟨row, hrun, _⟩ := run_answer.mp hrun
    obtain ⟨obj, hobj, happly, _⟩ := run_updateRoleConfig hrun
    obtain ⟨_, rfl⟩ := Database.role_eq_some.mp hobj
    exact sameCampaign_updateRole hobj happly (fun hold => hc ⟨obj, hobj, .inl hold⟩)
      fun hnew => hc ⟨obj, hobj, .inr hnew⟩
  | deleteRoleConfig id =>
    obtain ⟨_, hrun, _⟩ := run_answer.mp hrun
    obtain ⟨obj, hobj, _, hdelete⟩ := run_deleteRoleConfig hrun
    obtain ⟨hstored, rfl⟩ := Database.role_eq_some.mp hobj
    exact (edits_deleteRole hstored hdelete).sameCampaign (fun hcd => hc ⟨obj, hobj, hcd.symm⟩)
      (callbacksOf_congr (apply_leavesCallbacks hdelete rfl) c)

/-! ## What a request has answered -/

/-- The campaign is read as `detail`, and its rules and role rows are read as
they stand in it. -/
def ShowsDetail (M : RuleModel Rule) (c : Int) (db : Database) (detail : CampaignDetailRead) :
    Prop :=
  answerIn db (getCampaign c) = .ok detail ∧
    answerIn db (getRoutingRules M c) = .ok (detail.campaign.rulesRead.validated M) ∧
    ∀ r ∈ detail.roleConfigs, answerIn db (getRoleConfig r.id) = .ok r

def ShowsRules (M : RuleModel Rule) (c : Int) (db : Database) (read : RoutingRulesRead) : Prop :=
  answerIn db (getRoutingRules M c) = .ok (read.validated M) ∧
    ∃ detail, answerIn db (getCampaign c) = .ok detail ∧ detail.campaign.rulesRead = read

/-- The role row is read by its id and with its campaign. -/
def Lists (c : Int) (db : Database) (row : RoleConfig) : Prop :=
  answerIn db (getRoleConfig row.id) = .ok row ∧
    ∃ detail, answerIn db (getCampaign c) = .ok detail ∧ row ∈ detail.roleConfigs

/-- No role row with the id is read with the campaign. -/
def Omits (c : Int) (db : Database) (id : Int) : Prop :=
  ∀ detail, answerIn db (getCampaign c) = .ok detail → ∀ r ∈ detail.roleConfigs, r.id ≠ id

/-- A row that was answered is shown by the campaign it is in. -/
def ShowsRole (c : Int) (db : Database) (row : RoleConfig) : Prop :=
  (row.campaignId = c → Lists c db row) ∧ (row.campaignId ≠ c → Omits c db row.id)

/-- The campaign is not found. -/
def Gone (M : RuleModel Rule) (c : Int) (db : Database) : Prop :=
  answerIn db (getCampaign c) = .error (notFound "campaign_not_found") ∧
    answerIn db (getRoutingRules M c) = .error (notFound "campaign_not_found")

def Answer.Shows (M : RuleModel Rule) (c : Int) (db : Database) : Answer → Prop
  | .campaign detail => ShowsDetail M c db detail
  | .rules read => ShowsRules M c db read
  | .role row => ShowsRole c db row
  | .noContent => False

/-- The reads of the campaign agree with what the request was answered. -/
def Request.Shows (M : RuleModel Rule) (c : Int) (db : Database) : Request → Answer → Prop
  | .deleteRoleConfig id => fun _ => Omits c db id
  | .deleteCampaign _ => fun _ => Gone M c db
  | _ => Answer.Shows M c db

theorem showsDetail_iff {detail : CampaignDetailRead} :
    ShowsDetail M c db detail ↔ db.campaign c = some detail.campaign ∧
      detail.roleConfigs = db.rolesOf c ∧ detail.callbackConfigs = db.callbacksOf c := by
  constructor
  · rintro ⟨hdetail, _, _⟩
    exact getCampaign_ok.mp hdetail
  · rintro ⟨hrow, hroles, hcallbacks⟩
    refine ⟨getCampaign_ok.mpr ⟨hrow, hroles, hcallbacks⟩,
      getRoutingRules_ok hrow, fun r hr => ?_⟩
    rw [hroles] at hr
    exact getRoleConfig_of_mem_rolesOf hr

theorem showsRules_iff {read : RoutingRulesRead} :
    ShowsRules M c db read ↔ ∃ campaign, db.campaign c = some campaign ∧
      campaign.rulesRead = read := by
  constructor
  · rintro ⟨_, detail, hdetail, hread⟩
    exact ⟨detail.campaign, (getCampaign_ok.mp hdetail).1, hread⟩
  · rintro ⟨campaign, hrow, rfl⟩
    exact ⟨getRoutingRules_ok hrow, ⟨campaign, db.rolesOf c, db.callbacksOf c⟩,
      getCampaign_ok.mpr ⟨hrow, rfl, rfl⟩, rfl⟩

theorem lists_iff {row : RoleConfig} :
    Lists c db row ↔ (∃ campaign, db.campaign c = some campaign) ∧ row ∈ db.rolesOf c := by
  constructor
  · rintro ⟨_, detail, hdetail, hmem⟩
    obtain ⟨hrow, hroles, _⟩ := getCampaign_ok.mp hdetail
    rw [hroles] at hmem
    exact ⟨⟨_, hrow⟩, hmem⟩
  · rintro ⟨⟨campaign, hrow⟩, hmem⟩
    exact ⟨getRoleConfig_of_mem_rolesOf hmem, ⟨campaign, db.rolesOf c, db.callbacksOf c⟩,
      getCampaign_ok.mpr ⟨hrow, rfl, rfl⟩, hmem⟩

theorem omits_of_rolesOf {id : Int} (h : ∀ r ∈ db.rolesOf c, r.id ≠ id) : Omits c db id := by
  intro detail hdetail r hr
  rw [(getCampaign_ok.mp hdetail).2.1] at hr
  exact h r hr

theorem gone_iff : Gone M c db ↔ db.campaign c = none := by
  constructor
  · rintro ⟨herror, _⟩
    cases hrow : db.campaign c with
    | none => rfl
    | some campaign =>
      have hok : answerIn db (getCampaign c) =
          .ok ⟨campaign, db.rolesOf c, db.callbacksOf c⟩ := getCampaign_ok.mpr ⟨hrow, rfl, rfl⟩
      rw [hok] at herror
      cases herror
  · intro hrow
    exact ⟨getCampaign_notFound hrow, getRoutingRules_notFound hrow⟩

/-- Two databases that agree on a campaign show the same of it. -/
theorem SameCampaign.shows {r : Request} {answer : Answer} (h : SameCampaign c db db')
    (hshows : r.Shows M c db answer) : r.Shows M c db' answer := by
  obtain ⟨hcampaign, hroles, hcallbacks⟩ := h
  -- each answer is about the row of the campaign and its child rows, which are the same
  have homits : ∀ {id : Int}, Omits c db id → Omits c db' id := by
    rintro id hid ⟨campaign, roles, callbacks⟩ hdetail
    rw [getCampaign_ok, hcampaign, hroles, hcallbacks] at hdetail
    exact hid _ (getCampaign_ok.mpr hdetail)
  have hanswer : ∀ {answer : Answer}, answer.Shows M c db → answer.Shows M c db' := by
    intro answer hanswer
    cases answer with
    | campaign detail =>
      have hdetail := showsDetail_iff.mp hanswer
      rw [← hcampaign, ← hroles, ← hcallbacks] at hdetail
      exact showsDetail_iff.mpr hdetail
    | rules read =>
      have hrules := showsRules_iff.mp hanswer
      rw [← hcampaign] at hrules
      exact showsRules_iff.mpr hrules
    | role row =>
      obtain ⟨hin, hout⟩ := hanswer
      refine ⟨fun hc => ?_, fun hc => homits (hout hc)⟩
      have hlists := lists_iff.mp (hin hc)
      rw [← hcampaign, ← hroles] at hlists
      exact lists_iff.mpr hlists
    | noContent => exact hanswer
  cases r with
  | deleteRoleConfig id => exact homits hshows
  | deleteCampaign id => exact gone_iff.mpr (hcampaign.trans (gone_iff.mp hshows))
  | _ => exact hanswer hshows

/-! ## Right after the request -/

theorem role_of_insertRole {row : RoleConfig} (h : db.apply (.insertRole row) = some db') :
    db'.role row.id = some row ∧ ∃ campaign, db'.campaign row.campaignId = some campaign := by
  obtain ⟨hcampaigns, hrows⟩ := apply_insertRole h
  constructor
  · have hmem : row ∈ db'.roles.rows := by simp [hrows]
    exact Database.role_eq_some.mpr ⟨hmem, rfl⟩
  · simp only [Database.apply] at h
    split at h
    · rename_i hok
      rw [campaign_congr hcampaigns]
      exact Option.isSome_iff_exists.mp (Bool.and_eq_true_iff.mp hok).1
    · cases h

theorem role_of_updateRole {payload : RoleConfigUpdate} {obj : RoleConfig}
    (hobj : db.role obj.id = some obj) (h : db.apply (.updateRole obj.id payload) = some db') :
    db'.role obj.id = some (payload.applyTo obj) ∧
      ∃ campaign, db'.campaign (payload.applyTo obj).campaignId = some campaign := by
  obtain ⟨hcampaigns, hrows⟩ := apply_updateRole h
  constructor
  · have hmem : payload.applyTo obj ∈ db'.roles.rows := by
      rw [hrows]
      exact List.mem_map.mpr ⟨obj, (Database.role_eq_some.mp hobj).1, if_pos rfl⟩
    exact Database.role_eq_some.mpr ⟨hmem, rfl⟩
  · simp only [Database.apply, hobj] at h
    split at h
    · rename_i hok
      rw [campaign_congr hcampaigns]
      exact Option.isSome_iff_exists.mp (Bool.and_eq_true_iff.mp hok).1
    · cases h

/-- A row that is stored is shown by its campaign and by no other one. -/
theorem showsRole_of_stored {row : RoleConfig} (hrow : db.role row.id = some row)
    (hcampaign : ∃ campaign, db.campaign row.campaignId = some campaign) :
    ShowsRole c db row := by
  have hstored := (Database.role_eq_some.mp hrow).1
  constructor
  · rintro rfl
    exact lists_iff.mpr ⟨hcampaign, Database.mem_rolesOf.mpr ⟨hstored, rfl⟩⟩
  · intro hc
    refine omits_of_rolesOf fun r hr hid => hc ?_
    obtain ⟨hr, hrc⟩ := Database.mem_rolesOf.mp hr
    rw [Table.eq_of_key_eq hstored hr hid.symm, hrc]

theorem run_refreshRole_ok {row fresh : RoleConfig} (hrow : db.role row.id = some row)
    (h : (refreshRole row).run db = .ok (fresh, db')) : fresh = row := by
  unfold refreshRole at h
  simp only [Prog.bind_eq, Prog.pure_eq, Prog.run_select_bind, Prog.run_done, hrow] at h
  cases h
  rfl

theorem shows_storeRole {row fresh : RoleConfig}
    (h : (storeRole row).run db = .ok (fresh, db')) : ShowsRole c db' fresh := by
  obtain ⟨hrow, hcampaign⟩ := role_of_insertRole (run_storeRole h)
  obtain ⟨_, m, _, hread⟩ := Prog.run_bind_ok.mp h
  obtain rfl := run_refreshRole hread
  obtain rfl := run_refreshRole_ok hrow hread
  exact showsRole_of_stored hrow hcampaign

theorem shows_updateRoleConfig {id : Int} {payload : RoleConfigUpdate} {fresh : RoleConfig}
    (h : (updateRoleConfig id payload).run db = .ok (fresh, db')) : ShowsRole c db' fresh := by
  obtain ⟨obj, hobj, happly, _⟩ := run_updateRoleConfig h
  obtain ⟨obj', hobj', h⟩ := run_getOr404.mp h
  obtain rfl : obj' = obj := Option.some.inj (hobj'.symm.trans hobj)
  obtain ⟨_, rfl⟩ := Database.role_eq_some.mp hobj
  obtain ⟨hrow, hcampaign⟩ := role_of_updateRole hobj happly
  obtain ⟨_, m, _, h⟩ := Prog.run_bind_ok.mp h
  obtain ⟨_, n, _, hread⟩ := Prog.run_bind_ok.mp h
  obtain rfl := run_refreshRole hread
  obtain rfl := run_refreshRole_ok hrow hread
  exact showsRole_of_stored hrow hcampaign

theorem shows_storeCampaign {ids : Draws} {payload : CampaignNestedCreate}
    {detail : CampaignDetailRead} (h : (storeCampaign ids payload).run db = .ok (detail, db')) :
    ShowsDetail M ids.campaign db' detail := by
  have hedits := edits_storeCampaign h
  obtain ⟨_, m, _, h⟩ := Prog.run_bind_ok.mp h
  obtain ⟨_, n, _, hload⟩ := Prog.run_bind_ok.mp h
  obtain ⟨rfl, rfl⟩ := run_loadDetail_ok.mp hload
  exact showsDetail_iff.mpr ⟨hedits.campaign_self, rfl, rfl⟩

theorem shows_patchCampaign {ids : Draws} {campaign : Campaign} {payload : CampaignNestedUpdate}
    {detail : CampaignDetailRead} (hrow : db.campaign campaign.id = some campaign)
    (h : (patchCampaign ids campaign payload).run db = .ok (detail, db')) :
    ShowsDetail M campaign.id db' detail := by
  have hedits := edits_patchCampaign hrow h
  obtain ⟨_, m, _, h⟩ := Prog.run_bind_ok.mp h
  obtain ⟨_, n, _, hload⟩ := Prog.run_bind_ok.mp h
  obtain ⟨rfl, rfl⟩ := run_loadDetail_ok.mp hload
  exact showsDetail_iff.mpr ⟨hedits.campaign_self, rfl, rfl⟩

theorem shows_replaceRoutingRules {id : Int} {payload : RoutingRulesReplace}
    {read : RoutingRulesRead} (h : (replaceRoutingRules id payload).run db = .ok (read, db')) :
    ShowsRules M id db' read := by
  obtain ⟨campaign, hrow, _, hflush⟩ := run_replaceRoutingRules h
  obtain ⟨campaign', hrow', h⟩ := run_getOr404.mp h
  obtain rfl : campaign' = campaign := Option.some.inj (hrow'.symm.trans hrow)
  obtain ⟨_, rfl⟩ := Database.campaign_eq_some.mp hrow
  have hedits := edits_flushCampaign hrow hflush
  simp only [Prog.bind_eq, Prog.run_select_bind] at h
  obtain ⟨_, m, _, h⟩ := Prog.run_bind_ok.mp h
  obtain ⟨_, n, _, hdone⟩ := Prog.run_bind_ok.mp h
  cases hdone
  exact showsRules_iff.mpr ⟨_, hedits.campaign_self, rfl⟩

theorem shows_respond {r : Request} {answer : Answer}
    (h : respond validateInterruptionRule db r = (.ok answer, db')) (hc : r.Concerns c db) :
    r.Shows M c db' answer := by
  have hrun := Prog.session_ok.mp h
  cases r with
  | createCampaign ids payload =>
    obtain ⟨detail, hrun, rfl⟩ := run_answer.mp hrun
    obtain rfl : ids.campaign = c := hc
    exact shows_storeCampaign (run_createCampaign hrun).2
  | updateCampaign ids id payload =>
    obtain ⟨detail, hrun, rfl⟩ := run_answer.mp hrun
    obtain ⟨campaign, hrow, _, hpatch⟩ := run_updateCampaign hrun
    obtain ⟨_, rfl⟩ := Database.campaign_eq_some.mp hrow
    obtain rfl : campaign.id = c := hc
    exact shows_patchCampaign hrow hpatch
  | replaceRoutingRules id payload =>
    obtain ⟨read, hrun, rfl⟩ := run_answer.mp hrun
    obtain rfl : id = c := hc
    exact shows_replaceRoutingRules hrun
  | deleteCampaign id =>
    obtain ⟨_, hrun, _⟩ := run_answer.mp hrun
    obtain rfl : id = c := hc
    exact gone_iff.mpr (edits_deleteCampaign (run_deleteCampaign hrun)).campaign_self
  | createRoleConfig id payload =>
    obtain ⟨row, hrun, rfl⟩ := run_answer.mp hrun
    exact shows_storeRole (run_createRoleConfig hrun).2
  | updateRoleConfig id payload =>
    obtain ⟨row, hrun, rfl⟩ := run_answer.mp hrun
    exact shows_updateRoleConfig hrun
  | deleteRoleConfig id =>
    obtain ⟨_, hrun, _⟩ := run_answer.mp hrun
    obtain ⟨obj, _, _, hdelete⟩ := run_deleteRoleConfig hrun
    refine omits_of_rolesOf fun r hr => ?_
    have hstored := (Database.mem_rolesOf.mp hr).1
    rw [← Table.mem_rows, (apply_deleteRole hdelete).2, List.mem_filter] at hstored
    simpa using hstored.2

/-! ## Until the next accepted request -/

/-- If the request is accepted, it does not concern the campaign. -/
def LeavesAlone (validateInterruptionRule : Json → Option String) (c : Int) (db : Database)
    (r : Request) : Prop :=
  ∀ answer db', respond validateInterruptionRule db r = (.ok answer, db') → ¬ r.Concerns c db

theorem sameCampaign_serve {r : Request} (hr : LeavesAlone validateInterruptionRule c db r)
    (h : serve validateInterruptionRule db r = some db') : SameCampaign c db db' := by
  cases h
  cases hrespond : respond validateInterruptionRule db r with
  | mk result db' =>
    cases result with
    | ok answer => exact sameCampaign_respond hrespond (hr answer db' hrespond)
    | error e =>
      obtain ⟨_, rfl⟩ := Prog.session_error.mp hrespond
      exact ⟨rfl, rfl, rfl⟩

/-- **Written is read.** Let a request that concerns a campaign be accepted. In
every run of requests after it, the reads of the campaign agree with what it was
answered as long as no other request that concerns the campaign is accepted. -/
theorem read_back (M : RuleModel Rule) (validateInterruptionRule : Json → Option String) (c : Int)
    (db m db' : Database) (r : Request) (answer : Answer)
    (h : respond validateInterruptionRule db r = (.ok answer, m)) (hc : r.Concerns c db)
    (rs : List Request) (hrs : Along (serve validateInterruptionRule)
      (LeavesAlone validateInterruptionRule c) m rs)
    (hrun : exec (serve validateInterruptionRule) m rs = some db') : r.Shows M c db' answer := by
  refine exec_of_along (I := fun db => r.Shows M c db answer) ?_ (shows_respond h hc) hrs hrun
  intro db r' db' hshows hr' hstep
  exact (sameCampaign_serve hr' hstep).shows hshows

/-- Another campaign is created, and a rule for a referee that campaign 4 lacks
is refused. -/
def meanwhile : List Request :=
  [.createCampaign ⟨7, fun _ => 7, fun _ => 7⟩ judgedCampaign,
    .replaceRoutingRules 4 ⟨[⟨"main_judge", .route "closing" ⟨"{}"⟩, ⟨"{}"⟩⟩], none⟩]

theorem meanwhile_leavesAlone : Along (serve fun _ => none) (LeavesAlone (fun _ => none) 4)
    greetedDatabase meanwhile := by
  rintro m ⟨⟩
  refine ⟨fun answer db' _ => ?_, ?_⟩
  · change ¬ (7 : Int) = 4
    decide
  · rintro m' ⟨⟩
    refine ⟨fun answer db' hrespond => ?_, trivial⟩
    cases hrespond

/-- The greeting is still read after both. -/
theorem read_back_greeting : ∃ db' detail, ShowsDetail transferRules 4 db' detail ∧
    detail.campaign.columns .greeting = ⟨"\"hello\""⟩ := by
  have hgreeting : respond (fun _ => none) plainDatabase
    (.updateCampaign ⟨2, fun _ => 2, fun _ => 2⟩ 4 greetingPatch) =
      (.ok (.campaign _), greetedDatabase) := rfl
  exact ⟨_, _, read_back transferRules _ 4 plainDatabase greetedDatabase _ _ _ hgreeting rfl
    meanwhile meanwhile_leavesAlone rfl, rfl⟩

end IsalesApi.Config
