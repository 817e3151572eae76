import IsalesApi.Config.Database

/-!
# The campaign and role-config handlers

Each handler is a program of the statements its session sends, in their order.
The session flushes pending changes before a query, so an assigned row is sent
before the check that comes after it; a row loaded once is served from the
identity map afterwards. `get_session` commits when a handler ends and rolls
back when it raises (`Prog.session`).

Ids are drawn from sequences; a request carries the ones it will get.
-/

namespace IsalesApi.Config

open Foundation

abbrev Handler (α : Type) := Prog Database Write HttpException α

/-! ## `routers/role_configs.py` -/

/-- `_PERSONA_KINDS`. -/
def personaKinds : List RoleKind := [.persona]

/-- `_REFEREE_KINDS`. -/
def refereeKinds : List RoleKind := [.referee]

/-- `_LABELLED_KINDS` of this module. -/
def labelledKinds : List RoleKind := personaKinds ++ refereeKinds

/-- The two modules agree on the kinds that need a label. -/
theorem mem_labelledKinds {k : RoleKind} : k ∈ labelledKinds ↔ k.labelled = true := by
  cases k <;> decide

/-- The namespace of a labelled kind is that kind alone. -/
theorem mem_namespace {k k' : RoleKind} (hk : k.labelled = true) :
    k' ∈ (if k ∈ personaKinds then personaKinds else refereeKinds) ↔ k' = k := by
  cases k <;> cases k' <;> simp_all [RoleKind.labelled, personaKinds, refereeKinds]

/-- The stored rows `_require_unique_label` counts. -/
def sameLabel (campaignId : Int) (kind : RoleKind) (label : Option String)
    (excludeId : Option Int) (db : Database) : List RoleConfig :=
  db.roles.select fun r => r.campaignId = campaignId && r.label = label &&
    (r.kind ∈ if kind ∈ personaKinds then personaKinds else refereeKinds) &&
    excludeId ≠ some r.id

/-- `_require_unique_label`. `pending` is what the session flushes before the
count: nothing, or the row that was assigned. -/
def requireUniqueLabel (pending : Handler Unit) (campaignId : Int) (kind : RoleKind)
    (label : Option String) (excludeId : Option Int) : Handler Unit :=
  if kind ∉ labelledKinds then pure ()
  else if blank label then .raise roleLabelRequired
  else do
    pending
    let same ← Prog.select (sameLabel campaignId kind label excludeId)
    Prog.raiseIf (0 < same.length) (roleLabelDuplicate (label.getD ""))

/-- `RoleConfigCreate`: a nested row with its campaign. -/
structure RoleConfigCreate extends RoleConfigNestedWrite where
  campaignId : Int

/-- `RoleConfig(**payload.model_dump())` with the id it is given. -/
def RoleConfigCreate.row (payload : RoleConfigCreate) (id : Int) : RoleConfig :=
  { payload with id }

/-- `session.add(obj)`, flush and refresh. -/
def storeRole (row : RoleConfig) : Handler RoleConfig := do
  Prog.exec (.insertRole row)
  let fresh ← Prog.select (Database.role row.id)
  pure (fresh.getD row)

def createRoleConfig (id : Int) (payload : RoleConfigCreate) : Handler RoleConfig := do
  requireUniqueLabel (pure ()) payload.campaignId payload.kind payload.label none
  storeRole (payload.row id)

/-- Refresh after the patch was flushed. -/
def refreshRole (row : RoleConfig) : Handler RoleConfig := do
  let fresh ← Prog.select (Database.role row.id)
  pure (fresh.getD row)

/-- `session.flush()` after the check. The count has flushed the patched row
already when there was one. -/
def flushUncounted (id : Int) (payload : RoleConfigUpdate) (kind : RoleKind) : Handler Unit :=
  if kind ∉ labelledKinds then Prog.exec (.updateRole id payload) else pure ()

def updateRoleConfig (id : Int) (payload : RoleConfigUpdate) : Handler RoleConfig :=
  (getOr404 (Database.role id) "role_config_not_found").bind fun obj => do
    let row := payload.applyTo obj
    requireUniqueLabel (Prog.exec (.updateRole id payload)) row.campaignId row.kind row.label
      (some id)
    flushUncounted id payload row.kind
    refreshRole row

def RuleAction.routesTo (l : String) : RuleAction → Bool
  | .route target _ => target = l
  | _ => false

/-- Why a row with the label `l` cannot be deleted. -/
def labelInUse (kind : RoleKind) (l : String) (c : Campaign) : Option HttpException :=
  if kind = .referee ∧ l ∈ c.rules.map RoutingRule.referee then
    some (conflict ("referee_label_in_use:" ++ l))
  else if kind = .persona ∧ c.rules.any (fun rule => rule.action.routesTo l) then
    some (conflict ("persona_label_in_use:" ++ l))
  else none

/-- The guard of `delete_role_config`. -/
def requireUnused (obj : RoleConfig) : Handler Unit :=
  match obj.label with
  | none => pure ()
  | some l =>
    if (obj.kind = .referee ∨ obj.kind = .persona) ∧ l ≠ "" then do
      let campaign ← Prog.select (Database.campaign obj.campaignId)
      match campaign.bind (labelInUse obj.kind l) with
      | none => pure ()
      | some e => .raise e
    else pure ()

def deleteRoleConfig (id : Int) : Handler Unit :=
  (getOr404 (Database.role id) "role_config_not_found").bind fun obj => do
    requireUnused obj
    Prog.exec (.deleteRole id)

/-! ## `routers/campaigns.py` -/

section Campaigns

-- `validate_interruption_rule`: the message of the `ValueError` it raises
variable (validateInterruptionRule : Json → Option String)

/-- `_validate_interruption_rules`. -/
def validateInterruptionRules (rules : Json) : Except HttpException Unit :=
  if rules = Json.null then .ok ()
  else
    match validateInterruptionRule rules with
    | none => .ok ()
    | some e => .error (unprocessable ("interruption_rule_invalid:" ++ e))

/-- Label sets of the rows the final state will have: those of the payload, or
else the stored ones. -/
def finalLabels (campaign : Option Campaign) (roleConfigs : Option (List RoleConfigNestedWrite)) :
    Handler (List String × List String) :=
  match roleConfigs, campaign with
  | some rcs, _ => do
    Prog.check (validateRoleLabels rcs)
    pure (refereeLabelsOf rcs, personaLabelsOf rcs)
  | none, some c => do
    let existing ← Prog.select (Database.rolesOf c.id)
    pure (refereeLabelsOf existing, personaLabelsOf existing)
  | none, none => pure ([], [])

/-- `_validate_referee_routing`. `campaign` is the row of `campaign_id`, which
the identity map holds already; `none` stands for `campaign_id=None`. -/
def validateRefereeRouting (campaign : Option Campaign)
    (roleConfigs : Option (List RoleConfigNestedWrite))
    (routingRules : Option (List RoutingRule)) (tools : Option Tools) (toolsSet : Bool) :
    Handler Unit := do
  let labels ← finalLabels campaign roleConfigs
  let finalRules := routingRules.getD ((campaign.map Campaign.rules).getD [])
  let finalAliases :=
    if toolsSet then (tools.getD []).map Prod.fst
    else (campaign.map Campaign.toolAliases).getD []
  Prog.check (validateRoutingRules labels.1 labels.2 finalAliases finalRules)

/-- The ids a request draws. -/
structure Draws where
  campaign : Int
  role : Nat → Int
  callback : Nat → Int

/-- The rows `_replace_children` adds. -/
def newRoles (ids : Draws) (campaignId : Int) (rcs : List RoleConfigNestedWrite) :
    List RoleConfig :=
  rcs.mapIdx fun i rc => { rc with id := ids.role i, campaignId }

def newCallbacks (ids : Draws) (campaignId : Int) (cbs : List CallbackConfigNestedWrite) :
    List CallbackConfig :=
  cbs.mapIdx fun i cb => { cb with id := ids.callback i, campaignId }

def replaceRoles (ids : Draws) (campaignId : Int)
    (roleConfigs : Option (List RoleConfigNestedWrite)) : Handler Unit :=
  match roleConfigs with
  | none => pure ()
  | some rcs => do
    Prog.execWhere fun db => (db.rolesOf campaignId).map fun r => .deleteRoleOf r.id campaignId
    Prog.execAll ((newRoles ids campaignId rcs).map .insertRole)

def replaceCallbacks (ids : Draws) (campaignId : Int)
    (callbackConfigs : Option (List CallbackConfigNestedWrite)) : Handler Unit :=
  match callbackConfigs with
  | none => pure ()
  | some cbs => do
    Prog.execWhere fun db => (db.callbacksOf campaignId).map fun r =>
      .deleteCallbackOf r.id campaignId
    Prog.execAll ((newCallbacks ids campaignId cbs).map .insertCallback)

/-- `_replace_children`. -/
def replaceChildren (ids : Draws) (campaignId : Int)
    (roleConfigs : Option (List RoleConfigNestedWrite))
    (callbackConfigs : Option (List CallbackConfigNestedWrite)) : Handler Unit := do
  replaceRoles ids campaignId roleConfigs
  replaceCallbacks ids campaignId callbackConfigs

structure CampaignDetailRead where
  campaign : Campaign
  roleConfigs : List RoleConfig
  callbackConfigs : List CallbackConfig

/-- `_load_detail` of a campaign the identity map holds. -/
def loadDetail (campaign : Campaign) : Handler CampaignDetailRead := do
  let roles ← Prog.select (Database.rolesOf campaign.id)
  let callbacks ← Prog.select (Database.callbacksOf campaign.id)
  pure ⟨campaign, roles, callbacks⟩

/-- `CampaignNestedCreate`, defaults filled in. -/
structure CampaignNestedCreate where
  routingRules : Option (List RoutingRule)
  tools : Option Tools
  columns : Column → Json
  roleConfigs : List RoleConfigNestedWrite
  callbackConfigs : List CallbackConfigNestedWrite

/-- `Campaign(**_campaign_base_fields(payload))`. -/
def CampaignNestedCreate.row (payload : CampaignNestedCreate) (id : Int) : Campaign :=
  ⟨id, payload.routingRules, payload.tools, payload.columns⟩

/-- `create_campaign` after its validations. -/
def storeCampaign (ids : Draws) (payload : CampaignNestedCreate) :
    Handler CampaignDetailRead := do
  Prog.exec (.insertCampaign (payload.row ids.campaign))
  replaceChildren ids ids.campaign (some payload.roleConfigs) (some payload.callbackConfigs)
  loadDetail (payload.row ids.campaign)

def createCampaign (ids : Draws) (payload : CampaignNestedCreate) :
    Handler CampaignDetailRead := do
  Prog.check (validateInterruptionRules validateInterruptionRule
    (payload.columns .interruptionRules))
  validateRefereeRouting none (some payload.roleConfigs) payload.routingRules payload.tools true
  storeCampaign ids payload

/-- `CampaignNestedUpdate`: `baseFields` holds the fields that were set, `null`
included, and the child lists are `None` when absent or `null`. -/
structure CampaignNestedUpdate where
  baseFields : CampaignSet
  roleConfigs : Option (List RoleConfigNestedWrite)
  callbackConfigs : Option (List CallbackConfigNestedWrite)

/-- Flush of a loaded campaign with assigned columns. -/
def flushCampaign (campaign : Campaign) (set : CampaignSet) : Handler Unit :=
  let changes := set.against campaign
  if changes.isEmpty then pure () else Prog.exec (.updateCampaign campaign.id changes)

/-- `update_campaign` after its validations. -/
def patchCampaign (ids : Draws) (campaign : Campaign) (payload : CampaignNestedUpdate) :
    Handler CampaignDetailRead := do
  flushCampaign campaign payload.baseFields
  replaceChildren ids campaign.id payload.roleConfigs payload.callbackConfigs
  loadDetail (payload.baseFields.applyTo campaign)

/-- The validations of `update_campaign`. -/
def validatePatch (campaign : Campaign) (payload : CampaignNestedUpdate) : Handler Unit := do
  Prog.check (validateInterruptionRules validateInterruptionRule
    ((payload.baseFields.columns.lookup .interruptionRules).getD Json.null))
  validateRefereeRouting (some campaign) payload.roleConfigs
    payload.baseFields.routingRules.join payload.baseFields.tools.join
    payload.baseFields.tools.isSome

def updateCampaign (ids : Draws) (id : Int) (payload : CampaignNestedUpdate) :
    Handler CampaignDetailRead :=
  (getOr404 (Database.campaign id) "campaign_not_found").bind fun campaign => do
    validatePatch validateInterruptionRule campaign payload
    patchCampaign ids campaign payload

def deleteCampaign (id : Int) : Handler Unit :=
  (getOr404 (Database.campaign id) "campaign_not_found").bind fun _ =>
    Prog.exec (.deleteCampaign id)

/-- `RoutingRulesReplace`. -/
structure RoutingRulesReplace where
  routingRules : List RoutingRule
  maxContinuousRestructure : Option Nat

/-- What `replace_routing_rules` assigns. -/
def RoutingRulesReplace.set (payload : RoutingRulesReplace) : CampaignSet where
  routingRules := some (some payload.routingRules)
  tools := none
  columns := payload.maxContinuousRestructure.toList.map fun m =>
    (.maxContinuousRestructure, Json.ofNat m)

structure RoutingRulesRead where
  routingRules : List RoutingRule
  maxContinuousRestructure : Json

def replaceRoutingRules (id : Int) (payload : RoutingRulesReplace) : Handler RoutingRulesRead :=
  (getOr404 (Database.campaign id) "campaign_not_found").bind fun campaign => do
    let existing ← Prog.select (Database.rolesOf id)
    Prog.check (validateRoutingRules (refereeLabelsOf existing) (personaLabelsOf existing)
      campaign.toolAliases payload.routingRules)
    flushCampaign campaign payload.set
    let row := payload.set.applyTo campaign
    pure ⟨row.rules, row.columns .maxContinuousRestructure⟩

end Campaigns

/-! ## Requests -/

inductive Request where
  | createCampaign (ids : Draws) (payload : CampaignNestedCreate)
  | updateCampaign (ids : Draws) (id : Int) (payload : CampaignNestedUpdate)
  | replaceRoutingRules (id : Int) (payload : RoutingRulesReplace)
  | deleteCampaign (id : Int)
  | createRoleConfig (id : Int) (payload : RoleConfigCreate)
  | updateRoleConfig (id : Int) (payload : RoleConfigUpdate)
  | deleteRoleConfig (id : Int)

inductive Answer where
  | campaign (detail : CampaignDetailRead)
  | rules (read : RoutingRulesRead)
  | role (row : RoleConfig)
  | noContent

def Answer.of {α : Type} (answer : α → Answer) (h : Handler α) : Handler Answer :=
  h.bind fun a => .done (answer a)

theorem run_answer {α : Type} {answer : α → Answer} {h : Handler α} {db : Database}
    {r : Answer × Database} :
    (Answer.of answer h).run db = .ok r ↔ ∃ a, h.run db = .ok (a, r.2) ∧ r.1 = answer a :=
  Prog.run_map_ok

def Request.handler (validateInterruptionRule : Json → Option String) : Request → Handler Answer
  | .createCampaign ids payload =>
    Answer.of .campaign (Config.createCampaign validateInterruptionRule ids payload)
  | .updateCampaign ids id payload =>
    Answer.of .campaign (Config.updateCampaign validateInterruptionRule ids id payload)
  | .replaceRoutingRules id payload => Answer.of .rules (Config.replaceRoutingRules id payload)
  | .deleteCampaign id => Answer.of (fun _ => .noContent) (Config.deleteCampaign id)
  | .createRoleConfig id payload => Answer.of .role (Config.createRoleConfig id payload)
  | .updateRoleConfig id payload => Answer.of .role (Config.updateRoleConfig id payload)
  | .deleteRoleConfig id => Answer.of (fun _ => .noContent) (Config.deleteRoleConfig id)

/-- One request, alone: the answer and the database it leaves. -/
def respond (validateInterruptionRule : Json → Option String) (db : Database) (r : Request) :
    Except HttpException Answer × Database :=
  (r.handler validateInterruptionRule).session db

/-- Requests executed one after the other. -/
def serve (validateInterruptionRule : Json → Option String) (db : Database) (r : Request) :
    Option Database :=
  some (respond validateInterruptionRule db r).2

end IsalesApi.Config
