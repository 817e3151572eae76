import IsalesApi.Config.Routing
import IsalesApi.Foundation.Table
import IsalesApi.Foundation.Transaction
import Mathlib.Data.Rat.Defs

/-!
# Campaigns, role rows and callbacks as stored

The three tables the campaign and role-config routers write, and the row
writes their sessions send. `routing_rules` and `tools` of a campaign are typed
because the code reads them; its other columns are kept by name.

A role or callback row needs its campaign (a foreign key, deleting in cascade).
The remaining constraints of the tables are not part of this repository; they
are the `Schema` a database carries, and a write they refuse ends the request.
-/

namespace IsalesApi.Config

open Foundation

/-- The columns of `campaign` a payload can carry besides `routing_rules` and
`tools`, as `CampaignNestedUpdate` lists them. -/
inductive Column where
  | name | voiceId | defaultReplies | concurrency | timeWindows | extractionFields
  | maxContinuousRestructure | autoRestructureOnInterrupt
  | personaFanoutCap | refereeTimeoutMs | refereeFailOpenRoute
  | maxSilenceActivations | silenceThresholdMs | silencePhrases | silenceHangupPhrase
  | asrEosSilenceMs | ambientAudio | ambientGain | fillerDelayMs
  | wrapUpMaxRounds | wrapUpMaxSeconds | wrapUpClosingPhrases | wrapUpSilenceHangupMs
  | wrapUpRefereeEnabled | greeting | fillerEnabled
  | interruptionRules | interruptionWhitelist | interruptionMinDurationMs
  | interruptionMinChars | bargeInFadeoutMs | maxContinuousInterruptions
  | continuousInterruptionStrategy
  | transferKeywordEnabled | transferKeywords | transferIntentEnabled
  | transferIntentThreshold | transferRoundEnabled | transferRoundThreshold
  | transferLlmEnabled | transferLlmPromptVersionId | transferPhrases
  | retryIntervals | retryMaxCount | followUpIntervalDays | followUpMaxCount
  | respectHolidays | fillerPhrases
deriving DecidableEq

/-- `dict[str, ToolConfig]`. -/
abbrev Tools := List (String × Json)

structure Campaign where
  id : Int
  routingRules : Option (List RoutingRule)
  tools : Option Tools
  columns : Column → Json

/-- `RoleConfigNestedWrite`: a role row without its id and its campaign. -/
structure RoleConfigNestedWrite where
  kind : RoleKind
  label : Option String
  model : String
  currentPromptVersionId : Option Int
  temperature : ℚ
  topP : ℚ
  extParams : Json
  enabled : Bool
deriving DecidableEq

structure RoleConfig extends RoleConfigNestedWrite where
  id : Int
  campaignId : Int
deriving DecidableEq

/-- `CallbackConfigNestedWrite`. -/
structure CallbackConfigNestedWrite where
  name : String
  trigger : Json
  url : String
  method : String
  headers : Json
  payloadTemplate : String
  retryPolicy : Json
  timeoutSeconds : Option Nat
  enabled : Bool
deriving DecidableEq

structure CallbackConfig extends CallbackConfigNestedWrite where
  id : Int
  campaignId : Int
deriving DecidableEq

instance : Keyed Campaign Int := ⟨Campaign.id⟩
instance : Keyed RoleConfig Int := ⟨RoleConfig.id⟩
instance : Keyed CallbackConfig Int := ⟨CallbackConfig.id⟩

instance : Labelled RoleConfigNestedWrite :=
  ⟨RoleConfigNestedWrite.kind, RoleConfigNestedWrite.label⟩
instance : Labelled RoleConfig := ⟨fun r => r.kind, fun r => r.label⟩

/-- `campaign.routing_rules or []`. -/
def Campaign.rules (c : Campaign) : List RoutingRule := c.routingRules.getD []

/-- `set((campaign.tools or {}).keys())`. -/
def Campaign.toolAliases (c : Campaign) : List String := (c.tools.getD []).map Prod.fst

/-! ## What an `UPDATE` sets -/

/-- The columns of `campaign` an `UPDATE` sets; an absent field is not set. -/
structure CampaignSet where
  routingRules : Option (Option (List RoutingRule))
  tools : Option (Option Tools)
  columns : List (Column × Json)

def CampaignSet.applyTo (set : CampaignSet) (row : Campaign) : Campaign where
  id := row.id
  routingRules := set.routingRules.getD row.routingRules
  tools := set.tools.getD row.tools
  columns := fun k => (set.columns.lookup k).getD (row.columns k)

theorem CampaignSet.key_applyTo (set : CampaignSet) (row : Campaign) :
    key (set.applyTo row) = key row := rfl

/-- The changes `setattr` leaves pending on a loaded row: a flush sends only
columns whose value differs from the loaded one. -/
def CampaignSet.against (set : CampaignSet) (row : Campaign) : CampaignSet where
  routingRules := changed set.routingRules row.routingRules
  tools := changed set.tools row.tools
  columns := set.columns.filter fun p => set.columns.lookup p.1 ≠ some (row.columns p.1)

theorem lookup_filter_key {κ α : Type} [BEq κ] [LawfulBEq κ] (p : κ → Bool) (k : κ)
    (l : List (κ × α)) :
    (l.filter fun x => p x.1).lookup k = if p k then l.lookup k else none := by
  induction l with
  | nil => simp
  | cons x l ih =>
    obtain ⟨k', v⟩ := x
    by_cases hk : k = k'
    · subst hk
      by_cases hp : p k <;> simp [hp, ih]
    · have hne : (k == k') = false := by simpa using hk
      by_cases hp : p k' <;> simp [hp, ih, List.lookup_cons, hne]

/-- Sending the changed columns only has the effect of sending all. -/
theorem CampaignSet.applyTo_against (set : CampaignSet) (row : Campaign) :
    (set.against row).applyTo row = set.applyTo row := by
  unfold CampaignSet.applyTo CampaignSet.against
  congr 1
  · exact changed_getD _ _
  · exact changed_getD _ _
  · funext k
    rw [lookup_filter_key fun k => set.columns.lookup k ≠ some (row.columns k)]
    by_cases h : set.columns.lookup k = some (row.columns k) <;> simp [h]

/-- Nothing to send. -/
def CampaignSet.isEmpty (set : CampaignSet) : Bool :=
  set.routingRules.isNone && set.tools.isNone && set.columns.isEmpty

theorem CampaignSet.applyTo_of_isEmpty {set : CampaignSet} (h : set.isEmpty = true)
    (row : Campaign) : set.applyTo row = row := by
  obtain ⟨rules, tools, columns⟩ := set
  simp only [CampaignSet.isEmpty, Bool.and_eq_true, Option.isNone_iff_eq_none,
    List.isEmpty_iff] at h
  obtain ⟨⟨rfl, rfl⟩, rfl⟩ := h
  rfl

/-- The columns of `role_config` an `UPDATE` sets. `RoleConfigUpdate` is not
part of the repository: it is taken to carry any column but the id. -/
structure RoleConfigUpdate where
  campaignId : Option Int
  kind : Option RoleKind
  label : Option (Option String)
  model : Option String
  currentPromptVersionId : Option (Option Int)
  temperature : Option ℚ
  topP : Option ℚ
  extParams : Option Json
  enabled : Option Bool

def RoleConfigUpdate.applyTo (set : RoleConfigUpdate) (row : RoleConfig) : RoleConfig where
  id := row.id
  campaignId := set.campaignId.getD row.campaignId
  kind := set.kind.getD row.kind
  label := set.label.getD row.label
  model := set.model.getD row.model
  currentPromptVersionId := set.currentPromptVersionId.getD row.currentPromptVersionId
  temperature := set.temperature.getD row.temperature
  topP := set.topP.getD row.topP
  extParams := set.extParams.getD row.extParams
  enabled := set.enabled.getD row.enabled

theorem RoleConfigUpdate.key_applyTo (set : RoleConfigUpdate) (row : RoleConfig) :
    key (set.applyTo row) = key row := rfl

/-! ## The database -/

/-- Constraints on single rows (`NOT NULL`, lengths, `CHECK`). -/
structure Schema where
  campaignOk : Campaign → Bool
  roleOk : RoleConfig → Bool
  callbackOk : CallbackConfig → Bool

structure Database where
  schema : Schema
  campaigns : Table Campaign
  roles : Table RoleConfig
  callbacks : Table CallbackConfig

def Database.empty (schema : Schema) : Database := ⟨schema, .empty, .empty, .empty⟩

/-- `session.get(Campaign, id)`. -/
def Database.campaign (id : Int) (db : Database) : Option Campaign := db.campaigns.get? id

/-- `session.get(RoleConfig, id)`. -/
def Database.role (id : Int) (db : Database) : Option RoleConfig := db.roles.get? id

/-- `select(RoleConfig).where(RoleConfig.campaign_id == c)`. -/
def Database.rolesOf (c : Int) (db : Database) : List RoleConfig :=
  db.roles.select fun r => r.campaignId = c

/-- `select(CallbackConfig).where(CallbackConfig.campaign_id == c)`. -/
def Database.callbacksOf (c : Int) (db : Database) : List CallbackConfig :=
  db.callbacks.select fun r => r.campaignId = c

theorem Database.mem_rolesOf {db : Database} {c : Int} {r : RoleConfig} :
    r ∈ db.rolesOf c ↔ r ∈ db.roles ∧ r.campaignId = c := by
  simp [Database.rolesOf]

theorem Database.campaign_eq_some {db : Database} {id : Int} {c : Campaign} :
    db.campaign id = some c ↔ c ∈ db.campaigns ∧ c.id = id := Table.get?_eq_some

theorem Database.role_eq_some {db : Database} {id : Int} {r : RoleConfig} :
    db.role id = some r ↔ r ∈ db.roles ∧ r.id = id := Table.get?_eq_some

/-- One row change. `deleteRoleOf` and `deleteCallbackOf` are what a `DELETE …
WHERE campaign_id = …` does to a row its search found: the row is deleted if it
still matches. -/
inductive Write where
  | insertCampaign (row : Campaign)
  | updateCampaign (id : Int) (set : CampaignSet)
  | deleteCampaign (id : Int)
  | insertRole (row : RoleConfig)
  | updateRole (id : Int) (set : RoleConfigUpdate)
  | deleteRole (id : Int)
  | deleteRoleOf (id campaignId : Int)
  | insertCallback (row : CallbackConfig)
  | deleteCallbackOf (id campaignId : Int)

/-- The row a write locks. -/
inductive RowKey where
  | campaign (id : Int)
  | role (id : Int)
  | callback (id : Int)
deriving DecidableEq

def Write.rowKey : Write → RowKey
  | .insertCampaign row => .campaign row.id
  | .updateCampaign id _ => .campaign id
  | .deleteCampaign id => .campaign id
  | .insertRole row => .role row.id
  | .updateRole id _ => .role id
  | .deleteRole id => .role id
  | .deleteRoleOf id _ => .role id
  | .insertCallback row => .callback row.id
  | .deleteCallbackOf id _ => .callback id

/-- The foreign key to `campaign`. -/
def Database.hasCampaign (db : Database) (c : Int) : Bool := (db.campaign c).isSome

def Database.apply (db : Database) : Write → Option Database
  | .insertCampaign row =>
    if db.schema.campaignOk row then
      (db.campaigns.insert row).map fun t => { db with campaigns := t }
    else none
  | .updateCampaign id set =>
    match db.campaign id with
    | none => none
    | some row =>
      if db.schema.campaignOk (set.applyTo row) then
        some { db with
          campaigns := db.campaigns.update (fun r => r.id = id) set.applyTo set.key_applyTo }
      else none
  | .deleteCampaign id =>
    some { db with
      campaigns := db.campaigns.delete fun r => r.id = id
      roles := db.roles.delete fun r => r.campaignId = id
      callbacks := db.callbacks.delete fun r => r.campaignId = id }
  | .insertRole row =>
    if db.hasCampaign row.campaignId && db.schema.roleOk row then
      (db.roles.insert row).map fun t => { db with roles := t }
    else none
  | .updateRole id set =>
    match db.role id with
    | none => none
    | some row =>
      if db.hasCampaign (set.applyTo row).campaignId && db.schema.roleOk (set.applyTo row) then
        some { db with roles := db.roles.update (fun r => r.id = id) set.applyTo set.key_applyTo }
      else none
  | .deleteRole id => some { db with roles := db.roles.delete fun r => r.id = id }
  | .deleteRoleOf id c =>
    some { db with roles := db.roles.delete fun r => r.id = id && r.campaignId = c }
  | .insertCallback row =>
    if db.hasCampaign row.campaignId && db.schema.callbackOk row then
      (db.callbacks.insert row).map fun t => { db with callbacks := t }
    else none
  | .deleteCallbackOf id c =>
    some { db with callbacks := db.callbacks.delete fun r => r.id = id && r.campaignId = c }

instance : Store Database Write RowKey HttpException where
  apply w db := db.apply w
  lock := Write.rowKey
  refused := internalServerError

/-! ## What each write does -/

section Writes

variable {db db' : Database}

theorem apply_insertCampaign {row : Campaign} (h : db.apply (.insertCampaign row) = some db') :
    db'.roles = db.roles ∧
      ∀ d, db'.campaign d = if d = row.id then some row else db.campaign d := by
  simp only [Database.apply] at h
  split at h
  · obtain ⟨t, ht, rfl⟩ := Option.map_eq_some_iff.mp h
    exact ⟨rfl, fun d => Table.get?_insert ht d⟩
  · cases h

theorem apply_updateCampaign {id : Int} {set : CampaignSet}
    (h : db.apply (.updateCampaign id set) = some db') :
    db'.roles = db.roles ∧ ∀ d, db'.campaign d =
      if d = id then (db.campaign d).map set.applyTo else db.campaign d := by
  simp only [Database.apply] at h
  split at h
  · cases h
  · split at h
    · cases h
      exact ⟨rfl, fun d => Table.get?_update set.key_applyTo (by simp [key]) d⟩
    · cases h

theorem apply_deleteCampaign {id : Int} (h : db.apply (.deleteCampaign id) = some db') :
    (∀ d, db'.campaign d = if d = id then none else db.campaign d) ∧
      db'.roles.rows = db.roles.rows.filter fun r => r.campaignId ≠ id := by
  cases h
  refine ⟨fun d => Table.get?_delete (by simp [key]) d, ?_⟩
  simp [Table.delete]

theorem apply_insertRole {row : RoleConfig} (h : db.apply (.insertRole row) = some db') :
    db'.campaigns = db.campaigns ∧ db'.roles.rows = db.roles.rows ++ [row] := by
  simp only [Database.apply] at h
  split at h
  · obtain ⟨t, ht, rfl⟩ := Option.map_eq_some_iff.mp h
    exact ⟨rfl, (Table.insert_eq_some.mp ht).2⟩
  · cases h

theorem apply_updateRole {id : Int} {set : RoleConfigUpdate}
    (h : db.apply (.updateRole id set) = some db') :
    db'.campaigns = db.campaigns ∧
      db'.roles.rows = db.roles.rows.map fun r => if r.id = id then set.applyTo r else r := by
  simp only [Database.apply] at h
  split at h
  · cases h
  · split at h
    · cases h
      refine ⟨rfl, ?_⟩
      simp [Table.update]
    · cases h

theorem apply_deleteRole {id : Int} (h : db.apply (.deleteRole id) = some db') :
    db'.campaigns = db.campaigns ∧
      db'.roles.rows = db.roles.rows.filter fun r => r.id ≠ id := by
  cases h
  refine ⟨rfl, ?_⟩
  simp [Table.delete]

theorem apply_deleteRoleOf {id c : Int} (h : db.apply (.deleteRoleOf id c) = some db') :
    db'.campaigns = db.campaigns ∧
      db'.roles.rows = db.roles.rows.filter fun r => ¬ (r.id = id ∧ r.campaignId = c) := by
  cases h
  refine ⟨rfl, ?_⟩
  simp [Table.delete]

/-- The writes of callback rows. -/
def Write.isCallback : Write → Bool
  | .insertCallback _ | .deleteCallbackOf _ _ => true
  | _ => false

/-- Callback writes leave campaigns and roles alone. -/
theorem apply_callback {w : Write} (h : db.apply w = some db') (hw : w.isCallback = true) :
    db'.campaigns = db.campaigns ∧ db'.roles = db.roles := by
  cases w with
  | insertCallback row =>
    simp only [Database.apply] at h
    split at h
    · obtain ⟨t, _, rfl⟩ := Option.map_eq_some_iff.mp h
      exact ⟨rfl, rfl⟩
    · cases h
  | deleteCallbackOf id c =>
    cases h
    exact ⟨rfl, rfl⟩
  | _ => cases hw

end Writes

end IsalesApi.Config
