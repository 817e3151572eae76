import IsalesApi.Config.Labels

/-!
# What a campaign patch is checked against

`_validate_referee_routing` is to check the configuration the patch will leave:
each of role rows, rules and tools from the payload where the payload has it,
and from the database otherwise. Here that configuration is built from the
payload alone (`merged`), with what it takes to be valid, and compared with
what the check accepts. The two differ for `routing_rules: null`, which the
check takes for an absent field.
-/

namespace IsalesApi.Config

open Foundation

/-! ## Configurations -/

/-- Kind and label: what the validators read of a role row. -/
abbrev RoleLabel := RoleKind × Option String

instance : Labelled RoleLabel := ⟨Prod.fst, Prod.snd⟩

def roleLabel {α : Type} [Labelled α] (rc : α) : RoleLabel := (kind rc, label rc)

/-- What the cross-validation of a campaign is about. -/
structure Configuration where
  roles : List RoleLabel
  rules : List RoutingRule
  toolAliases : List String

/-- What an action names exists. -/
def Configuration.Names (c : Configuration) : RuleAction → Prop
  | .route target _ => (RoleKind.persona, some target) ∈ c.roles ∨ target ∈ builtinRoutes
  | .tool name _ => name ∈ c.toolAliases
  | .other _ => True

/-- All that the rules name exists. -/
def Configuration.Binds (c : Configuration) (rules : List RoutingRule) : Prop :=
  ∀ rule ∈ rules, (RoleKind.referee, some rule.referee) ∈ c.roles ∧ c.Names rule.action

/-- Every referee and persona row has a label that is not blank and unique in
its kind, and every rule names an existing referee, target and tool. -/
structure Configuration.Valid (c : Configuration) : Prop where
  labels : Disciplined c.roles
  rules : c.Binds c.rules

/-- The configuration as it is stored. -/
def stored (campaign : Campaign) (existing : List RoleConfig) : Configuration where
  roles := existing.map roleLabel
  rules := campaign.rules
  toolAliases := campaign.toolAliases

/-- The configuration a patch is to leave. An explicit `null` clears rules and
tools; role rows stay as they are unless the payload has a list. -/
def merged (campaign : Campaign) (existing : List RoleConfig) (payload : CampaignNestedUpdate) :
    Configuration where
  roles :=
    match payload.roleConfigs with
    | some rcs => rcs.map roleLabel
    | none => (stored campaign existing).roles
  rules :=
    match payload.baseFields.routingRules with
    | some rules => rules.getD []
    | none => (stored campaign existing).rules
  toolAliases :=
    match payload.baseFields.tools with
    | some tools => (tools.getD []).map Prod.fst
    | none => (stored campaign existing).toolAliases

section RoleLabels

variable {α : Type} [Labelled α] {rows : List α}

theorem labelsOf_roleLabel (k : RoleKind) : labelsOf k (rows.map roleLabel) = labelsOf k rows := by
  simp only [labelsOf, List.filterMap_map]
  rfl

theorem disciplined_roleLabel : Disciplined (rows.map roleLabel) ↔ Disciplined rows := by
  constructor
  · rintro ⟨hblank, hdistinct⟩
    exact ⟨List.forall_mem_map.mp hblank, List.pairwise_map.mp hdistinct⟩
  · rintro ⟨hblank, hdistinct⟩
    exact ⟨List.forall_mem_map.mpr hblank, List.pairwise_map.mpr hdistinct⟩

end RoleLabels

/-- Where no label is blank, the label sets hold all labels. -/
theorem mem_labelsOf_disciplined {roles : List RoleLabel} (h : Disciplined roles) {k : RoleKind}
    (hk : k.labelled = true) {l : String} : l ∈ labelsOf k roles ↔ (k, some l) ∈ roles := by
  rw [mem_labelsOf]
  constructor
  · rintro ⟨_, ⟨k', l'⟩, hrow, rfl, hl⟩
    obtain rfl : l' = some l := hl
    exact hrow
  · intro hrow
    have hblank := h.notBlank (k, some l) hrow hk
    exact ⟨ne_empty_of_not_blank hblank, (k, some l), hrow, rfl, rfl⟩

/-- On disciplined rows `validate_routing_rules` accepts the rules that are
bound. -/
theorem validateRoutingRules_binds {c : Configuration} (h : Disciplined c.roles)
    {rules : List RoutingRule} :
    validateRoutingRules (labelsOf .referee c.roles) (labelsOf .persona c.roles) c.toolAliases
      rules = .ok () ↔ c.Binds rules := by
  rw [validateRoutingRules_ok]
  refine forall₂_congr fun rule _ => and_congr ?_ ?_
  · exact mem_labelsOf_disciplined h (k := .referee) rfl
  · cases hact : rule.action with
    | route target rest =>
      have hmem := mem_labelsOf_disciplined h (k := .persona) rfl (l := target)
      show target ∈ _ ∨ _ ↔ _ ∈ _ ∨ _
      rw [hmem]
    | tool name rest => exact Iff.rfl
    | other body => exact Iff.rfl

/-! ## What the check accepts -/

variable {db : Database} {campaign : Campaign} {payload : CampaignNestedUpdate}

/-- The routing cross-validation of `update_campaign` accepts the payload. -/
def AcceptsPatch (db : Database) (campaign : Campaign) (payload : CampaignNestedUpdate) : Prop :=
  (validateRefereeRouting (some campaign) payload.roleConfigs payload.baseFields.routingRules.join
    payload.baseFields.tools.join payload.baseFields.tools.isSome).run db = .ok ((), db)

theorem run_finalLabels_of_valid {roleConfigs : Option (List RoleConfigNestedWrite)}
    (h : ∀ rcs, roleConfigs = some rcs → validateRoleLabels rcs = .ok ()) :
    (finalLabels (some campaign) roleConfigs).run db =
      .ok ((labelsAfter .referee roleConfigs (db.rolesOf campaign.id),
        labelsAfter .persona roleConfigs (db.rolesOf campaign.id)), db) := by
  cases roleConfigs with
  | none => rfl
  | some rcs =>
    have hcheck : (Prog.check (validateRoleLabels rcs) : Handler Unit).run db = .ok ((), db) :=
      Prog.run_check_ok.mpr ⟨h rcs rfl, rfl⟩
    exact Prog.run_bind_ok.mpr ⟨(), db, hcheck, rfl⟩

/-- The check accepts exactly what passes both validators. -/
theorem acceptsPatch_iff_valid :
    AcceptsPatch db campaign payload ↔ PatchValid db campaign payload := by
  constructor
  · intro h
    exact (run_validateRefereeRouting h).1
  · intro h
    exact Prog.run_bind_ok.mpr ⟨_, db, run_finalLabels_of_valid h.labels,
      Prog.run_check_ok.mpr ⟨h.rules, rfl⟩⟩

/-- The rules the check looks at: those of the payload, or else the stored
ones, `null` taken for absent. -/
def checkedRules (campaign : Campaign) (payload : CampaignNestedUpdate) : List RoutingRule :=
  payload.baseFields.routingRules.join.getD campaign.rules

theorem labelsAfter_merged (campaign : Campaign) (existing : List RoleConfig) (k : RoleKind) :
    labelsAfter k payload.roleConfigs existing =
      labelsOf k (merged campaign existing payload).roles := by
  unfold merged stored labelsAfter
  cases payload.roleConfigs with
  | none => exact (labelsOf_roleLabel k).symm
  | some rcs => exact (labelsOf_roleLabel k).symm

theorem toolAliases_merged (campaign : Campaign) (payload : CampaignNestedUpdate)
    (existing : List RoleConfig) :
    (if payload.baseFields.tools.isSome then (payload.baseFields.tools.join.getD []).map Prod.fst
      else campaign.toolAliases) = (merged campaign existing payload).toolAliases := by
  unfold merged stored
  cases payload.baseFields.tools <;> rfl

/-- The labels of the merged rows are valid when those of the payload are: the
stored ones are known to be. -/
theorem disciplined_merged (campaign : Campaign) (payload : CampaignNestedUpdate)
    {existing : List RoleConfig} (hstored : Disciplined existing) :
    Disciplined (merged campaign existing payload).roles ↔
      ∀ rcs, payload.roleConfigs = some rcs → validateRoleLabels rcs = .ok () := by
  unfold merged stored
  cases payload.roleConfigs with
  | none => exact iff_of_true (disciplined_roleLabel.mpr hstored) (by simp)
  | some rcs =>
    rw [disciplined_roleLabel, ← validateRoleLabels_ok]
    constructor
    · rintro h _ ⟨⟩
      exact h
    · intro h
      exact h rcs rfl

/-- What the check accepts, in terms of the merged configuration. -/
theorem acceptsPatch_iff (hlabels : Disciplined (db.rolesOf campaign.id)) :
    AcceptsPatch db campaign payload ↔
      Disciplined (merged campaign (db.rolesOf campaign.id) payload).roles ∧
        (merged campaign (db.rolesOf campaign.id) payload).Binds
          (checkedRules campaign payload) := by
  have hroles := disciplined_merged campaign payload hlabels
  have haliases := toolAliases_merged campaign payload (db.rolesOf campaign.id)
  rw [acceptsPatch_iff_valid]
  constructor
  · intro h
    have hdisciplined := hroles.mpr h.labels
    refine ⟨hdisciplined, (validateRoutingRules_binds hdisciplined).mp ?_⟩
    have hvalid := h.rules
    simp only [Option.map_some, Option.getD_some, labelsAfter_merged campaign,
      haliases] at hvalid
    exact hvalid
  · rintro ⟨hdisciplined, hbinds⟩
    refine ⟨hroles.mp hdisciplined, ?_⟩
    have hvalid := (validateRoutingRules_binds hdisciplined).mpr hbinds
    simp only [Option.map_some, Option.getD_some, labelsAfter_merged campaign,
      haliases]
    exact hvalid

/-- Unless `routing_rules` is an explicit `null`, the check looks at the rules
of the merged configuration. -/
theorem checkedRules_eq (campaign : Campaign) (existing : List RoleConfig)
    (h : payload.baseFields.routingRules ≠ some none) :
    checkedRules campaign payload = (merged campaign existing payload).rules := by
  unfold checkedRules merged stored
  rcases hrules : payload.baseFields.routingRules with _ | _ | rules
  · rfl
  · exact absurd hrules h
  · rfl

/-! ## A campaign with one rule -/

/-- Campaign 1 has one rule, which names the referee `main_judge`. -/
def ruledCampaign : Campaign :=
  ⟨1, some [⟨"main_judge", .route "closing" ⟨"{}"⟩, ⟨"{}"⟩⟩], none, fun _ => Json.null⟩

def ruledDatabase : Database where
  schema := ⟨fun _ => true, fun _ => true, fun _ => true⟩
  campaigns := ⟨[ruledCampaign], List.nodup_singleton _⟩
  roles := ⟨[⟨⟨.referee, some "main_judge", "m", none, 7/10, 1, ⟨"{}"⟩, true⟩, 1, 1⟩],
    List.nodup_singleton _⟩
  callbacks := .empty

theorem ruled_stored_valid : (stored ruledCampaign (ruledDatabase.rolesOf 1)).Valid := by
  have hlabels : Disciplined (stored ruledCampaign (ruledDatabase.rolesOf 1)).roles :=
    validateRoleLabels_ok.mp rfl
  exact ⟨hlabels, (validateRoutingRules_binds hlabels).mp rfl⟩

/-- A patch that brings no role row, with the given `routing_rules`. -/
def withoutRoles (rules : Option (Option (List RoutingRule))) : CampaignNestedUpdate where
  baseFields := ⟨rules, none, []⟩
  roleConfigs := some []
  callbackConfigs := none

/-- **The final state is what is checked**, for a stored campaign whose own
configuration is valid, unless `routing_rules` is an explicit `null` and the
stored rules, which the patch clears, do not fit the role rows and tools it
brings. -/
theorem acceptsPatch_iff_merged_valid
    (hstored : (stored campaign (db.rolesOf campaign.id)).Valid) :
    (AcceptsPatch db campaign payload ↔
        (merged campaign (db.rolesOf campaign.id) payload).Valid) ↔
      (payload.baseFields.routingRules = some none →
        Disciplined (merged campaign (db.rolesOf campaign.id) payload).roles →
          (merged campaign (db.rolesOf campaign.id) payload).Binds campaign.rules) := by
  have hlabels : Disciplined (db.rolesOf campaign.id) := disciplined_roleLabel.mp hstored.labels
  rw [acceptsPatch_iff hlabels]
  by_cases hnull : payload.baseFields.routingRules = some none
  · have hchecked : checkedRules campaign payload = campaign.rules := by
      unfold checkedRules
      rw [hnull]
      rfl
    have hcleared : (merged campaign (db.rolesOf campaign.id) payload).rules = [] := by
      unfold merged
      rw [hnull]
      rfl
    have hvalid : (merged campaign (db.rolesOf campaign.id) payload).Valid ↔
        Disciplined (merged campaign (db.rolesOf campaign.id) payload).roles := by
      constructor
      · exact Configuration.Valid.labels
      · intro h
        exact ⟨h, by rw [hcleared]; exact fun _ hrule => absurd hrule List.not_mem_nil⟩
    rw [hchecked, hvalid]
    constructor
    · intro h _ hdisciplined
      exact (h.mpr hdisciplined).2
    · intro h
      exact ⟨And.left, fun hdisciplined => ⟨hdisciplined, h hnull hdisciplined⟩⟩
  · have hrules := checkedRules_eq campaign (db.rolesOf campaign.id) hnull
    rw [hrules]
    refine iff_of_true ⟨?_, ?_⟩ fun h => absurd h hnull
    · rintro ⟨hdisciplined, hbinds⟩
      exact ⟨hdisciplined, hbinds⟩
    · rintro ⟨hdisciplined, hbinds⟩
      exact ⟨hdisciplined, hbinds⟩

/-- `{"role_configs": []}`. -/
theorem acceptsPatch_iff_merged_valid_withoutRoles :
    AcceptsPatch ruledDatabase ruledCampaign (withoutRoles none) ↔
      (merged ruledCampaign (ruledDatabase.rolesOf 1) (withoutRoles none)).Valid :=
  (acceptsPatch_iff_merged_valid ruled_stored_valid).mpr fun h => by cases h

/-- `{"routing_rules": null, "role_configs": []}` leaves no rule and no row,
which is valid. It is rejected: the rule it clears is checked against the rows
it brings. -/
theorem cleared_rules_are_checked :
    ruledDatabase.campaign 1 = some ruledCampaign ∧
      (stored ruledCampaign (ruledDatabase.rolesOf 1)).Valid ∧
      (merged ruledCampaign (ruledDatabase.rolesOf 1) (withoutRoles (some none))).Valid ∧
      ¬ AcceptsPatch ruledDatabase ruledCampaign (withoutRoles (some none)) ∧
      respond (fun _ => none) ruledDatabase
          (.updateCampaign ⟨2, fun _ => 2, fun _ => 2⟩ 1 (withoutRoles (some none))) =
        (.error (unknownReferee "main_judge"), ruledDatabase) := by
  have hmerged : Disciplined (merged ruledCampaign (ruledDatabase.rolesOf 1)
      (withoutRoles (some none))).roles := validateRoleLabels_ok.mp rfl
  refine ⟨rfl, ruled_stored_valid, ⟨hmerged, ?_⟩, ?_, rfl⟩
  · exact (validateRoutingRules_binds hmerged).mp rfl
  · intro h
    cases h

end IsalesApi.Config
