import IsalesApi.Config.Labels

/-!
# References of the routing rules over whole runs

A stored campaign is `Bound` when all that its rules name exists. What it needs
of its role rows is a set of labels (`Campaign.Needs`), so a request keeps the
campaign bound when no needed label is lost. Every request does, the removal of
a row by its guard, but one: `update_role_config` checks the new label of a row
and not whether a rule uses the old one. The run theorem says exactly when this
happens.
-/

namespace IsalesApi.Config

open Foundation

/-- Some row of the kind has the label. -/
def Carries (k : RoleKind) (roles : List RoleConfig) (l : String) : Prop :=
  ∃ r ∈ roles, r.kind = k ∧ r.label = some l

/-- What an action names exists. -/
def RuleAction.Bound (roles : List RoleConfig) (toolAliases : List String) : RuleAction → Prop
  | .route target _ => Carries .persona roles target ∨ target ∈ builtinRoutes
  | .tool name _ => name ∈ toolAliases
  | .other _ => True

/-- All that the rules of a campaign with these role rows name exists. -/
def Campaign.Bound (c : Campaign) (roles : List RoleConfig) : Prop :=
  ∀ rule ∈ c.rules, Carries .referee roles rule.referee ∧ rule.action.Bound roles c.toolAliases

/-- No campaign has a dangling reference. -/
def Closed (db : Database) : Prop :=
  ∀ id c, db.campaign id = some c → c.Bound (db.rolesOf id)

/-! ## Needed labels -/

/-- A rule of the campaign is lost without a row of this kind and label. -/
def Campaign.Needs (c : Campaign) (k : RoleKind) (l : String) : Prop :=
  (k = .referee ∧ ∃ rule ∈ c.rules, rule.referee = l) ∨
    (k = .persona ∧ l ∉ builtinRoutes ∧ ∃ rule ∈ c.rules, rule.action.routesTo l = true)

def Campaign.ToolsBound (c : Campaign) : Prop :=
  ∀ rule ∈ c.rules, ∀ name rest, rule.action = .tool name rest → name ∈ c.toolAliases

theorem bound_iff {c : Campaign} {roles : List RoleConfig} :
    c.Bound roles ↔ (∀ k l, c.Needs k l → Carries k roles l) ∧ c.ToolsBound := by
  constructor
  · intro h
    refine ⟨?_, fun rule hrule name rest haction => ?_⟩
    · rintro k l (⟨rfl, rule, hrule, rfl⟩ | ⟨rfl, hl, rule, hrule, hroute⟩)
      · exact (h rule hrule).1
      · have hbound := (h rule hrule).2
        cases haction : rule.action with
        | route target rest =>
          rw [haction] at hroute hbound
          obtain rfl : target = l := by simpa [RuleAction.routesTo] using hroute
          exact hbound.resolve_right hl
        | tool name rest => simp [haction, RuleAction.routesTo] at hroute
        | other body => simp [haction, RuleAction.routesTo] at hroute
    · have hbound := (h rule hrule).2
      rw [haction] at hbound
      exact hbound
  · rintro ⟨hneeds, htools⟩ rule hrule
    refine ⟨hneeds .referee _ (Or.inl ⟨rfl, rule, hrule, rfl⟩), ?_⟩
    cases haction : rule.action with
    | route target rest =>
      by_cases hbuiltin : target ∈ builtinRoutes
      · exact Or.inr hbuiltin
      · refine Or.inl (hneeds .persona target (Or.inr ⟨rfl, hbuiltin, rule, hrule, ?_⟩))
        simp [haction, RuleAction.routesTo]
    | tool name rest => exact htools rule hrule name rest haction
    | other body => trivial

/-- A campaign stays bound when its needed labels do not get lost. -/
theorem Campaign.Bound.mono {c : Campaign} {roles roles' : List RoleConfig} (h : c.Bound roles)
    (hkeep : ∀ k l, c.Needs k l → Carries k roles l → Carries k roles' l) : c.Bound roles' := by
  obtain ⟨hneeds, htools⟩ := bound_iff.mp h
  exact bound_iff.mpr ⟨fun k l hneed => hkeep k l hneed (hneeds k l hneed), htools⟩

theorem Campaign.Needs.labelled {c : Campaign} {k : RoleKind} {l : String} (h : c.Needs k l) :
    k.labelled = true := by
  rcases h with ⟨rfl, _⟩ | ⟨rfl, _⟩ <;> rfl

/-- The guard of `delete_role_config` refuses every needed label. -/
theorem not_needs_of_unused {c : Campaign} {k : RoleKind} {l : String}
    (h : labelInUse k l c = none) : ¬ c.Needs k l := by
  unfold labelInUse at h
  rintro (⟨rfl, rule, hrule, rfl⟩ | ⟨rfl, _, rule, hrule, hroute⟩)
  · rw [if_pos ⟨rfl, List.mem_map.mpr ⟨rule, hrule, rfl⟩⟩] at h
    cases h
  · rw [if_neg (by simp), if_pos ⟨rfl, List.any_eq_true.mpr ⟨rule, hrule, hroute⟩⟩] at h
    cases h

theorem Campaign.Bound.insert {c : Campaign} {roles : List RoleConfig} (h : c.Bound roles)
    (row : RoleConfig) : c.Bound (roles ++ [row]) := by
  refine h.mono ?_
  rintro k l _ ⟨r, hr, hk, hl⟩
  exact ⟨r, List.mem_append_left _ hr, hk, hl⟩

/-- A row can be taken away when no rule needs its label, and only then: no
other row has it. -/
theorem bound_delete_iff {c : Campaign} {roles : List RoleConfig} {obj : RoleConfig}
    (hroles : Disciplined roles) (hobj : obj ∈ roles) (hkey : ∀ r ∈ roles, r.id = obj.id → r = obj)
    (h : c.Bound roles) :
    c.Bound (roles.filter fun r => r.id ≠ obj.id) ↔
      ∀ l, obj.label = some l → ¬ c.Needs obj.kind l := by
  constructor
  · intro hbound l hl hneeds
    obtain ⟨r, hr, hk, hrl⟩ := (bound_iff.mp hbound).1 _ _ hneeds
    obtain ⟨hr, hid⟩ := List.mem_filter.mp hr
    have hsame : r = obj := hroles.eq_of_label hr hobj
      (show r.kind.labelled = true by rw [hk]; exact hneeds.labelled) hk (hrl.trans hl.symm)
    simp [hsame] at hid
  · intro hfree
    refine h.mono ?_
    rintro k l hneeds ⟨r, hr, rfl, hl⟩
    refine ⟨r, List.mem_filter.mpr ⟨hr, ?_⟩, rfl, hl⟩
    simp only [ne_eq, decide_not, Bool.not_eq_true', decide_eq_false_iff_not]
    intro hid
    obtain rfl := hkey r hr hid
    exact hfree l hl hneeds

/-! ## Validated rules are bound -/

theorem carries_of_mem_labelsOf {k : RoleKind} {roles : List RoleConfig} {l : String}
    (h : l ∈ labelsOf k roles) : Carries k roles l := by
  obtain ⟨_, r, hr, hk, hl⟩ := mem_labelsOf.mp h
  exact ⟨r, hr, hk, hl⟩

theorem bound_of_valid {c : Campaign} {roles : List RoleConfig} {rules : List RoutingRule}
    (hsub : ∀ rule ∈ c.rules, rule ∈ rules)
    (h : validateRoutingRules (labelsOf .referee roles) (labelsOf .persona roles)
      c.toolAliases rules = .ok ()) : c.Bound roles := by
  intro rule hrule
  obtain ⟨href, haction⟩ := validateRoutingRules_ok.mp h rule (hsub rule hrule)
  refine ⟨carries_of_mem_labelsOf href, ?_⟩
  cases hrule : rule.action with
  | route target rest =>
    rw [hrule] at haction
    exact haction.imp_left carries_of_mem_labelsOf
  | tool name rest =>
    rw [hrule] at haction
    exact haction
  | other body => trivial

/-- Where no label is blank, the validator accepts just the bound rules. -/
theorem valid_of_bound {c : Campaign} {roles : List RoleConfig} (hroles : Disciplined roles)
    (h : c.Bound roles) :
    validateRoutingRules (labelsOf .referee roles) (labelsOf .persona roles)
      c.toolAliases c.rules = .ok () := by
  have hmem : ∀ k l, k.labelled = true → Carries k roles l → l ∈ labelsOf k roles := by
    rintro k l hk ⟨r, hr, rfl, hl⟩
    have hblank := hroles.notBlank r hr hk
    rw [show label r = some l from hl] at hblank
    exact mem_labelsOf.mpr ⟨ne_empty_of_not_blank hblank, r, hr, rfl, hl⟩
  refine validateRoutingRules_ok.mpr fun rule hrule => ?_
  obtain ⟨href, haction⟩ := h rule hrule
  refine ⟨hmem .referee _ rfl href, ?_⟩
  cases hrule : rule.action with
  | route target rest =>
    rw [hrule] at haction
    exact haction.imp_left (hmem .persona target rfl)
  | tool name rest =>
    rw [hrule] at haction
    exact haction
  | other body => trivial

/-! ## Steps -/

section Steps

variable {db db' : Database}

/-- A change of one campaign keeps the database closed when that campaign is
bound afterwards. -/
theorem Edits.closed {c : Int} {campaign : Option Campaign} {roles : List RoleConfig}
    (h : Edits c campaign roles db db') (hdb : Closed db)
    (hbound : ∀ row, campaign = some row → row.Bound roles) : Closed db' := by
  intro id row hrow
  by_cases hid : id = c
  · subst hid
    rw [h.roles_self]
    exact hbound row (h.campaign_self.symm.trans hrow)
  · rw [h.roles_other id hid]
    exact hdb id row ((h.campaign_other id hid).symm.trans hrow)

theorem Closed.insertRole {row : RoleConfig} (hdb : Closed db)
    (h : db.apply (.insertRole row) = some db') : Closed db' :=
  (edits_insertRole h).closed hdb fun c hc => (hdb _ c hc).insert row

/-- The guard speaks of a campaign's rules as they are stored. -/
theorem Unused.not_needs {obj : RoleConfig} {c : Campaign} (h : Unused obj db)
    (hc : db.campaign obj.campaignId = some c)
    (hblank : obj.kind.labelled = true → blank obj.label = false) :
    ∀ l, obj.label = some l → ¬ c.Needs obj.kind l := by
  intro l hl hneeds
  have hnot := hblank hneeds.labelled
  rw [hl] at hnot
  exact not_needs_of_unused (h l hl (ne_empty_of_not_blank hnot) c hc) hneeds

theorem bound_of_unused {obj : RoleConfig} {c : Campaign}
    (hroles : Disciplined (db.rolesOf obj.campaignId)) (hobj : obj ∈ db.roles)
    (hunused : Unused obj db) (hc : db.campaign obj.campaignId = some c)
    (h : c.Bound (db.rolesOf obj.campaignId)) :
    c.Bound ((db.rolesOf obj.campaignId).filter fun r => r.id ≠ obj.id) := by
  have hmem : obj ∈ db.rolesOf obj.campaignId := Database.mem_rolesOf.mpr ⟨hobj, rfl⟩
  have hkey : ∀ r ∈ db.rolesOf obj.campaignId, r.id = obj.id → r = obj :=
    fun r hr hid => Table.eq_of_key_eq (Database.mem_rolesOf.mp hr).1 hobj hid
  exact (bound_delete_iff hroles hmem hkey h).mpr
    (hunused.not_needs hc (hroles.notBlank obj hmem))

theorem Closed.deleteRole {obj : RoleConfig} (hdb : Closed db) (hlabels : Labels db)
    (hobj : obj ∈ db.roles) (hunused : Unused obj db)
    (h : db.apply (.deleteRole obj.id) = some db') : Closed db' :=
  (edits_deleteRole hobj h).closed hdb fun c hc =>
    bound_of_unused (labels_iff.mp hlabels _) hobj hunused hc (hdb _ c hc)

theorem Closed.storeCampaign {ids : Draws} {payload : CampaignNestedCreate}
    {d : CampaignDetailRead} (hdb : Closed db)
    (hvalid : RoutingValid db none (some payload.roleConfigs) payload.routingRules
      payload.tools true)
    (h : (Config.storeCampaign ids payload).run db = .ok (d, db')) : Closed db' := by
  refine (edits_storeCampaign h).closed hdb ?_
  rintro _ ⟨⟩
  have hrules := hvalid.rules
  simp only [labelsAfter, ← @labelsOf_newRoles ids ids.campaign] at hrules
  exact bound_of_valid (fun _ hrule => hrule) hrules

theorem bound_rolesAfter {ids : Draws} {campaign : Campaign} {payload : CampaignNestedUpdate}
    (hvalid : PatchValid db campaign payload) :
    (payload.baseFields.applyTo campaign).Bound
      (rolesAfter ids campaign.id payload.roleConfigs (db.rolesOf campaign.id)) := by
  have hrules := hvalid.rules
  simp only [Option.map_some, Option.getD_some,
    ← @labelsOf_rolesAfter ids campaign.id payload.roleConfigs] at hrules
  have htools : (if payload.baseFields.tools.isSome = true then
      (payload.baseFields.tools.join.getD []).map Prod.fst else campaign.toolAliases) =
        (payload.baseFields.applyTo campaign).toolAliases := by
    unfold Campaign.toolAliases CampaignSet.applyTo
    cases payload.baseFields.tools <;> rfl
  rw [htools] at hrules
  refine bound_of_valid ?_ hrules
  unfold Campaign.rules CampaignSet.applyTo
  -- `routing_rules: null` clears the rules after the stored ones were validated
  rcases payload.baseFields.routingRules with _ | _ | rules
  · exact fun _ hrule => hrule
  · exact fun _ hrule => absurd hrule List.not_mem_nil
  · exact fun _ hrule => hrule

theorem Closed.patchCampaign {ids : Draws} {campaign : Campaign} {payload : CampaignNestedUpdate}
    {d : CampaignDetailRead} (hdb : Closed db)
    (hrow : db.campaign campaign.id = some campaign) (hvalid : PatchValid db campaign payload)
    (h : (Config.patchCampaign ids campaign payload).run db = .ok (d, db')) : Closed db' := by
  refine (edits_patchCampaign hrow h).closed hdb ?_
  rintro _ ⟨⟩
  exact bound_rolesAfter hvalid

theorem Closed.replaceRules {campaign : Campaign} {payload : RoutingRulesReplace}
    (hdb : Closed db) (hrow : db.campaign campaign.id = some campaign)
    (hvalid : validateRoutingRules (refereeLabelsOf (db.rolesOf campaign.id))
      (personaLabelsOf (db.rolesOf campaign.id)) campaign.toolAliases payload.routingRules = .ok ())
    (h : (flushCampaign campaign payload.set).run db = .ok ((), db')) : Closed db' := by
  refine (edits_flushCampaign hrow h).closed hdb ?_
  rintro _ ⟨⟩
  exact bound_of_valid (fun _ hrule => hrule) hvalid

theorem Closed.deleteCampaign {id : Int} (hdb : Closed db)
    (h : db.apply (.deleteCampaign id) = some db') : Closed db' :=
  (edits_deleteCampaign h).closed hdb (by simp)

/-- The patch leaves a row as it is in what rules refer to. -/
def RoleConfigUpdate.Keeps (payload : RoleConfigUpdate) (obj : RoleConfig) : Prop :=
  (payload.applyTo obj).campaignId = obj.campaignId ∧
    (payload.applyTo obj).kind = obj.kind ∧ (payload.applyTo obj).label = obj.label

/-- A patched row keeps the database closed exactly when a needed label stays
where it is. -/
theorem closed_updateRole_iff {payload : RoleConfigUpdate} {obj : RoleConfig}
    (hdb : Closed db) (hlabels : Labels db) (hobj : obj ∈ db.roles)
    (h : db.apply (.updateRole obj.id payload) = some db') :
    Closed db' ↔ ∀ c l, db.campaign obj.campaignId = some c → obj.label = some l →
      c.Needs obj.kind l → payload.Keeps obj := by
  obtain ⟨hcampaigns, hrows⟩ := apply_updateRole h
  have hmem : ∀ r, r ∈ db'.roles ↔
      ∃ old ∈ db.roles, (if old.id = obj.id then payload.applyTo old else old) = r := by
    intro r
    rw [← Table.mem_rows, hrows]
    exact List.mem_map
  have hpatched : payload.applyTo obj ∈ db'.roles := (hmem _).mpr ⟨obj, hobj, if_pos rfl⟩
  constructor
  · intro hclosed c l hc hl hneeds
    obtain ⟨r, hr, hk, hrl⟩ := (bound_iff.mp
      (hclosed _ c ((campaign_congr hcampaigns _).trans hc))).1 _ _ hneeds
    obtain ⟨hr, hrc⟩ := Database.mem_rolesOf.mp hr
    obtain ⟨old, hold, heq⟩ := (hmem r).mp hr
    by_cases hid : old.id = obj.id
    · obtain rfl : old = obj := Table.eq_of_key_eq hold hobj hid
      rw [if_pos hid] at heq
      subst heq
      exact ⟨hrc, hk, hrl.trans hl.symm⟩
    · -- another row with the label: the rule on labels excludes it
      rw [if_neg hid] at heq
      subst heq
      have hsame := hlabels.distinct old hold obj hobj hrc (hk ▸ hneeds.labelled) hk
        (hrl.trans hl.symm)
      exact absurd (congrArg RoleConfig.id hsame) hid
  · intro hkeeps d c hc
    have hc : db.campaign d = some c := (campaign_congr hcampaigns d).symm.trans hc
    refine (hdb d c hc).mono ?_
    rintro k l hneeds ⟨r, hr, rfl, hl⟩
    obtain ⟨hrdb, rfl⟩ := Database.mem_rolesOf.mp hr
    by_cases hid : r.id = obj.id
    · obtain rfl : r = obj := Table.eq_of_key_eq hrdb hobj hid
      obtain ⟨hkc, hkk, hkl⟩ := hkeeps c l hc hl hneeds
      exact ⟨_, Database.mem_rolesOf.mpr ⟨hpatched, hkc⟩, hkk, hkl.trans hl⟩
    · have hr' : r ∈ db'.roles := (hmem r).mpr ⟨r, hrdb, if_neg hid⟩
      exact ⟨r, Database.mem_rolesOf.mpr ⟨hr', rfl⟩, rfl, hl⟩

end Steps

/-! ## Over whole runs -/

section Runs

variable {validateInterruptionRule : Json → Option String} {db db' : Database}

/-- A `PATCH /role-configs/{id}` that passes the label check keeps the
campaign, kind and label of a row whose label a rule needs. -/
def KeepsNeeded (db : Database) : Request → Prop
  | .updateRoleConfig id payload =>
    ∀ obj db', db.role id = some obj → payload.Passes obj db db' →
      ∀ c l, db.campaign obj.campaignId = some c → obj.label = some l →
        c.Needs obj.kind l → payload.Keeps obj
  | _ => True

theorem Labels.closed_accepted_iff {r : Request} {a : Answer} (hlabels : Labels db)
    (hdb : Closed db) (h : (r.handler validateInterruptionRule).run db = .ok (a, db')) :
    Closed db' ↔ KeepsNeeded db r := by
  cases r with
  | createCampaign ids payload =>
    obtain ⟨d, h, _⟩ := run_answer.mp h
    obtain ⟨hvalid, hstore⟩ := run_createCampaign h
    exact iff_of_true (hdb.storeCampaign hvalid hstore) trivial
  | updateCampaign ids id payload =>
    obtain ⟨d, h, _⟩ := run_answer.mp h
    obtain ⟨campaign, hrow, hvalid, hpatch⟩ := run_updateCampaign h
    exact iff_of_true (hdb.patchCampaign (campaign_id hrow) hvalid hpatch) trivial
  | replaceRoutingRules id payload =>
    obtain ⟨read, h, _⟩ := run_answer.mp h
    obtain ⟨campaign, hrow, hvalid, hflush⟩ := run_replaceRoutingRules h
    obtain ⟨_, rfl⟩ := Database.campaign_eq_some.mp hrow
    exact iff_of_true (hdb.replaceRules hrow hvalid hflush) trivial
  | deleteCampaign id =>
    obtain ⟨_, h, _⟩ := run_answer.mp h
    exact iff_of_true (hdb.deleteCampaign (run_deleteCampaign h)) trivial
  | createRoleConfig id payload =>
    obtain ⟨row, h, _⟩ := run_answer.mp h
    obtain ⟨_, hstore⟩ := run_createRoleConfig h
    exact iff_of_true (hdb.insertRole (run_storeRole hstore)) trivial
  | updateRoleConfig id payload =>
    obtain ⟨row, h, _⟩ := run_answer.mp h
    obtain ⟨obj, hobj, hpasses⟩ := run_updateRoleConfig h
    -- the one handler that does not look at the rules
    rw [closed_updateRole_iff hdb hlabels (Database.role_eq_some.mp hobj).1 hpasses.1]
    constructor
    · intro hkeeps obj' _ hobj' _
      rw [hobj] at hobj'
      cases hobj'
      exact hkeeps
    · intro hkeeps
      exact hkeeps obj db' hobj hpasses
  | deleteRoleConfig id =>
    obtain ⟨_, h, _⟩ := run_answer.mp h
    obtain ⟨obj, hobj, hunused, happly⟩ := run_deleteRoleConfig h
    obtain ⟨hstored, rfl⟩ := Database.role_eq_some.mp hobj
    exact iff_of_true (hdb.deleteRole hlabels hstored hunused happly) trivial

theorem closed_respond_iff {r : Request} (hlabels : Labels db) (hdb : Closed db) :
    Closed (respond validateInterruptionRule db r).2 ↔ KeepsNeeded db r := by
  cases hrun : (r.handler validateInterruptionRule).run db with
  | ok x =>
    rw [respond, Prog.session_ok.mpr hrun]
    exact hlabels.closed_accepted_iff hdb hrun
  | error e =>
    rw [respond, Prog.session_error.mpr ⟨hrun, rfl⟩]
    refine iff_of_true hdb ?_
    cases r with
    | updateRoleConfig id payload =>
      intro obj db' hobj hpasses
      obtain ⟨row, hok⟩ := run_updateRoleConfig_of_passes hobj hpasses
      rw [run_answer_error hrun] at hok
      cases hok
    | _ => trivial

/-- **No dangling references.** Over any sequence of requests from the empty
database, every campaign stays closed if and only if no patch of a role row
that passes the label check takes away a label that a rule needs. -/
theorem closed_iff_keepsNeeded (validateInterruptionRule : Json → Option String)
    (schema : Schema) (rs : List Request) :
    Always (serve validateInterruptionRule) Closed (Database.empty schema) rs ↔
      Along (serve validateInterruptionRule) KeepsNeeded (Database.empty schema) rs := by
  refine always_iff_along (I := Labels) ?_ ?_ (labels_empty schema) ?_
  · intro db r db' hlabels h
    cases h
    exact hlabels.respond
  · intro db r db' hlabels hdb h
    cases h
    exact closed_respond_iff hlabels hdb
  · intro id c hc
    cases hc

end Runs

/-! ## A renamed referee -/

/-- Any row is accepted. -/
def anySchema : Schema := ⟨fun _ => true, fun _ => true, fun _ => true⟩

def mainJudge : RoleConfigNestedWrite :=
  ⟨.referee, some "main_judge", "m", none, 7/10, 1, ⟨"{}"⟩, true⟩

/-- A campaign with one referee and one rule that names it. -/
def judgedCampaign : CampaignNestedCreate where
  routingRules := some [⟨"main_judge", .route "closing" ⟨"{}"⟩, ⟨"{}"⟩⟩]
  tools := none
  columns := fun _ => Json.null
  roleConfigs := [mainJudge]
  callbackConfigs := []

def relabel (l : String) : RoleConfigUpdate :=
  ⟨none, none, some (some l), none, none, none, none, none, none⟩

/-- The referee is renamed while the rule still names it. -/
def renamedReferee : List Request :=
  [.createCampaign ⟨1, fun _ => 1, fun _ => 1⟩ judgedCampaign,
    .updateRoleConfig 1 (relabel "judge")]

theorem rename_leaves_dangling :
    ¬ Always (serve fun _ => none) Closed (Database.empty anySchema) renamedReferee := by
  intro h
  have hlast : Closed _ := h.last (t := _) rfl
  obtain ⟨⟨r, hr, _, hl⟩, _⟩ := hlast 1 _ rfl _ List.mem_cons_self
  obtain rfl := List.mem_singleton.mp hr
  exact absurd hl (by decide)

end IsalesApi.Config
