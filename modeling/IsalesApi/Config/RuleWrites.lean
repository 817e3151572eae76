import IsalesApi.Config.Merged

/-!
# Two ways to write the routing rules

`PUT /campaigns/{id}/routing-rules` stores the JSON-mode dump of each rule,
`PATCH /campaigns/{id}` the dump without unset fields. A request is given here
by its rules as objects and handed to the handlers as they dump it, so the two
store different rows; what is compared is what `get_routing_rules` validates
them back to.
-/

namespace IsalesApi.Config

open Foundation

/-! ## Rules as objects -/

/-- The pydantic model `RoutingRule` (isales-common), over its objects. -/
structure RuleModel (Rule : Type) where
  modelValidate : RoutingRule → Rule
  /-- `model_dump(mode="json")`. -/
  dumpJson : Rule → RoutingRule
  /-- As part of `model_dump(exclude_unset=True)`. -/
  dumpUnset : Rule → RoutingRule

/-- What an action names, without the rest of its dump. -/
def RuleAction.names : RuleAction → RuleAction
  | .route target _ => .route target Json.null
  | .tool name _ => .tool name Json.null
  | .other _ => .other Json.null

/-- What the code reads of a rule. -/
def RoutingRule.names (rule : RoutingRule) : String × RuleAction :=
  (rule.referee, rule.action.names)

/-- `model_validate` restores a rule from its dump in either mode, and takes the
referee and what the action names from the dump. -/
structure RuleModel.Restores {Rule : Type} (M : RuleModel Rule) : Prop where
  json : ∀ r, M.modelValidate (M.dumpJson r) = r
  unset : ∀ r, M.modelValidate (M.dumpUnset r) = r
  names : ∀ d d', M.modelValidate d = M.modelValidate d' → d.names = d'.names

variable {Rule : Type} {M : RuleModel Rule} {rules : List Rule}

theorem RuleModel.Restores.names_dump (hM : M.Restores) (rules : List Rule) :
    (rules.map M.dumpJson).map RoutingRule.names =
      (rules.map M.dumpUnset).map RoutingRule.names := by
  rw [List.map_map, List.map_map]
  apply List.map_congr_left
  intro r _
  exact hM.names _ _ ((hM.json r).trans (hM.unset r).symm)

/-- The validator looks at nothing else. -/
theorem validateRoutingRules_names {refs personas tools : List String}
    {ds ds' : List RoutingRule} (h : ds.map RoutingRule.names = ds'.map RoutingRule.names) :
    validateRoutingRules refs personas tools ds = validateRoutingRules refs personas tools ds' := by
  have haction : ∀ a a' : RuleAction, a.names = a'.names →
      validateAction personas tools a = validateAction personas tools a' := by
    intro a a' ha
    cases a <;> cases a' <;> cases ha <;> rfl
  induction ds generalizing ds' with
  | nil =>
    obtain rfl : ds' = [] := by simpa using h.symm
    rfl
  | cons d ds ih =>
    obtain ⟨d', rest', rfl, hd, hrest⟩ := List.map_eq_cons_iff.mp h.symm
    obtain ⟨href, hact⟩ := Prod.mk.injEq .. ▸ hd
    rw [validateRoutingRules, validateRoutingRules, href, haction _ _ hact, ih hrest.symm]

/-! ## The requests -/

/-- The body of the `PUT` as the handler stores it. -/
def putRules (M : RuleModel Rule) (rules : List Rule) (m : Option ℕ) : RoutingRulesReplace :=
  ⟨rules.map M.dumpJson, m⟩

/-- The same rules, and `max_continuous_restructure` when given, as a patch with
no other field. -/
def patchRules (M : RuleModel Rule) (rules : List Rule) (m : Option ℕ) : CampaignNestedUpdate where
  baseFields :=
    ⟨some (some (rules.map M.dumpUnset)), none,
      m.toList.map fun n => (.maxContinuousRestructure, Json.ofNat n)⟩
  roleConfigs := none
  callbackConfigs := none

/-- `get_routing_rules`, with the rules validated back to objects. -/
def getRoutingRules (M : RuleModel Rule) (id : Int) : Handler (List Rule × Json) :=
  (getOr404 (Database.campaign id) "campaign_not_found").bind fun campaign =>
    pure (campaign.rules.map M.modelValidate, campaign.columns .maxContinuousRestructure)

/-! ## The flush of both -/

variable {db : Database} {campaign : Campaign} {id : Int}

/-- A flush goes through when the row it leaves satisfies the constraints, and
is refused otherwise. It writes no other table. -/
theorem flushCampaign_ok {set : CampaignSet} (hrow : db.campaign campaign.id = some campaign)
    (h : db.schema.campaignOk (set.applyTo campaign) = true) :
    ∃ db', (flushCampaign campaign set).run db = .ok ((), db') ∧ db'.roles = db.roles ∧
      db'.callbacks = db.callbacks := by
  unfold flushCampaign
  by_cases hempty : (set.against campaign).isEmpty = true
  · exact ⟨db, by simp only [hempty]; rfl, rfl, rfl⟩
  · rw [← CampaignSet.applyTo_against] at h
    have happly : ∃ db', db.apply (.updateCampaign campaign.id (set.against campaign)) = some db' ∧
        db'.roles = db.roles ∧ db'.callbacks = db.callbacks := by
      simp only [Database.apply, hrow, h, if_true]
      exact ⟨_, rfl, rfl, rfl⟩
    obtain ⟨db', happly, hframe⟩ := happly
    refine ⟨db', ?_, hframe⟩
    simp only [hempty]
    exact Prog.run_exec_ok.mpr happly

theorem flushCampaign_refused {set : CampaignSet}
    (hrow : db.campaign campaign.id = some campaign) (hok : db.schema.campaignOk campaign = true)
    (h : ¬ db.schema.campaignOk (set.applyTo campaign) = true) :
    (flushCampaign campaign set).run db = .error internalServerError := by
  unfold flushCampaign
  by_cases hempty : (set.against campaign).isEmpty = true
  · -- nothing differs from the stored row, which satisfies them
    rw [← CampaignSet.applyTo_against, CampaignSet.applyTo_of_isEmpty hempty] at h
    exact absurd hok h
  · rw [← CampaignSet.applyTo_against] at h
    have happly : db.apply (.updateCampaign campaign.id (set.against campaign)) = none := by
      simp only [Database.apply, hrow, h]
      rfl
    simp only [hempty]
    show (Prog.exec (.updateCampaign campaign.id (set.against campaign)) : Handler Unit).run db = _
    unfold Prog.exec Prog.run
    have hstore : Store.apply (.updateCampaign campaign.id (set.against campaign)) db = none :=
      happly
    rw [hstore]
    rfl

/-! ## The two handlers -/

/-- The labels and tool aliases both validate against. -/
def checkRules (db : Database) (campaign : Campaign) (rules : List RoutingRule) :
    Except HttpException Unit :=
  validateRoutingRules (refereeLabelsOf (db.rolesOf campaign.id))
    (personaLabelsOf (db.rolesOf campaign.id)) campaign.toolAliases rules

variable {m : Option ℕ}

theorem checkRules_dump (hM : M.Restores) (rules : List Rule) :
    checkRules db campaign (rules.map M.dumpUnset) =
      checkRules db campaign (rules.map M.dumpJson) :=
  (validateRoutingRules_names (hM.names_dump rules)).symm

/-- What both assign, from the rules as they dump them. -/
def ruleSet (ds : List RoutingRule) (m : Option ℕ) : CampaignSet where
  routingRules := some (some ds)
  tools := none
  columns := m.toList.map fun n => (.maxContinuousRestructure, Json.ofNat n)

/-- What both do to the database: validate the rules as they dump them, and
flush them. -/
def checkedFlush (db : Database) (campaign : Campaign) (ds : List RoutingRule) (m : Option ℕ) :
    Except HttpException (Unit × Database) :=
  (checkRules db campaign ds).bind fun _ => (flushCampaign campaign (ruleSet ds m)).run db

/-- After the lookup `replace_routing_rules` validates, flushes and reads back. -/
theorem run_put (hrow : db.campaign campaign.id = some campaign) :
    (replaceRoutingRules campaign.id (putRules M rules m)).run db =
      (checkedFlush db campaign (rules.map M.dumpJson) m).bind fun r =>
        .ok (⟨((putRules M rules m).set.applyTo campaign).rules,
          ((putRules M rules m).set.applyTo campaign).columns .maxContinuousRestructure⟩, r.2) := by
  unfold replaceRoutingRules checkedFlush checkRules
  rw [run_getOr404_some hrow]
  simp only [Prog.bind_eq]
  rw [Prog.run_select_bind, Prog.run_check_bind]
  show Except.bind (validateRoutingRules _ _ _ (rules.map M.dumpJson)) _ = _
  cases validateRoutingRules (refereeLabelsOf (db.rolesOf campaign.id))
    (personaLabelsOf (db.rolesOf campaign.id)) campaign.toolAliases (rules.map M.dumpJson) with
  | error e => rfl
  | ok u =>
    show ((flushCampaign campaign (ruleSet (rules.map M.dumpJson) m)).bind _).run db = _
    rw [Prog.run_bind]
    rfl

/-- `update_campaign` with a body of rules alone does the same. -/
theorem run_patch (validateInterruptionRule : Json → Option String) (ids : Draws)
    (hrow : db.campaign campaign.id = some campaign) :
    (updateCampaign validateInterruptionRule ids campaign.id (patchRules M rules m)).run db =
      (checkedFlush db campaign (rules.map M.dumpUnset) m).bind fun r =>
        (loadDetail ((patchRules M rules m).baseFields.applyTo campaign)).run r.2 := by
  have hinterruption : validateInterruptionRules validateInterruptionRule
      (((patchRules M rules m).baseFields.columns.lookup .interruptionRules).getD Json.null) =
        .ok () := by
    cases m <;> rfl
  have hvalidate : (validatePatch validateInterruptionRule campaign (patchRules M rules m)).run db =
      (checkRules db campaign (rules.map M.dumpUnset)).map fun _ => ((), db) := by
    unfold validatePatch
    rw [hinterruption, Prog.bind_eq, Prog.run_check_bind]
    show (Prog.check (checkRules db campaign (rules.map M.dumpUnset)) : Handler Unit).run db = _
    cases checkRules db campaign (rules.map M.dumpUnset) with
    | error e => rfl
    | ok u => rfl
  unfold updateCampaign checkedFlush
  rw [run_getOr404_some hrow, Prog.bind_eq, Prog.run_bind, hvalidate]
  cases checkRules db campaign (rules.map M.dumpUnset) with
  | error e => rfl
  | ok u =>
    show (patchCampaign ids campaign (patchRules M rules m)).run db = _
    unfold patchCampaign
    rw [Prog.bind_eq, Prog.run_bind]
    rfl

/-- A handler that validates, flushes and only reads after that answers as the
flush goes. -/
theorem session_of_flush {α : Type} {handler : Handler α}
    {x : Except HttpException (Unit × Database)}
    {f : Unit × Database → Except HttpException (α × Database)}
    (hrun : handler.run db = x.bind f) (hreads : ∀ r, ∃ a, f r = .ok (a, r.2)) :
    (∀ e, x = .error e → handler.session db = (.error e, db)) ∧
      ∀ p, x = .ok ((), p) → ∃ a, handler.session db = (.ok a, p) := by
  constructor
  · rintro e rfl
    exact Prog.session_error.mpr ⟨hrun, rfl⟩
  · rintro p rfl
    obtain ⟨a, ha⟩ := hreads ((), p)
    exact ⟨a, Prog.session_ok.mpr (hrun.trans ha)⟩

/-! ## Agreement -/

/-- A constraint of the table may look at the rules, but not at how they are
dumped. -/
def BlindToDump (M : RuleModel Rule) (schema : Schema) : Prop :=
  ∀ (row : Campaign) (ds ds' : List RoutingRule), ds.map M.modelValidate = ds'.map M.modelValidate →
    schema.campaignOk { row with routingRules := some ds } =
      schema.campaignOk { row with routingRules := some ds' }

/-- Of the database only the rules of one campaign, and its
`max_continuous_restructure`, have changed. -/
structure OnlyRules (id : Int) (db db' : Database) : Prop where
  roles : db'.roles = db.roles
  callbacks : db'.callbacks = db.callbacks
  others : ∀ d, d ≠ id → db'.campaign d = db.campaign d
  columns : ∀ c, db.campaign id = some c → ∃ c', db'.campaign id = some c' ∧
    c'.tools = c.tools ∧ ∀ k, k ≠ .maxContinuousRestructure → c'.columns k = c.columns k

theorem onlyRules_of_flush {db' : Database} {ds : List RoutingRule}
    (hrow : db.campaign campaign.id = some campaign)
    (hrun : (flushCampaign campaign (ruleSet ds m)).run db = .ok ((), db'))
    (hroles : db'.roles = db.roles) (hcallbacks : db'.callbacks = db.callbacks) :
    OnlyRules campaign.id db db' := by
  have hedits := edits_flushCampaign hrow hrun
  refine ⟨hroles, hcallbacks, hedits.campaign_other, fun c hc => ?_⟩
  obtain rfl : campaign = c := Option.some.inj (hrow.symm.trans hc)
  refine ⟨_, hedits.campaign_self, rfl, fun k hk => ?_⟩
  have hlookup : (ruleSet ds m).columns.lookup k = none := by
    cases m with
    | none => rfl
    | some n => simp [ruleSet, List.lookup_cons, beq_eq_false_iff_ne.mpr hk]
  show ((ruleSet ds m).columns.lookup k).getD (campaign.columns k) = campaign.columns k
  rw [hlookup]
  rfl

/-- What `get_routing_rules` answers once the rules are flushed. -/
theorem run_getRoutingRules {db' : Database} {ds : List RoutingRule}
    (hrow : db.campaign campaign.id = some campaign)
    (hrun : (flushCampaign campaign (ruleSet ds m)).run db = .ok ((), db'))
    (hds : ds.map M.modelValidate = rules) :
    (getRoutingRules M campaign.id).run db' =
      .ok ((rules, (m.map Json.ofNat).getD (campaign.columns .maxContinuousRestructure)),
        db') := by
  have hself := (edits_flushCampaign hrow hrun).campaign_self
  unfold getRoutingRules
  rw [run_getOr404_some hself]
  have hcolumn : ((ruleSet ds m).applyTo campaign).columns .maxContinuousRestructure =
      (m.map Json.ofNat).getD (campaign.columns .maxContinuousRestructure) := by
    cases m <;> rfl
  have hrules : ((ruleSet ds m).applyTo campaign).rules = ds := rfl
  rw [hcolumn, hrules, hds]
  rfl

/-- **Two ways to write the routing rules.** With the same rules and the same
optional `max_continuous_restructure`, `PUT` and `PATCH` both reject with the
same answer and change nothing, or both are accepted; then `get_routing_rules`
answers the same on both, with the rules of the request, and nothing else has
changed on either. -/
theorem put_agrees_with_patch (M : RuleModel Rule) (hM : M.Restores)
    (validateInterruptionRule : Json → Option String) (ids : Draws) (db : Database) (id : Int)
    (rules : List Rule) (m : Option ℕ) (hblind : BlindToDump M db.schema)
    (hstored : ∀ c, db.campaign id = some c → db.schema.campaignOk c = true) :
    let put := (replaceRoutingRules id (putRules M rules m)).session db
    let patch := (updateCampaign validateInterruptionRule ids id (patchRules M rules m)).session db
    (∃ e, put = (.error e, db) ∧ patch = (.error e, db)) ∨
      ∃ read detail p q restructure, put = (.ok read, p) ∧ patch = (.ok detail, q) ∧
        (getRoutingRules M id).run p = .ok ((rules, restructure), p) ∧
        (getRoutingRules M id).run q = .ok ((rules, restructure), q) ∧
        OnlyRules id db p ∧ OnlyRules id db q := by
  have hjson : (rules.map M.dumpJson).map M.modelValidate = rules := by
    rw [List.map_map]
    exact (List.map_congr_left fun r _ => hM.json r).trans (List.map_id rules)
  have hunset : (rules.map M.dumpUnset).map M.modelValidate = rules := by
    rw [List.map_map]
    exact (List.map_congr_left fun r _ => hM.unset r).trans (List.map_id rules)
  cases hc : db.campaign id with
  | none =>
    have hput : (replaceRoutingRules id (putRules M rules m)).run db =
        .error (notFound "campaign_not_found") := run_getOr404_none hc
    have hpatch : (updateCampaign validateInterruptionRule ids id (patchRules M rules m)).run db =
        .error (notFound "campaign_not_found") := run_getOr404_none hc
    exact Or.inl ⟨_, Prog.session_error.mpr ⟨hput, rfl⟩, Prog.session_error.mpr ⟨hpatch, rfl⟩⟩
  | some campaign =>
    obtain ⟨_, rfl⟩ := Database.campaign_eq_some.mp hc
    have hdump : checkRules db campaign (rules.map M.dumpUnset) =
        checkRules db campaign (rules.map M.dumpJson) := checkRules_dump hM rules
    obtain ⟨hputError, hputOk⟩ := session_of_flush (run_put (M := M) (m := m) hc)
      fun r => ⟨_, rfl⟩
    obtain ⟨hpatchError, hpatchOk⟩ := session_of_flush
      (run_patch (M := M) (m := m) validateInterruptionRule ids hc) fun r => ⟨_, rfl⟩
    cases hcheck : checkRules db campaign (rules.map M.dumpJson) with
    | error e =>
      refine Or.inl ⟨e, hputError e ?_, hpatchError e ?_⟩
      · rw [checkedFlush, hcheck]
        rfl
      · rw [checkedFlush, hdump, hcheck]
        rfl
    | ok u =>
      have hput : checkedFlush db campaign (rules.map M.dumpJson) m =
          (flushCampaign campaign (ruleSet (rules.map M.dumpJson) m)).run db := by
        rw [checkedFlush, hcheck]
        rfl
      have hpatch : checkedFlush db campaign (rules.map M.dumpUnset) m =
          (flushCampaign campaign (ruleSet (rules.map M.dumpUnset) m)).run db := by
        rw [checkedFlush, hdump, hcheck]
        rfl
      have hsame : db.schema.campaignOk ((ruleSet (rules.map M.dumpJson) m).applyTo campaign) =
          db.schema.campaignOk ((ruleSet (rules.map M.dumpUnset) m).applyTo campaign) :=
        hblind ((ruleSet (rules.map M.dumpJson) m).applyTo campaign) _ _ (hjson.trans hunset.symm)
      by_cases hok :
          db.schema.campaignOk ((ruleSet (rules.map M.dumpJson) m).applyTo campaign) = true
      · obtain ⟨p, hp, hproles, hpcallbacks⟩ := flushCampaign_ok hc hok
        obtain ⟨q, hq, hqroles, hqcallbacks⟩ := flushCampaign_ok hc (hsame ▸ hok)
        obtain ⟨read, hputs⟩ := hputOk p (hput.trans hp)
        obtain ⟨detail, hpatches⟩ := hpatchOk q (hpatch.trans hq)
        exact Or.inr ⟨read, detail, p, q, _, hputs, hpatches, run_getRoutingRules hc hp hjson,
          run_getRoutingRules hc hq hunset, onlyRules_of_flush hc hp hproles hpcallbacks,
          onlyRules_of_flush hc hq hqroles hqcallbacks⟩
      · have hp := flushCampaign_refused hc (hstored campaign hc) hok
        have hq := flushCampaign_refused hc (hstored campaign hc) (hsame ▸ hok)
        exact Or.inl ⟨internalServerError, hputError _ (hput.trans hp),
          hpatchError _ (hpatch.trans hq)⟩

/-- A transition to `transfer` whose `goal_type` is not set. -/
def unsetTransfer : Json := ⟨"\x7b\"type\": \"transition\", \"to\": \"transfer\"\x7d"⟩

/-- In JSON mode the field is dumped nevertheless. -/
def jsonTransfer : Json :=
  ⟨"\x7b\"type\": \"transition\", \"to\": \"transfer\", \"goal_type\": null\x7d"⟩

theorem unsetTransfer_ne : RuleAction.other unsetTransfer ≠ .other jsonTransfer := by decide

/-- A rule, given by what is set in it. -/
abbrev SetRule := { rule : RoutingRule // rule.action ≠ .other jsonTransfer }

def transferRules : RuleModel SetRule where
  modelValidate d :=
    if h : d.action = .other jsonTransfer then
      ⟨{ d with action := .other unsetTransfer }, unsetTransfer_ne⟩
    else ⟨d, h⟩
  dumpJson r :=
    if r.val.action = .other unsetTransfer then { r.val with action := .other jsonTransfer }
    else r.val
  dumpUnset r := r.val

theorem names_transferRules (d : RoutingRule) :
    (transferRules.modelValidate d).val.names = d.names := by
  by_cases h : d.action = .other jsonTransfer
  · simp [transferRules, RoutingRule.names, RuleAction.names, h]
  · simp [transferRules, h]

theorem transferRules_restores : transferRules.Restores where
  json := by
    rintro ⟨⟨referee, action, rest⟩, hset⟩
    by_cases hunset : action = .other unsetTransfer
    · subst hunset
      simp [transferRules]
    · simp [transferRules, hunset, hset]
  unset := by
    rintro ⟨r, hset⟩
    simp [transferRules, hset]
  names := by
    intro d d' h
    rw [← names_transferRules d, h, names_transferRules]

def transferRule : SetRule :=
  ⟨⟨"main_judge", .other unsetTransfer, ⟨"\x7b\"match\": [\"transfer\"]\x7d"⟩⟩, unsetTransfer_ne⟩

/-- The one rule is replaced by another one, which the two requests store in
different ways, and the bound by 3. -/
theorem put_agrees_with_patch_ruled :
    transferRules.dumpJson transferRule ≠ transferRules.dumpUnset transferRule ∧
    ∃ read detail p q,
      (replaceRoutingRules 1 (putRules transferRules [transferRule] (some 3))).session
        ruledDatabase = (.ok read, p) ∧
      (updateCampaign (fun _ => none) ⟨2, fun _ => 2, fun _ => 2⟩ 1
        (patchRules transferRules [transferRule] (some 3))).session ruledDatabase =
          (.ok detail, q) ∧
      (getRoutingRules transferRules 1).run p = .ok (([transferRule], Json.ofNat 3), p) ∧
      (getRoutingRules transferRules 1).run q = .ok (([transferRule], Json.ofNat 3), q) := by
  have hagree := put_agrees_with_patch transferRules transferRules_restores (fun _ => none)
    ⟨2, fun _ => 2, fun _ => 2⟩ ruledDatabase 1 [transferRule] (some 3) (fun _ _ _ _ => rfl)
    (fun _ _ => rfl)
  refine ⟨by decide, ?_⟩
  rcases hagree with ⟨e, hput, _⟩ | ⟨read, detail, p, q, restructure, hput, hpatch, hp, hq, _⟩
  · cases hput
  · obtain rfl : restructure = Json.ofNat 3 := by
      cases hput
      cases hp
      rfl
    exact ⟨read, detail, p, q, hput, hpatch, hp, hq⟩

end IsalesApi.Config
