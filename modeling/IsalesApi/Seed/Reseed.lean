import IsalesApi.Seed.Script

/-!
# Seeding again

A seeded campaign has the three rows of the script and nothing else, and seeding
it again changes only their ids. Prompt versions are deleted by `scope_id` alone;
that this stays within the campaign needs that every prompt version belongs to a
role row, so that new role ids are scopes of nothing yet.
-/

namespace IsalesApi.Seed

open Foundation Config Prompt

/-- Every prompt version's `scope_id` names a role row. -/
def Scoped (db : Database) : Prop := ∀ p ∈ db.prompts, ∃ r ∈ db.roles, r.id = p.scopeId

/-- The role row a slot is seeded with, linked to its prompt version. -/
def Slot.linkedRole (slot : Slot) (campaignId rc pv : Int) : RoleConfig :=
  ⟨{ slot.role with currentPromptVersionId := some pv }, rc, campaignId⟩

def Slot.activePrompt (slot : Slot) (rc pv : Int) : PromptVersion := ⟨slot.version rc, pv⟩

/-! ## The loop over the slots -/

section Loop

variable (campaignId : Int) (db : Database)

/-- One slot adds a role row and its prompt version. -/
theorem roles_seedSlot (slot : Slot) : (seedSlot campaignId db slot).roles.rows =
    db.roles.rows ++ [slot.linkedRole campaignId db.nextRole db.nextPrompt] := by
  show (db.roles.rows ++ [_]).map _ = _
  rw [List.map_append, List.map_singleton]
  congr 1
  · conv_rhs => rw [← List.map_id db.roles.rows]
    refine List.map_congr_left fun r hr => if_neg ?_
    simpa using (db.rolesFresh r hr).ne
  · simp [Slot.linkedRole]

theorem prompts_seedSlot (slot : Slot) : (seedSlot campaignId db slot).prompts.rows =
    db.prompts.rows ++ [slot.activePrompt db.nextRole db.nextPrompt] := rfl

/-- The rows the slots add, the sequences having reached `rc` and `pv`. -/
def linkedRoles : Int → Int → List Slot → List RoleConfig
  | _, _, [] => []
  | rc, pv, slot :: ss =>
    slot.linkedRole campaignId rc pv :: linkedRoles (rc + 1) (pv + 1) ss

def activePrompts : Int → Int → List Slot → List PromptVersion
  | _, _, [] => []
  | rc, pv, slot :: ss => slot.activePrompt rc pv :: activePrompts (rc + 1) (pv + 1) ss

/-- The whole loop. -/
theorem foldl_seedSlot (ss : List Slot) :
    (ss.foldl (seedSlot campaignId) db).roles.rows =
        db.roles.rows ++ linkedRoles campaignId db.nextRole db.nextPrompt ss ∧
      (ss.foldl (seedSlot campaignId) db).prompts.rows =
        db.prompts.rows ++ activePrompts db.nextRole db.nextPrompt ss ∧
      (ss.foldl (seedSlot campaignId) db).campaigns = db.campaigns ∧
      (ss.foldl (seedSlot campaignId) db).nextRole = db.nextRole + ss.length ∧
      (ss.foldl (seedSlot campaignId) db).nextPrompt = db.nextPrompt + ss.length := by
  induction ss generalizing db with
  | nil => simp [linkedRoles, activePrompts]
  | cons slot ss ih =>
    obtain ⟨hroles, hprompts, hcampaigns, hrole, hprompt⟩ := ih (seedSlot campaignId db slot)
    rw [List.foldl_cons, hroles, hprompts, hcampaigns, hrole, hprompt, roles_seedSlot,
      prompts_seedSlot, List.append_assoc, List.append_assoc, List.length_cons]
    refine ⟨rfl, rfl, rfl, ?_, ?_⟩
    · show db.nextRole + 1 + (ss.length : Int) = _
      push_cast
      ring
    · show db.nextPrompt + 1 + (ss.length : Int) = _
      push_cast
      ring

end Loop

/-! ## The new rows -/

section NewRows

variable {campaignId rc pv : Int} {ss : List Slot} {r : RoleConfig} {p : PromptVersion}

theorem of_mem_linkedRoles (h : r ∈ linkedRoles campaignId rc pv ss) :
    r.campaignId = campaignId ∧ rc ≤ r.id := by
  induction ss generalizing rc pv with
  | nil => cases h
  | cons slot ss ih =>
    rcases List.mem_cons.mp h with rfl | h
    · exact ⟨rfl, le_rfl⟩
    · obtain ⟨hcampaign, hid⟩ := ih h
      exact ⟨hcampaign, by omega⟩

theorem of_mem_activePrompts (h : p ∈ activePrompts rc pv ss) : rc ≤ p.scopeId ∧ pv ≤ p.id := by
  induction ss generalizing rc pv with
  | nil => cases h
  | cons slot ss ih =>
    rcases List.mem_cons.mp h with rfl | h
    · exact ⟨le_rfl, le_rfl⟩
    · obtain ⟨hscope, hid⟩ := ih h
      exact ⟨by omega, by omega⟩

/-- No two of the new prompt versions have one scope. -/
theorem activePrompts_inj {q : PromptVersion} (hp : p ∈ activePrompts rc pv ss)
    (hq : q ∈ activePrompts rc pv ss) (h : q.scopeId = p.scopeId) : q = p := by
  induction ss generalizing rc pv with
  | nil => cases hp
  | cons slot ss ih =>
    rcases List.mem_cons.mp hp with rfl | hp <;> rcases List.mem_cons.mp hq with rfl | hq
    · rfl
    · have hlow := (of_mem_activePrompts hq).1
      have hscope : q.scopeId = rc := h
      omega
    · have hlow := (of_mem_activePrompts hp).1
      have hscope : rc = p.scopeId := h
      omega
    · exact ih hp hq

/-- The new prompt versions have the new role rows for scopes. -/
theorem scopeIds_activePrompts : (activePrompts rc pv ss).map (fun p => p.scopeId) =
    (linkedRoles campaignId rc pv ss).map RoleConfig.id := by
  induction ss generalizing rc pv with
  | nil => rfl
  | cons slot ss ih =>
    rw [activePrompts, linkedRoles, List.map_cons, List.map_cons, ih]
    rfl

/-- Rows as they come out when the ids are drawn later. -/
theorem linkedRoles_shift (k l : Int) : linkedRoles campaignId (rc + k) (pv + l) ss =
    (linkedRoles campaignId rc pv ss).map fun r =>
      { r with
        id := r.id + k
        currentPromptVersionId := r.currentPromptVersionId.map (· + l) } := by
  induction ss generalizing rc pv with
  | nil => rfl
  | cons slot ss ih =>
    rw [linkedRoles, linkedRoles, List.map_cons, ← ih, add_right_comm rc, add_right_comm pv]
    rfl

theorem activePrompts_shift (k l : Int) : activePrompts (rc + k) (pv + l) ss =
    (activePrompts rc pv ss).map fun p => { p with id := p.id + l, scopeId := p.scopeId + k } := by
  induction ss generalizing rc pv with
  | nil => rfl
  | cons slot ss ih =>
    rw [activePrompts, activePrompts, List.map_cons, ← ih, add_right_comm rc, add_right_comm pv]
    rfl

end NewRows

/-! ## One run -/

/-- What a run leaves of the tables. -/
structure Replaced (ss : List Slot) (c : Int) (db db' : Database) : Prop where
  roles : db'.roles.rows = db.roles.rows.filter (fun r => r.campaignId ≠ c) ++
    linkedRoles c db.nextRole db.nextPrompt ss
  prompts : db'.prompts.rows =
    db.prompts.rows.filter (fun p => !((db.rolesOf c).map RoleConfig.id).contains p.scopeId) ++
      activePrompts db.nextRole db.nextPrompt ss
  campaigns : db'.campaigns = (db.setRules c routingRules).campaigns
  nextRole : db'.nextRole = db.nextRole + ss.length
  nextPrompt : db'.nextPrompt = db.nextPrompt + ss.length

section Run

variable {env : Environment} {c : Int} {db db' : Database}

theorem campaigns_setRules (h : db'.campaigns = db.campaigns) {rules : List RoutingRule} :
    (db'.setRules c rules).campaigns = (db.setRules c rules).campaigns := by
  simp only [Database.setRules, h]

/-- A role row is one of the campaign's when its id is. -/
theorem contains_rolesOf {r : RoleConfig} (hr : r ∈ db.roles) :
    ((db.rolesOf c).map RoleConfig.id).contains r.id = decide (r.campaignId = c) := by
  rw [Bool.eq_iff_iff, List.contains_iff_mem, decide_eq_true_eq, List.mem_map]
  constructor
  · rintro ⟨s, hs, hid⟩
    obtain ⟨hs, hcampaign⟩ := Table.mem_select.mp hs
    rw [← Table.eq_of_key_eq hs hr hid]
    simpa using hcampaign
  · intro hcampaign
    exact ⟨r, Table.mem_select.mpr ⟨hr, by simpa using hcampaign⟩, rfl⟩

theorem rows_dropExisting (c : Int) (db : Database) :
    (dropExisting c db).roles.rows = db.roles.rows.filter (fun r => r.campaignId ≠ c) ∧
      (dropExisting c db).prompts.rows = db.prompts.rows.filter
        (fun p => !((db.rolesOf c).map RoleConfig.id).contains p.scopeId) ∧
      (dropExisting c db).campaigns = db.campaigns ∧
      (dropExisting c db).nextRole = db.nextRole ∧
      (dropExisting c db).nextPrompt = db.nextPrompt := by
  have hroles : db.roles.rows.filter (fun r => !((db.rolesOf c).map RoleConfig.id).contains r.id) =
      db.roles.rows.filter fun r => r.campaignId ≠ c := by
    refine List.filter_congr fun r hr => ?_
    rw [contains_rolesOf hr]
    simp
  unfold dropExisting
  by_cases hnil : (db.rolesOf c).map RoleConfig.id = []
  · rw [if_pos hnil, ← hroles, hnil]
    simp
  · rw [if_neg hnil]
    exact ⟨hroles, rfl, rfl, rfl, rfl⟩

/-- **A run on a campaign that is there.** -/
theorem exists_seed (scopes : ScopeTypes)
    (henv : ¬ (env.databaseUrl = none ∨ env.databaseUrl = some ""))
    (hc : ∃ campaign ∈ db.campaigns, campaign.id = c) :
    ∃ db', seed scopes env c db = .ok db' ∧ Replaced (slots scopes env) c db db' := by
  obtain ⟨campaign, hmem, rfl⟩ := hc
  have hget : db.campaigns.get? campaign.id = some campaign := Table.get?_eq_some.mpr ⟨hmem, rfl⟩
  unfold seed
  rw [if_neg henv, hget]
  refine ⟨_, rfl, ?_⟩
  obtain ⟨hroles, hprompts, hcampaigns, hrole, hprompt⟩ :=
    rows_dropExisting campaign.id db
  obtain ⟨hroles', hprompts', hcampaigns', hrole', hprompt'⟩ :=
    foldl_seedSlot campaign.id (dropExisting campaign.id db) (slots scopes env)
  rw [hroles, hrole, hprompt] at hroles'
  rw [hprompts, hrole, hprompt] at hprompts'
  rw [hrole] at hrole'
  rw [hprompt] at hprompt'
  exact ⟨hroles', hprompts', campaigns_setRules (hcampaigns'.trans hcampaigns), hrole', hprompt'⟩

end Run

/-! ## What holds after a run -/

/-- The role row points at an active prompt version, the only one of its scope. -/
def Linked (db : Database) (scopeType : PromptScopeType) (r : RoleConfig) : Prop :=
  ∃ p ∈ db.prompts, r.currentPromptVersionId = some p.id ∧ p.isActive = true ∧
    p.scope = ⟨scopeType, r.id⟩ ∧ ∀ q ∈ db.prompts, q.scopeId = r.id → q = p

/-- The campaign has the three rows of the script, and its rules bind to them. -/
structure Seeded (scopes : ScopeTypes) (c : Int) (db : Database) : Prop where
  roles : ∃ main referee extractor, db.rolesOf c = [main, referee, extractor] ∧
    main.kind = .main ∧ referee.kind = .referee ∧ referee.label = some "main_judge" ∧
    extractor.kind = .extractor ∧
    Linked db scopes.main main ∧ Linked db scopes.referee referee ∧
    Linked db scopes.extractor extractor
  rules : ∀ campaign ∈ db.campaigns, campaign.id = c → ∀ rule ∈ campaign.rules,
    ∃ r ∈ db.rolesOf c, r.kind = .referee ∧ r.label = some rule.referee

/-- The prompt versions of the role rows of a campaign. -/
def promptsOf (db : Database) (c : Int) : List PromptVersion :=
  db.prompts.rows.filter fun p => ((db.rolesOf c).map RoleConfig.id).contains p.scopeId

/-- A campaign, its role rows and their prompt versions are the same. -/
structure SameCampaign (d : Int) (db db' : Database) : Prop where
  campaign : db'.campaigns.get? d = db.campaigns.get? d
  roles : db'.rolesOf d = db.rolesOf d
  prompts : promptsOf db' d = promptsOf db d

/-- The second state is the first with fresh ids for the rows of the campaign. -/
structure Renewed (c : Int) (db db' : Database) (f g : Int → Int) : Prop where
  roles : db'.roles.rows = db.roles.rows.map fun r =>
    if r.campaignId = c then
      { r with id := f r.id, currentPromptVersionId := r.currentPromptVersionId.map g }
    else r
  prompts : db'.prompts.rows = db.prompts.rows.map fun p =>
    if ((db.rolesOf c).map RoleConfig.id).contains p.scopeId then
      { p with id := g p.id, scopeId := f p.scopeId }
    else p
  campaigns : db'.campaigns = db.campaigns
  roleIds : Function.Injective f ∧ ∀ r ∈ db.rolesOf c, db.nextRole ≤ f r.id
  promptIds : Function.Injective g ∧ ∀ p ∈ promptsOf db c, db.nextPrompt ≤ g p.id

namespace Replaced

variable {ss : List Slot} {c : Int} {db db' : Database} (h : Replaced ss c db db')

include h

theorem rolesOf_self : db'.rolesOf c = linkedRoles c db.nextRole db.nextPrompt ss := by
  show db'.roles.rows.filter _ = _
  rw [h.roles, List.filter_append, List.filter_filter]
  have hold : ∀ r ∈ db.roles.rows, ¬ ((decide (r.campaignId = c) && decide (r.campaignId ≠ c)) =
      true) := by simp
  have hnew : ∀ r ∈ linkedRoles c db.nextRole db.nextPrompt ss,
      decide (r.campaignId = c) = true := fun r hr => by simpa using (of_mem_linkedRoles hr).1
  rw [List.filter_eq_nil_iff.mpr hold, List.filter_eq_self.mpr hnew, List.nil_append]

theorem rolesOf_other {d : Int} (hd : d ≠ c) : db'.rolesOf d = db.rolesOf d := by
  show db'.roles.rows.filter _ = db.roles.rows.filter _
  rw [h.roles, List.filter_append, List.filter_filter]
  have hnew : ∀ r ∈ linkedRoles c db.nextRole db.nextPrompt ss,
      ¬ decide (r.campaignId = d) = true := fun r hr => by
    simpa [(of_mem_linkedRoles hr).1] using Ne.symm hd
  rw [List.filter_eq_nil_iff.mpr hnew, List.append_nil]
  refine List.filter_congr fun r _ => ?_
  by_cases hr : r.campaignId = d <;> simp [hr, hd]

theorem mem_prompts {p : PromptVersion} : p ∈ db'.prompts ↔
    (p ∈ db.prompts ∧ p.scopeId ∉ (db.rolesOf c).map RoleConfig.id) ∨
      p ∈ activePrompts db.nextRole db.nextPrompt ss := by
  rw [← Table.mem_rows, h.prompts, List.mem_append, List.mem_filter]
  simp [Table.mem_rows]

variable (hscoped : Scoped db)

omit h in
include hscoped in
theorem scopeId_lt {p : PromptVersion} (hp : p ∈ db.prompts) : p.scopeId < db.nextRole := by
  obtain ⟨r, hr, hid⟩ := hscoped p hp
  rw [← hid]
  exact db.rolesFresh r hr

include hscoped

theorem keepsScoped : Scoped db' := by
  intro p hp
  rcases h.mem_prompts.mp hp with ⟨hp, hkept⟩ | hp
  · obtain ⟨r, hr, hid⟩ := hscoped p hp
    refine ⟨r, ?_, hid⟩
    rw [← Table.mem_rows, h.roles]
    refine List.mem_append_left _ (List.mem_filter.mpr ⟨hr, ?_⟩)
    rw [← hid, ← List.contains_iff_mem, contains_rolesOf hr] at hkept
    simpa using hkept
  · have hscope : p.scopeId ∈ (linkedRoles c db.nextRole db.nextPrompt ss).map RoleConfig.id := by
      rw [← scopeIds_activePrompts]
      exact List.mem_map_of_mem hp
    obtain ⟨r, hr, hid⟩ := List.mem_map.mp hscope
    refine ⟨r, ?_, hid⟩
    rw [← Table.mem_rows, h.roles]
    exact List.mem_append_right _ hr

/-- A new row is linked to its prompt version. -/
theorem linked {p : PromptVersion} (hp : p ∈ activePrompts db.nextRole db.nextPrompt ss)
    (hactive : p.isActive = true) {r : RoleConfig} (hid : r.id = p.scopeId)
    (hcurrent : r.currentPromptVersionId = some p.id) : Linked db' p.scopeType r := by
  refine ⟨p, h.mem_prompts.mpr (Or.inr hp), hcurrent, hactive, ?_, fun q hq hscope => ?_⟩
  · rw [hid]
    rfl
  · rcases h.mem_prompts.mp hq with ⟨hq, _⟩ | hq
    · have hlt := scopeId_lt hscoped hq
      have hlow := (of_mem_activePrompts hp).1
      omega
    · exact activePrompts_inj hp hq (hscope.trans hid)

theorem promptsOf_other {d : Int} (hd : d ≠ c) : promptsOf db' d = promptsOf db d := by
  unfold promptsOf
  rw [h.rolesOf_other hd, h.prompts, List.filter_append, List.filter_filter]
  have hnew : ∀ p ∈ activePrompts db.nextRole db.nextPrompt ss,
      ¬ ((db.rolesOf d).map RoleConfig.id).contains p.scopeId = true := by
    intro p hp hmem
    obtain ⟨r, hr, hid⟩ := List.mem_map.mp (List.contains_iff_mem.mp hmem)
    have hlt := db.rolesFresh r (Table.mem_select.mp hr).1
    have hlow := (of_mem_activePrompts hp).1
    omega
  rw [List.filter_eq_nil_iff.mpr hnew, List.append_nil]
  refine List.filter_congr fun p hp => ?_
  obtain ⟨r, hr, hid⟩ := hscoped p hp
  rw [← hid, contains_rolesOf hr, contains_rolesOf hr]
  by_cases hrd : r.campaignId = d <;> simp [hrd, hd]

omit hscoped in
theorem campaign_other {d : Int} (hd : d ≠ c) : db'.campaigns.get? d = db.campaigns.get? d := by
  have hget : (db.setRules c routingRules).campaigns.get? d = if d = c then _ else _ :=
    Table.get?_update (T := db.campaigns) (k := c)
      (f := fun x => { x with routingRules := some routingRules }) (fun _ => rfl)
      (fun x => decide_eq_true_iff) d
  rw [h.campaigns]
  exact hget.trans (if_neg hd)

/-- The other campaigns. -/
theorem sameCampaign {d : Int} (hd : d ≠ c) : SameCampaign d db db' :=
  ⟨h.campaign_other hd, h.rolesOf_other hd, h.promptsOf_other hscoped hd⟩

omit hscoped in
theorem rules_self {campaign : Campaign} (hmem : campaign ∈ db'.campaigns)
    (hid : campaign.id = c) : campaign.rules = routingRules := by
  rw [← Table.mem_rows, h.campaigns] at hmem
  obtain ⟨x, _, rfl⟩ := List.mem_map.mp hmem
  by_cases hx : x.id = c
  · simp [hx, Campaign.rules]
  · simp only [hx, decide_false, Bool.false_eq_true, if_false] at hid

/-! ### A second run -/

omit hscoped in
/-- A second run keeps the rows the first one kept. -/
theorem keptRoles : db'.roles.rows.filter (fun r => r.campaignId ≠ c) =
    db.roles.rows.filter fun r => r.campaignId ≠ c := by
  have hnone : ∀ r ∈ linkedRoles c db.nextRole db.nextPrompt ss,
      ¬ decide (r.campaignId ≠ c) = true := fun r hr => by
    simpa using (of_mem_linkedRoles hr).1
  rw [h.roles, List.filter_append, List.filter_eq_nil_iff.mpr hnone, List.append_nil,
    List.filter_filter]
  simp

omit hscoped in
/-- The new prompt versions are the campaign's. -/
theorem contains_new {p : PromptVersion} (hp : p ∈ activePrompts db.nextRole db.nextPrompt ss) :
    ((db'.rolesOf c).map RoleConfig.id).contains p.scopeId = true := by
  rw [List.contains_iff_mem, h.rolesOf_self, ← scopeIds_activePrompts]
  exact List.mem_map_of_mem hp

/-- The old ones are not: role ids are never reused. -/
theorem contains_old {p : PromptVersion} (hp : p ∈ db.prompts) :
    ((db'.rolesOf c).map RoleConfig.id).contains p.scopeId = false := by
  rw [← Bool.not_eq_true, List.contains_iff_mem, h.rolesOf_self]
  intro hmem
  obtain ⟨r, hr, hid⟩ := List.mem_map.mp hmem
  have hlow := (of_mem_linkedRoles hr).2
  have hlt := scopeId_lt hscoped hp
  omega

theorem keptPrompts : db'.prompts.rows.filter
      (fun p => !((db'.rolesOf c).map RoleConfig.id).contains p.scopeId) =
    db.prompts.rows.filter fun p => !((db.rolesOf c).map RoleConfig.id).contains p.scopeId := by
  have hnone : ∀ p ∈ activePrompts db.nextRole db.nextPrompt ss,
      ¬ (!((db'.rolesOf c).map RoleConfig.id).contains p.scopeId) = true := fun p hp => by
    simp only [h.contains_new hp, Bool.not_true, Bool.false_eq_true, not_false_eq_true]
  rw [h.prompts, List.filter_append, List.filter_eq_nil_iff.mpr hnone, List.append_nil,
    List.filter_filter]
  refine List.filter_congr fun p hp => ?_
  rw [h.contains_old hscoped hp, Bool.not_false, Bool.true_and]

variable {db'' : Database} (h' : Replaced ss c db' db'')

include h'

omit hscoped in
theorem roles_again : db''.roles.rows = db'.roles.rows.map fun r =>
    if r.campaignId = c then
      { r with
        id := r.id + (ss.length : Int)
        currentPromptVersionId := r.currentPromptVersionId.map (· + (ss.length : Int)) }
    else r := by
  rw [h'.roles, h.keptRoles, h.roles, h.nextRole, h.nextPrompt, linkedRoles_shift, List.map_append]
  congr 1
  · conv_lhs => rw [← List.map_id (db.roles.rows.filter _)]
    refine List.map_congr_left fun r hr => (if_neg ?_).symm
    simpa using (List.mem_filter.mp hr).2
  · exact List.map_congr_left fun r hr => (if_pos (of_mem_linkedRoles hr).1).symm

theorem prompts_again : db''.prompts.rows = db'.prompts.rows.map fun p =>
    if ((db'.rolesOf c).map RoleConfig.id).contains p.scopeId then
      { p with id := p.id + (ss.length : Int), scopeId := p.scopeId + (ss.length : Int) }
    else p := by
  rw [h'.prompts, h.keptPrompts hscoped]
  conv_rhs => rw [h.prompts]
  rw [h.nextRole, h.nextPrompt, activePrompts_shift, List.map_append]
  congr 1
  · conv_lhs => rw [← List.map_id (db.prompts.rows.filter _)]
    refine List.map_congr_left fun p hp => (if_neg ?_).symm
    rw [h.contains_old hscoped (List.mem_filter.mp hp).1]
    exact Bool.false_ne_true
  · exact List.map_congr_left fun p hp => (if_pos (h.contains_new hp)).symm

omit hscoped in
theorem campaigns_again : db''.campaigns = db'.campaigns := by
  rw [h'.campaigns]
  refine Table.ext ?_
  show db'.campaigns.rows.map _ = db'.campaigns.rows
  rw [h.campaigns]
  show (db.campaigns.rows.map _).map _ = db.campaigns.rows.map _
  rw [List.map_map]
  refine List.map_congr_left fun x _ => ?_
  by_cases hx : x.id = c <;> simp [hx]

/-- **A second run** changes the ids of the new rows only. -/
theorem renewed : Renewed c db' db'' (· + (ss.length : Int)) (· + (ss.length : Int)) where
  roles := h.roles_again h'
  prompts := h.prompts_again hscoped h'
  campaigns := h.campaigns_again h'
  roleIds := by
    refine ⟨add_left_injective _, fun r hr => ?_⟩
    rw [h.rolesOf_self] at hr
    rw [h.nextRole]
    exact Int.add_le_add_right (of_mem_linkedRoles hr).2 _
  promptIds := by
    refine ⟨add_left_injective _, fun p hp => ?_⟩
    obtain ⟨hp, hscope⟩ := List.mem_filter.mp hp
    rcases h.mem_prompts.mp hp with ⟨hp, _⟩ | hp
    · rw [h.contains_old hscoped hp] at hscope
      cases hscope
    · rw [h.nextPrompt]
      exact Int.add_le_add_right (of_mem_activePrompts hp).2 _

end Replaced

/-! ## The result -/

theorem seeded_of_replaced {scopes : ScopeTypes} {env : Environment} {c : Int} {db db' : Database}
    (h : Replaced (slots scopes env) c db db') (hscoped : Scoped db) : Seeded scopes c db' := by
  constructor
  · refine ⟨_, _, _, h.rolesOf_self, rfl, rfl, rfl, rfl, ?_, ?_, ?_⟩
    · exact h.linked hscoped List.mem_cons_self rfl rfl rfl
    · exact h.linked hscoped (List.mem_cons_of_mem _ List.mem_cons_self) rfl rfl rfl
    · exact h.linked hscoped (List.mem_cons_of_mem _ (List.mem_cons_of_mem _ List.mem_cons_self))
        rfl rfl rfl
  · intro campaign hmem hid rule hrule
    rw [h.rules_self hmem hid] at hrule
    rw [h.rolesOf_self]
    refine ⟨_, List.mem_cons_of_mem _ List.mem_cons_self, rfl, ?_⟩
    simp only [routingRules, List.mem_cons, List.not_mem_nil, or_false] at hrule
    rcases hrule with rfl | rfl | rfl <;> rfl

/-- **Seeding a campaign again changes ids only**, and seeding changes no other
campaign. -/
theorem seed_idempotent (scopes : ScopeTypes) (env : Environment)
    (henv : ¬ (env.databaseUrl = none ∨ env.databaseUrl = some "")) (c : Int) (db : Database)
    (hscoped : Scoped db) (hc : ∃ campaign ∈ db.campaigns, campaign.id = c) :
    ∃ db' db'', seed scopes env c db = .ok db' ∧ seed scopes env c db' = .ok db'' ∧
      Seeded scopes c db' ∧ Scoped db' ∧ (∀ d, d ≠ c → SameCampaign d db db') ∧
      (∃ f g, Renewed c db' db'' f g) ∧
      db''.roles.rows.length = db'.roles.rows.length ∧
      db''.prompts.rows.length = db'.prompts.rows.length := by
  obtain ⟨db', hseed, h⟩ := exists_seed scopes henv hc
  have hc' : ∃ campaign ∈ db'.campaigns, campaign.id = c := by
    obtain ⟨campaign, hmem, hid⟩ := hc
    rw [h.campaigns]
    refine ⟨_, List.mem_map_of_mem hmem, ?_⟩
    split <;> exact hid
  obtain ⟨db'', hseed', h'⟩ := exists_seed scopes henv hc'
  have hrenewed := h.renewed hscoped h'
  refine ⟨db', db'', hseed, hseed', seeded_of_replaced h hscoped, h.keepsScoped hscoped,
    fun d hd => h.sameCampaign hscoped hd, ⟨_, _, hrenewed⟩, ?_, ?_⟩
  · rw [hrenewed.roles, List.length_map]
  · rw [hrenewed.prompts, List.length_map]

def scopeTypes : ScopeTypes := ⟨⟨"main"⟩, ⟨"referee"⟩, ⟨"extractor"⟩⟩

def environment : Environment := ⟨some "postgresql://localhost/isales", none, none, none⟩

def persona : RoleConfigNestedWrite := ⟨.persona, some "warm", "m", none, 1, 1, ⟨"\x7b\x7d"⟩, true⟩

/-- Two campaigns, each with a role row and a prompt version. -/
def twoCampaigns : Database :=
  let db : Database :=
    { campaigns := ⟨[⟨1, none, none, fun _ => Json.null⟩, ⟨2, none, none, fun _ => Json.null⟩],
        by decide⟩
      roles := .empty
      prompts := .empty
      nextRole := 1
      nextPrompt := 1
      rolesFresh := fun r hr => absurd hr (Table.not_mem_empty r)
      promptsFresh := fun p hp => absurd hp (Table.not_mem_empty p) }
  let db := (db.addRole 1 persona).addRole 2 persona
  (db.addPrompt ⟨⟨⟨"persona"⟩, 1⟩, "a", none, true⟩).addPrompt ⟨⟨⟨"persona"⟩, 2⟩, "b", none, true⟩

theorem scoped_twoCampaigns : Scoped twoCampaigns := by
  intro p hp
  have hp : p ∈ [_, _] := hp
  simp only [List.mem_cons, List.not_mem_nil, or_false] at hp
  rcases hp with rfl | rfl
  · exact ⟨_, List.mem_cons_self, rfl⟩
  · exact ⟨_, List.mem_cons_of_mem _ List.mem_cons_self, rfl⟩

theorem seed_idempotent_twoCampaigns : ∃ db' db'',
    seed scopeTypes environment 1 twoCampaigns = .ok db' ∧
    seed scopeTypes environment 1 db' = .ok db'' ∧ Seeded scopeTypes 1 db' ∧
    SameCampaign 2 twoCampaigns db' ∧ ∃ f g, Renewed 1 db' db'' f g := by
  obtain ⟨db', db'', hseed, hseed', hseeded, _, hother, hrenewed, _⟩ :=
    seed_idempotent scopeTypes environment (by decide) 1 twoCampaigns scoped_twoCampaigns
      ⟨_, List.mem_cons_self, rfl⟩
  exact ⟨db', db'', hseed, hseed', hseeded, hother 2 (by decide), hrenewed⟩

end IsalesApi.Seed
