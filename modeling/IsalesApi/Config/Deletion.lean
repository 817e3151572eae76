import IsalesApi.Config.Merged

/-!
# Deletion of a role row

The guard of `delete_role_config` compares the label of the row with the stored
rules: with their referees for a referee, with their route targets for a
persona. Rules are consistent here in the sense of `validate_routing_rules`.
-/

namespace IsalesApi.Config

open Foundation

variable {db db' : Database} {obj : RoleConfig}

/-- The stored rules of the campaign pass `validate_routing_rules` on these role
rows. -/
def Campaign.Consistent (c : Campaign) (roles : List RoleConfig) : Prop :=
  validateRoutingRules (refereeLabelsOf roles) (personaLabelsOf roles) c.toolAliases c.rules =
    .ok ()

/-- Some rule has the label in the position of the kind. -/
def Campaign.Uses (c : Campaign) (k : RoleKind) (l : String) : Prop :=
  (k = .referee ∧ ∃ rule ∈ c.rules, rule.referee = l) ∨
    (k = .persona ∧ ∃ rule ∈ c.rules, rule.action.routesTo l = true)

/-- The guard refuses a label that is used, and no other. -/
theorem labelInUse_eq_none_iff {c : Campaign} {k : RoleKind} {l : String} :
    labelInUse k l c = none ↔ ¬ c.Uses k l := by
  have href : l ∈ c.rules.map RoutingRule.referee ↔ ∃ rule ∈ c.rules, rule.referee = l :=
    List.mem_map
  have hroute : c.rules.any (fun rule => rule.action.routesTo l) = true ↔
      ∃ rule ∈ c.rules, rule.action.routesTo l = true := List.any_eq_true
  unfold labelInUse Campaign.Uses
  rw [← href, ← hroute]
  by_cases hreferee : k = .referee ∧ l ∈ c.rules.map RoutingRule.referee
  · rw [if_pos hreferee]
    exact iff_of_false (by simp) fun h => h (Or.inl hreferee)
  · rw [if_neg hreferee]
    by_cases hpersona : k = .persona ∧ c.rules.any (fun rule => rule.action.routesTo l) = true
    · rw [if_pos hpersona]
      exact iff_of_false (by simp) fun h => h (Or.inr hpersona)
    · rw [if_neg hpersona]
      exact iff_of_true rfl (not_or.mpr ⟨hreferee, hpersona⟩)

theorem labelInUse_status {c : Campaign} {k : RoleKind} {l : String} {e : HttpException}
    (h : labelInUse k l c = some e) : e.status = 409 := by
  unfold labelInUse at h
  split at h
  · cases h
    rfl
  · split at h
    · cases h
      rfl
    · cases h

/-- No rule of its campaign uses the label of the row in the position of its
kind. -/
def Deletable (obj : RoleConfig) (db : Database) : Prop :=
  ∀ c l, db.campaign obj.campaignId = some c → obj.label = some l → ¬ c.Uses obj.kind l

theorem Deletable.unused (h : Deletable obj db) : Unused obj db :=
  fun l hl _ c hc => labelInUse_eq_none_iff.mpr (h c l hc hl)

theorem run_deleteRoleConfig_of_unused (hobj : obj ∈ db.roles) (h : Unused obj db) :
    ∃ db', (deleteRoleConfig obj.id).run db = .ok ((), db') := by
  have hrow : db.role obj.id = some obj := Database.role_eq_some.mpr ⟨hobj, rfl⟩
  have hguard : (requireUnused obj).run db = .ok ((), db) := run_requireUnused.mpr ⟨h, rfl⟩
  exact ⟨_, run_getOr404.mpr ⟨obj, hrow, Prog.run_bind_ok.mpr ⟨(), db, hguard, rfl⟩⟩⟩

/-- What is raised is the conflict of the guard. -/
theorem requireUnused_status {e : HttpException} (h : (requireUnused obj).run db = .error e) :
    e.status = 409 := by
  unfold requireUnused at h
  split at h
  · cases h
  · split at h
    · rw [Prog.bind_eq, Prog.run_select_bind] at h
      split at h
      · cases h
      · rename_i huse
        cases h
        obtain ⟨c, _, huse⟩ := Option.bind_eq_some_iff.mp huse
        exact labelInUse_status huse
    · cases h

theorem deleteRoleConfig_status (hobj : obj ∈ db.roles) {e : HttpException}
    (h : (deleteRoleConfig obj.id).run db = .error e) : e.status = 409 := by
  have hrow : db.role obj.id = some obj := Database.role_eq_some.mpr ⟨hobj, rfl⟩
  have hbody := run_getOr404_error hrow h
  rcases Prog.run_bind_error.mp hbody with hguard | ⟨_, m, _, hdelete⟩
  · exact requireUnused_status hguard
  · cases hdelete

/-- Only the row is gone. -/
theorem apply_deleteRole_frame {id : Int} (h : db.apply (.deleteRole id) = some db') :
    db'.campaigns = db.campaigns ∧ db'.callbacks = db.callbacks ∧
      db'.roles.rows = db.roles.rows.filter fun r => r.id ≠ id := by
  have hrows := (apply_deleteRole h).2
  cases h
  exact ⟨rfl, rfl, hrows⟩

/-- A label that some rule uses stays among the labels of its kind: the guard
has let the row go, so another row has it. -/
theorem mem_labelsOf_delete {c : Campaign} {k : RoleKind} {l : String}
    (hobj : obj ∈ db.roles) (hunused : Unused obj db)
    (hc : db.campaign obj.campaignId = some c) (huses : c.Uses k l)
    (hmem : l ∈ labelsOf k (db.rolesOf obj.campaignId)) :
    l ∈ labelsOf k ((db.rolesOf obj.campaignId).filter fun r => r.id ≠ obj.id) := by
  obtain ⟨hne, r, hr, hkind, hlabel⟩ := mem_labelsOf.mp hmem
  have hother : r.id ≠ obj.id := by
    intro hid
    obtain rfl : r = obj := Table.eq_of_key_eq (Database.mem_rolesOf.mp hr).1 hobj hid
    obtain rfl : r.kind = k := hkind
    exact labelInUse_eq_none_iff.mp (hunused l hlabel hne c hc) huses
  exact mem_labelsOf.mpr ⟨hne, r, List.mem_filter.mpr ⟨hr, by simpa using hother⟩, hkind, hlabel⟩

theorem Campaign.Consistent.delete {c : Campaign} (hobj : obj ∈ db.roles)
    (hunused : Unused obj db) (hc : db.campaign obj.campaignId = some c)
    (h : c.Consistent (db.rolesOf obj.campaignId)) :
    c.Consistent ((db.rolesOf obj.campaignId).filter fun r => r.id ≠ obj.id) := by
  refine validateRoutingRules_ok.mpr fun rule hrule => ?_
  obtain ⟨href, haction⟩ := validateRoutingRules_ok.mp h rule hrule
  refine ⟨mem_labelsOf_delete hobj hunused hc (Or.inl ⟨rfl, rule, hrule, rfl⟩) href, ?_⟩
  cases hact : rule.action with
  | route target rest =>
    rw [hact] at haction
    refine haction.imp_left fun hpersona => ?_
    have huses : c.Uses .persona target :=
      Or.inr ⟨rfl, rule, hrule, by simp [hact, RuleAction.routesTo]⟩
    exact mem_labelsOf_delete hobj hunused hc huses hpersona
  | tool name rest =>
    rw [hact] at haction
    exact haction
  | other body => trivial

/-- **Delete protection.** A row can be deleted when no rule uses its label;
whenever it is deleted the rules of its campaign are still consistent with the
remaining rows and nothing else has changed; a rejection is a 409 and changes
nothing. That labels are unique is not needed: a label in use is never freed. -/
theorem delete_protection (hobj : obj ∈ db.roles)
    (hconsistent : ∀ c, db.campaign obj.campaignId = some c →
      c.Consistent (db.rolesOf obj.campaignId)) :
    (Deletable obj db → ∃ db', (deleteRoleConfig obj.id).run db = .ok ((), db')) ∧
      (∀ db', (deleteRoleConfig obj.id).run db = .ok ((), db') →
        (∀ c, db'.campaign obj.campaignId = some c →
          c.Consistent (db'.rolesOf obj.campaignId)) ∧
        db'.campaigns = db.campaigns ∧ db'.callbacks = db.callbacks ∧
        db'.roles.rows = db.roles.rows.filter fun r => r.id ≠ obj.id) ∧
      ∀ e, (deleteRoleConfig obj.id).run db = .error e →
        e.status = 409 ∧ (deleteRoleConfig obj.id).session db = (.error e, db) := by
  refine ⟨fun h => run_deleteRoleConfig_of_unused hobj h.unused, ?_, ?_⟩
  · intro db' h
    obtain ⟨row, hrow, hunused, happly⟩ := run_deleteRoleConfig h
    obtain rfl : row = obj :=
      Option.some.inj (hrow.symm.trans (Database.role_eq_some.mpr ⟨hobj, rfl⟩))
    have hframe := apply_deleteRole_frame happly
    refine ⟨fun c hc => ?_, hframe⟩
    have hc : db.campaign row.campaignId = some c := (campaign_congr hframe.1 _).symm.trans hc
    rw [(edits_deleteRole hobj happly).roles_self]
    exact (hconsistent c hc).delete hobj hunused hc
  · intro e h
    exact ⟨deleteRoleConfig_status hobj h, Prog.session_error.mpr ⟨h, rfl⟩⟩

/-- The referee of the one rule stays. -/
theorem delete_protection_ruled :
    (deleteRoleConfig 1).session ruledDatabase =
      (.error (conflict "referee_label_in_use:main_judge"), ruledDatabase) := by
  have hobj : (⟨⟨.referee, some "main_judge", "m", none, 7/10, 1, ⟨"{}"⟩, true⟩, 1, 1⟩ :
      RoleConfig) ∈ ruledDatabase.roles := List.mem_cons_self
  have hconsistent : ∀ c, ruledDatabase.campaign 1 = some c →
      c.Consistent (ruledDatabase.rolesOf 1) := by
    intro c hc
    obtain rfl : ruledCampaign = c := Option.some.inj hc
    exact rfl
  exact ((delete_protection hobj hconsistent).2.2 _ rfl).2

end IsalesApi.Config
