import IsalesApi.Config.Accepted
import IsalesApi.Foundation.Transition

/-!
# Role labels over whole runs

The label rule of the stored rows, `Labels`, is kept by every request. The two
validators guard it differently: `validate_role_labels` reads a whole payload,
`_require_unique_label` counts stored rows. Both come down to the `Disciplined`
role rows of a campaign, so each request needs one step lemma: the rows it
leaves are disciplined again.

A request that would break the rule is rejected: what it would store, were its
validations left out (`Request.unchecked`), is compared with what it does.
-/

namespace IsalesApi.Config

open Foundation

/-- Referee and persona rows have a label that is not blank, and no two of one
kind in one campaign share it. -/
structure Labels (db : Database) : Prop where
  notBlank : ∀ r ∈ db.roles, r.kind.labelled = true → blank r.label = false
  distinct : ∀ r ∈ db.roles, ∀ s ∈ db.roles, r.campaignId = s.campaignId →
    r.kind.labelled = true → r.kind = s.kind → r.label = s.label → r = s

/-! ## Disciplined rows -/

section Disciplined

variable {α : Type} [Labelled α] {rows : List α}

theorem Disciplined.sublist {rows' : List α} (h : Disciplined rows)
    (hsub : rows'.Sublist rows) : Disciplined rows' :=
  ⟨fun r hr => h.notBlank r (hsub.subset hr), h.distinct.sublist hsub⟩

/-- Rows of a disciplined list are told apart by kind and label. -/
theorem Disciplined.eq_of_label {r s : α} (h : Disciplined rows) (hr : r ∈ rows) (hs : s ∈ rows)
    (hk : (kind r).labelled = true) (hkind : kind r = kind s) (hlabel : label r = label s) :
    r = s := by
  by_contra hne
  have hsymm : Std.Symm fun rc rd : α =>
      (kind rc).labelled = true → kind rc = kind rd → label rc ≠ label rd :=
    ⟨fun rc rd hpair hkd hkdc heq => hpair (hkdc ▸ hkd) hkdc.symm heq.symm⟩
  exact h.distinct.forall hr hs hne hk hkind hlabel

theorem disciplined_append_singleton {row : α} :
    Disciplined (rows ++ [row]) ↔ Disciplined rows ∧ ((kind row).labelled = true →
      blank (label row) = false ∧
        ∀ r ∈ rows, kind r = kind row → label r ≠ label row) := by
  constructor
  · intro h
    refine ⟨h.sublist (List.sublist_append_left rows [row]), fun hk => ⟨?_, ?_⟩⟩
    · exact h.notBlank row (List.mem_append_right rows List.mem_cons_self) hk
    · intro r hr hkind
      have hpair := (List.pairwise_append.mp h.distinct).2.2 r hr row List.mem_cons_self
      exact hpair (hkind ▸ hk) hkind
  · rintro ⟨h, hrow⟩
    refine ⟨fun r hr hk => ?_, List.pairwise_append.mpr ⟨h.distinct, by simp, ?_⟩⟩
    · rcases List.mem_append.mp hr with hr | hr
      · exact h.notBlank r hr hk
      · obtain rfl := List.mem_singleton.mp hr
        exact (hrow hk).1
    · rintro r hr s hs hk hkind
      obtain rfl := List.mem_singleton.mp hs
      exact (hrow (hkind ▸ hk)).2 r hr hkind

end Disciplined

theorem disciplined_newRoles {ids : Draws} {c : Int} {rcs : List RoleConfigNestedWrite} :
    Disciplined (newRoles ids c rcs) ↔ Disciplined rcs := by
  have hrows := @newRoles_toNested ids c rcs
  constructor
  · rintro ⟨hblank, hdistinct⟩
    rw [← hrows]
    exact ⟨List.forall_mem_map.mpr hblank, List.pairwise_map.mpr hdistinct⟩
  · rintro ⟨hblank, hdistinct⟩
    rw [← hrows] at hblank hdistinct
    exact ⟨List.forall_mem_map.mp hblank, List.pairwise_map.mp hdistinct⟩

theorem rolesOf_nodup (db : Database) (c : Int) : (db.rolesOf c).Nodup :=
  (List.Nodup.of_map key db.roles.unique).filter _

/-- The rule, campaign by campaign. -/
theorem labels_iff {db : Database} : Labels db ↔ ∀ c, Disciplined (db.rolesOf c) := by
  constructor
  · intro h c
    refine ⟨fun r hr => h.notBlank r (Database.mem_rolesOf.mp hr).1, ?_⟩
    refine (rolesOf_nodup db c).pairwise_of_forall_ne fun r hr s hs hne hk hkind hlabel => ?_
    obtain ⟨hr, hrc⟩ := Database.mem_rolesOf.mp hr
    obtain ⟨hs, hsc⟩ := Database.mem_rolesOf.mp hs
    exact hne (h.distinct r hr s hs (hrc.trans hsc.symm) hk hkind hlabel)
  · intro h
    refine ⟨fun r hr => (h r.campaignId).notBlank r (Database.mem_rolesOf.mpr ⟨hr, rfl⟩), ?_⟩
    intro r hr s hs hc hk hkind hlabel
    exact (h r.campaignId).eq_of_label (Database.mem_rolesOf.mpr ⟨hr, rfl⟩)
      (Database.mem_rolesOf.mpr ⟨hs, hc.symm⟩) hk hkind hlabel

/-! ## Steps -/

section Steps

variable {db db' : Database} {validateInterruptionRule : Json → Option String}

/-- A change of one campaign keeps the rule when the rows it leaves there do. -/
theorem Edits.labels {c : Int} {campaign : Option Campaign} {roles : List RoleConfig}
    (h : Edits c campaign roles db db') (hdb : Labels db) (hroles : Disciplined roles) :
    Labels db' := by
  rw [labels_iff] at hdb ⊢
  intro d
  by_cases hd : d = c
  · subst hd
    rw [h.roles_self]
    exact hroles
  · rw [h.roles_other d hd]
    exact hdb d

theorem mem_sameLabel {campaignId : Int} {kind : RoleKind} {label : Option String}
    {excludeId : Option Int} (hk : kind.labelled = true) {r : RoleConfig} :
    r ∈ sameLabel campaignId kind label excludeId db ↔
      r ∈ db.roles ∧ r.campaignId = campaignId ∧ r.label = label ∧ r.kind = kind ∧
        excludeId ≠ some r.id := by
  have hns := @mem_namespace kind r.kind hk
  simp only [sameLabel, Table.mem_select, Bool.and_eq_true, decide_eq_true_eq, hns]
  tauto

/-- The count of `_require_unique_label` decides whether a row can be added. -/
theorem disciplined_insert_iff {row : RoleConfig} (h : Disciplined (db.rolesOf row.campaignId)) :
    Disciplined (db.rolesOf row.campaignId ++ [row]) ↔
      UniqueLabel row.campaignId row.kind row.label none db := by
  rw [disciplined_append_singleton, and_iff_right h]
  refine forall_congr' fun hk => and_congr_right fun _ => ?_
  rw [List.eq_nil_iff_forall_not_mem]
  constructor
  · intro hother r hr
    obtain ⟨hr, hc, hlabel, hkind, _⟩ := (mem_sameLabel hk).mp hr
    exact hother r (Database.mem_rolesOf.mpr ⟨hr, hc⟩) hkind hlabel
  · intro hcount r hr hkind hlabel
    obtain ⟨hr, hc⟩ := Database.mem_rolesOf.mp hr
    exact hcount r ((mem_sameLabel hk).mpr ⟨hr, hc, hlabel, hkind, by simp⟩)

theorem disciplined_rolesAfter {ids : Draws} {c : Int}
    {roleConfigs : Option (List RoleConfigNestedWrite)} {existing : List RoleConfig}
    (hvalid : ∀ rcs, roleConfigs = some rcs → validateRoleLabels rcs = .ok ())
    (h : Disciplined existing) : Disciplined (rolesAfter ids c roleConfigs existing) := by
  cases roleConfigs with
  | none => exact h
  | some rcs => exact disciplined_newRoles.mpr (validateRoleLabels_ok.mp (hvalid rcs rfl))

theorem Labels.storeRole {row fresh : RoleConfig} (hdb : Labels db)
    (hunique : UniqueLabel row.campaignId row.kind row.label none db)
    (h : (Config.storeRole row).run db = .ok (fresh, db')) : Labels db' :=
  (edits_insertRole (run_storeRole h)).labels hdb
    ((disciplined_insert_iff (labels_iff.mp hdb _)).mpr hunique)

/-- The count reads the flushed row, and leaves it out. -/
theorem Labels.updateRole {payload : RoleConfigUpdate} {obj : RoleConfig} (hdb : Labels db)
    (hobj : obj ∈ db.roles) (h : payload.Passes obj db db') : Labels db' := by
  obtain ⟨happly, hunique⟩ := h
  have hrows := (apply_updateRole happly).2
  have hmem : ∀ r, r ∈ db'.roles → r = payload.applyTo obj ∨ r ∈ db.roles ∧ r.id ≠ obj.id := by
    intro r hr
    rw [← Table.mem_rows, hrows] at hr
    obtain ⟨old, hold, rfl⟩ := List.mem_map.mp hr
    by_cases hsame : old.id = obj.id
    · rw [if_pos hsame]
      exact Or.inl (by rw [Table.eq_of_key_eq hold hobj hsame])
    · rw [if_neg hsame]
      exact Or.inr ⟨hold, hsame⟩
  -- the patched row against a row that was not patched
  have hpatched : ∀ s ∈ db'.roles, s.id ≠ obj.id →
      s.campaignId = (payload.applyTo obj).campaignId →
      (payload.applyTo obj).kind.labelled = true → s.kind = (payload.applyTo obj).kind →
      s.label ≠ (payload.applyTo obj).label := by
    intro s hs hne hc hk hkind hlabel
    have hcounted : s ∈ sameLabel (payload.applyTo obj).campaignId (payload.applyTo obj).kind
        (payload.applyTo obj).label (some obj.id) db' :=
      (mem_sameLabel hk).mpr ⟨hs, hc, hlabel, hkind, fun heq => hne (Option.some.inj heq).symm⟩
    rw [(hunique hk).2] at hcounted
    cases hcounted
  constructor
  · intro r hr hk
    rcases hmem r hr with rfl | ⟨hr, _⟩
    · exact (hunique hk).1
    · exact hdb.notBlank r hr hk
  · intro r hr s hs hc hk hkind hlabel
    rcases hmem r hr with rfl | ⟨hr', hrid⟩
    · rcases hmem s hs with rfl | ⟨_, hsid⟩
      · rfl
      · exact absurd hlabel.symm (hpatched s hs hsid hc.symm hk hkind.symm)
    · rcases hmem s hs with rfl | ⟨hs', _⟩
      · exact absurd hlabel (hpatched r hr hrid hc (hkind ▸ hk) hkind)
      · exact hdb.distinct r hr' s hs' hc hk hkind hlabel

theorem Labels.deleteRole {id : Int} (hdb : Labels db)
    (h : db.apply (.deleteRole id) = some db') : Labels db' := by
  rw [labels_iff] at hdb ⊢
  intro c
  rw [rolesOf_eq, (apply_deleteRole h).2, List.filter_filter]
  refine (hdb c).sublist ?_
  rw [rolesOf_eq]
  exact List.monotone_filter_right _ fun r hr => (Bool.and_eq_true _ _ ▸ hr).1

theorem Labels.storeCampaign {ids : Draws} {payload : CampaignNestedCreate}
    {d : CampaignDetailRead} (hdb : Labels db)
    (hvalid : validateRoleLabels payload.roleConfigs = .ok ())
    (h : (Config.storeCampaign ids payload).run db = .ok (d, db')) : Labels db' :=
  (edits_storeCampaign h).labels hdb
    (disciplined_newRoles.mpr (validateRoleLabels_ok.mp hvalid))

theorem Labels.patchCampaign {ids : Draws} {campaign : Campaign} {payload : CampaignNestedUpdate}
    {d : CampaignDetailRead} (hdb : Labels db)
    (hrow : db.campaign campaign.id = some campaign)
    (hvalid : ∀ rcs, payload.roleConfigs = some rcs → validateRoleLabels rcs = .ok ())
    (h : (Config.patchCampaign ids campaign payload).run db = .ok (d, db')) : Labels db' :=
  (edits_patchCampaign hrow h).labels hdb
    (disciplined_rolesAfter hvalid (labels_iff.mp hdb _))

theorem Labels.flushCampaign {campaign : Campaign} {set : CampaignSet} (hdb : Labels db)
    (hrow : db.campaign campaign.id = some campaign)
    (h : (Config.flushCampaign campaign set).run db = .ok ((), db')) : Labels db' :=
  (edits_flushCampaign hrow h).labels hdb (labels_iff.mp hdb _)

theorem Labels.deleteCampaign {id : Int} (hdb : Labels db)
    (h : db.apply (.deleteCampaign id) = some db') : Labels db' :=
  (edits_deleteCampaign h).labels hdb ⟨by simp, List.Pairwise.nil⟩

theorem campaign_id {id : Int} {c : Campaign} (h : db.campaign id = some c) :
    db.campaign c.id = some c := by
  obtain ⟨_, rfl⟩ := Database.campaign_eq_some.mp h
  exact h

end Steps

/-! ## Requests without their validations -/

/-- What the handler of a request stores when its validations are left out. -/
def Request.unchecked : Request → Handler Unit
  | .createCampaign ids payload => (storeCampaign ids payload).bind fun _ => .done ()
  | .updateCampaign ids id payload =>
    (getOr404 (Database.campaign id) "campaign_not_found").bind fun campaign =>
      (patchCampaign ids campaign payload).bind fun _ => .done ()
  | .replaceRoutingRules id payload =>
    (getOr404 (Database.campaign id) "campaign_not_found").bind fun campaign =>
      flushCampaign campaign payload.set
  | .deleteCampaign id => Config.deleteCampaign id
  | .createRoleConfig id payload => (storeRole (payload.row id)).bind fun _ => .done ()
  | .updateRoleConfig id payload =>
    (getOr404 (Database.role id) "role_config_not_found").bind fun _ =>
      Prog.exec (.updateRole id payload)
  | .deleteRoleConfig id =>
    (getOr404 (Database.role id) "role_config_not_found").bind fun _ =>
      Prog.exec (.deleteRole id)

section Requests

variable {db db' : Database} {validateInterruptionRule : Json → Option String}

theorem run_discard {α : Type} {h : Handler α} :
    (h.bind fun _ => .done ()).run db = .ok ((), db') ↔ ∃ a, h.run db = .ok (a, db') := by
  rw [Prog.run_map_ok]
  simp only [and_true]

/-- An accepted request keeps the rule, and stores what it stores without its
validations. -/
theorem Labels.accepted {r : Request} {a : Answer} (hdb : Labels db)
    (h : (r.handler validateInterruptionRule).run db = .ok (a, db')) :
    Labels db' ∧ r.unchecked.run db = .ok ((), db') := by
  cases r with
  | createCampaign ids payload =>
    obtain ⟨d, h, _⟩ := run_answer.mp h
    obtain ⟨hvalid, hstore⟩ := run_createCampaign h
    exact ⟨hdb.storeCampaign (hvalid.labels _ rfl) hstore, run_discard.mpr ⟨d, hstore⟩⟩
  | updateCampaign ids id payload =>
    obtain ⟨d, h, _⟩ := run_answer.mp h
    obtain ⟨campaign, hrow, hvalid, hpatch⟩ := run_updateCampaign h
    exact ⟨hdb.patchCampaign (campaign_id hrow) hvalid.labels hpatch,
      run_getOr404.mpr ⟨campaign, hrow, run_discard.mpr ⟨d, hpatch⟩⟩⟩
  | replaceRoutingRules id payload =>
    obtain ⟨read, h, _⟩ := run_answer.mp h
    obtain ⟨campaign, hrow, _, hflush⟩ := run_replaceRoutingRules h
    exact ⟨hdb.flushCampaign (campaign_id hrow) hflush,
      run_getOr404.mpr ⟨campaign, hrow, hflush⟩⟩
  | deleteCampaign id =>
    obtain ⟨_, h, _⟩ := run_answer.mp h
    exact ⟨hdb.deleteCampaign (run_deleteCampaign h), h⟩
  | createRoleConfig id payload =>
    obtain ⟨row, h, _⟩ := run_answer.mp h
    obtain ⟨hunique, hstore⟩ := run_createRoleConfig h
    exact ⟨hdb.storeRole hunique hstore, run_discard.mpr ⟨row, hstore⟩⟩
  | updateRoleConfig id payload =>
    obtain ⟨row, h, _⟩ := run_answer.mp h
    obtain ⟨obj, hobj, hpasses⟩ := run_updateRoleConfig h
    obtain ⟨hstored, rfl⟩ := Database.role_eq_some.mp hobj
    exact ⟨hdb.updateRole hstored hpasses,
      run_getOr404.mpr ⟨obj, hobj, Prog.run_exec_ok.mpr hpasses.1⟩⟩
  | deleteRoleConfig id =>
    obtain ⟨_, h, _⟩ := run_answer.mp h
    obtain ⟨obj, hobj, _, happly⟩ := run_deleteRoleConfig h
    exact ⟨hdb.deleteRole happly, run_getOr404.mpr ⟨obj, hobj, Prog.run_exec_ok.mpr happly⟩⟩

/-- When `_require_unique_label` raises, it is a 422 or the flush was refused. -/
theorem requireUniqueLabel_error {pending : Handler Unit} {campaignId : Int} {kind : RoleKind}
    {label : Option String} {excludeId : Option Int} {e : HttpException}
    (h : (requireUniqueLabel pending campaignId kind label excludeId).run db = .error e) :
    e.status = 422 ∨ pending.run db = .error e := by
  unfold requireUniqueLabel at h
  split at h
  · cases h
  · split at h
    · cases h
      exact Or.inl rfl
    · rcases Prog.run_bind_error.mp h with hpending | ⟨_, m, _, h⟩
      · exact Or.inr hpending
      · rw [Prog.bind_eq, Prog.run_select_bind, Prog.run_raiseIf_error] at h
        exact Or.inl (by rw [h.2]; rfl)

theorem validateInterruptionRules_status {rules : Json} {e : HttpException}
    (h : validateInterruptionRules validateInterruptionRule rules = .error e) :
    e.status = 422 := by
  unfold validateInterruptionRules at h
  split at h
  · cases h
  · split at h
    · cases h
    · cases h
      rfl

theorem validateRefereeRouting_status {campaign : Option Campaign}
    {roleConfigs : Option (List RoleConfigNestedWrite)}
    {routingRules : Option (List RoutingRule)} {tools : Option Tools} {toolsSet : Bool}
    {e : HttpException}
    (h : (validateRefereeRouting campaign roleConfigs routingRules tools toolsSet).run db =
      .error e) : e.status = 422 := by
  rcases Prog.run_bind_error.mp h with hlabels | ⟨labels, m, _, hrules⟩
  · cases roleConfigs with
    | some rcs =>
      rcases Prog.run_bind_error.mp hlabels with hvalid | ⟨_, _, _, hdone⟩
      · exact validateRoleLabels_status (Prog.run_check_error.mp hvalid)
      · cases hdone
    | none => cases campaign <;> cases hlabels
  · exact validateRoutingRules_status (Prog.run_check_error.mp hrules)

/-- When the part after the checks succeeds, it is a check that raises. -/
theorem check_error {α β : Type} {check : Handler α} {store : α → Handler β} {e : HttpException}
    (h : (check.bind store).run db = .error e)
    (hstore : ∀ a m, check.run db = .ok (a, m) → ∃ r, (store a).run m = .ok r) :
    check.run db = .error e := by
  rcases Prog.run_bind_error.mp h with h | ⟨a, m, hm, h⟩
  · exact h
  · obtain ⟨r, hr⟩ := hstore a m hm
    rw [h] at hr
    cases hr

theorem run_answer_error {α : Type} {answer : α → Answer} {h : Handler α} {e : HttpException}
    (he : (Answer.of answer h).run db = .error e) : h.run db = .error e :=
  check_error he fun a m _ => ⟨(answer a, m), rfl⟩

theorem validatePatch_status {campaign : Campaign} {payload : CampaignNestedUpdate}
    {e : HttpException}
    (h : (validatePatch validateInterruptionRule campaign payload).run db = .error e) :
    e.status = 422 := by
  rcases Prog.run_bind_error.mp h with hrules | ⟨_, m, _, h⟩
  · exact validateInterruptionRules_status (Prog.run_check_error.mp hrules)
  · exact validateRefereeRouting_status h

/-- A request that would break the label rule raises a 422. -/
theorem rejected_of_breaks {r : Request} {e : HttpException} (hdb : Labels db)
    (hstore : r.unchecked.run db = .ok ((), db')) (hbad : ¬ Labels db')
    (h : (r.handler validateInterruptionRule).run db = .error e) : e.status = 422 := by
  cases r with
  | createCampaign ids payload =>
    obtain ⟨d, hstore⟩ := run_discard.mp hstore
    rcases Prog.run_bind_error.mp (run_answer_error h) with hrules | ⟨_, m, hm, h⟩
    · exact validateInterruptionRules_status (Prog.run_check_error.mp hrules)
    · -- if its own check passed, the row would have been stored
      cases (Prog.run_check_ok.mp hm).2
      refine validateRefereeRouting_status (check_error h fun _ n hn => ⟨(d, db'), ?_⟩)
      rw [(run_validateRefereeRouting hn).2]
      exact hstore
  | updateCampaign ids id payload =>
    obtain ⟨campaign, hrow, hstore⟩ := run_getOr404.mp hstore
    obtain ⟨d, hstore⟩ := run_discard.mp hstore
    have herr := run_getOr404_error hrow (run_answer_error h)
    refine validatePatch_status (check_error herr fun _ n hn => ⟨(d, db'), ?_⟩)
    rw [(run_validatePatch hn).2]
    exact hstore
  | replaceRoutingRules id payload =>
    obtain ⟨campaign, hrow, hflush⟩ := run_getOr404.mp hstore
    exact absurd (hdb.flushCampaign (campaign_id hrow) hflush) hbad
  | deleteCampaign id => exact absurd (hdb.deleteCampaign (run_deleteCampaign hstore)) hbad
  | createRoleConfig id payload =>
    obtain ⟨row, hstore⟩ := run_discard.mp hstore
    have hcheck := check_error (run_answer_error h) fun _ m hm => ⟨(row, db'), by
      rw [(run_requireUniqueLabel_insert hm).2]
      exact hstore⟩
    rcases requireUniqueLabel_error hcheck with hstatus | hpending
    · exact hstatus
    · cases hpending
  | updateRoleConfig id payload =>
    obtain ⟨obj, hobj, hflush⟩ := run_getOr404.mp hstore
    obtain ⟨hstored, rfl⟩ := Database.role_eq_some.mp hobj
    have herr := run_getOr404_error hobj (run_answer_error h)
    rcases Prog.run_bind_error.mp herr with hcheck | ⟨_, m, hcheck, _⟩
    · rcases requireUniqueLabel_error hcheck with hstatus | hrefused
      · exact hstatus
      · rw [hflush] at hrefused
        cases hrefused
    · -- the count has passed, on the row as the request stores it
      have hunique : UniqueLabel (payload.applyTo obj).campaignId (payload.applyTo obj).kind
          (payload.applyTo obj).label (some obj.id) db' := by
        intro hk
        obtain ⟨hflushed, hunique⟩ := (run_requireUniqueLabel hk).mp hcheck
        rw [hflush] at hflushed
        cases hflushed
        exact hunique hk
      exact absurd (hdb.updateRole hstored ⟨Prog.run_exec_ok.mp hflush, hunique⟩) hbad
  | deleteRoleConfig id =>
    obtain ⟨_, _, happly⟩ := run_getOr404.mp hstore
    exact absurd (hdb.deleteRole (Prog.run_exec_ok.mp happly)) hbad

/-! ## Over whole runs -/

theorem labels_empty (schema : Schema) : Labels (Database.empty schema) where
  notBlank r hr := absurd hr (Table.not_mem_empty r)
  distinct r hr := absurd hr (Table.not_mem_empty r)

theorem Labels.respond {r : Request} (hdb : Labels db) :
    Labels (respond validateInterruptionRule db r).2 := by
  unfold Config.respond Prog.session
  cases h : (r.handler validateInterruptionRule).run db with
  | ok x => exact (hdb.accepted h).1
  | error e => exact hdb

/-- Stored as it is, the request would break the label rule. -/
def Breaks (db : Database) (r : Request) : Prop :=
  ∃ db', r.unchecked.run db = .ok ((), db') ∧ ¬ Labels db'

/-- The request is answered with a 422 and stores nothing. -/
def Rejected (validateInterruptionRule : Json → Option String) (db : Database) (r : Request) :
    Prop :=
  ∃ detail, respond validateInterruptionRule db r = (.error (unprocessable detail), db)

theorem Labels.rejected {r : Request} (hdb : Labels db) (h : Breaks db r) :
    Rejected validateInterruptionRule db r := by
  obtain ⟨db', hstore, hbad⟩ := h
  cases hrun : (r.handler validateInterruptionRule).run db with
  | ok x =>
    obtain ⟨hgood, hstored⟩ := hdb.accepted hrun
    rw [hstore] at hstored
    cases hstored
    exact absurd hgood hbad
  | error e =>
    have hstatus := rejected_of_breaks hdb hstore hbad hrun
    refine ⟨e.detail, Prog.session_error.mpr ⟨?_, rfl⟩⟩
    rw [hrun, unprocessable, ← hstatus]

/-- **Label discipline.** Over any sequence of requests from the empty database
the label rule holds, and a request that would break it is rejected. -/
theorem label_discipline (validateInterruptionRule : Json → Option String) (schema : Schema)
    (rs : List Request) :
    Always (serve validateInterruptionRule)
      (fun db => Labels db ∧ ∀ r, Breaks db r → Rejected validateInterruptionRule db r)
      (Database.empty schema) rs := by
  have hlabels : Always (serve validateInterruptionRule) Labels (Database.empty schema) rs := by
    refine always_of_step (fun db r db' hdb h => ?_) (labels_empty schema) rs
    cases h
    exact hdb.respond
  exact hlabels.mono fun db hdb => ⟨hdb, fun r h => hdb.rejected h⟩

end Requests

end IsalesApi.Config
