import IsalesApi.Config.Accepted

/-!
# One patch after another

A patch of `update_campaign` sets columns, where `null` is a value like any
other, and replaces child lists, where `null` is no list. Up to the ids of child
rows an accepted patch acts on the configuration of its campaign field by field,
so two of them compose field by field: the later one wins where it sets
something.
-/

namespace IsalesApi.Config

open Foundation

variable {db db' m : Database}

/-! ## Callback rows -/

/-- The callback rows `_replace_children` leaves. -/
def callbacksAfter (ids : Draws) (c : Int)
    (callbackConfigs : Option (List CallbackConfigNestedWrite)) (existing : List CallbackConfig) :
    List CallbackConfig :=
  match callbackConfigs with
  | none => existing
  | some cbs => newCallbacks ids c cbs

theorem callbacksOf_eq (d : Int) :
    db.callbacksOf d = db.callbacks.rows.filter fun r => r.campaignId = d := rfl

theorem callbacksOf_congr (h : db'.callbacks = db.callbacks) (d : Int) :
    db'.callbacksOf d = db.callbacksOf d := by
  rw [Database.callbacksOf, h]
  rfl

/-- The writes that no callback row notices. -/
def Write.leavesCallbacks : Write → Bool
  | .deleteCampaign _ | .insertCallback _ | .deleteCallbackOf _ _ => false
  | _ => true

theorem apply_leavesCallbacks {w : Write} (h : db.apply w = some db')
    (hw : w.leavesCallbacks = true) : db'.callbacks = db.callbacks := by
  cases w with
  | deleteCampaign id => cases hw
  | insertCallback row => cases hw
  | deleteCallbackOf id c => cases hw
  | deleteRole id =>
    cases h
    rfl
  | deleteRoleOf id c =>
    cases h
    rfl
  | insertCampaign row =>
    simp only [Database.apply] at h
    split at h
    · obtain ⟨t, _, rfl⟩ := Option.map_eq_some_iff.mp h
      rfl
    · cases h
  | insertRole row =>
    simp only [Database.apply] at h
    split at h
    · obtain ⟨t, _, rfl⟩ := Option.map_eq_some_iff.mp h
      rfl
    · cases h
  | updateCampaign id set =>
    simp only [Database.apply] at h
    split at h
    · cases h
    · split at h
      · cases h
        rfl
      · cases h
  | updateRole id set =>
    simp only [Database.apply] at h
    split at h
    · cases h
    · split at h
      · cases h
        rfl
      · cases h

theorem applyAll_leavesCallbacks {ws : List Write} (hws : ∀ w ∈ ws, w.leavesCallbacks = true)
    (h : applyAll ws db = some db') : db'.callbacks = db.callbacks := by
  induction ws generalizing db with
  | nil =>
    cases h
    rfl
  | cons w ws ih =>
    obtain ⟨m, hm, h⟩ := applyAll_cons.mp h
    have hrest := ih (fun v hv => hws v (List.mem_cons_of_mem w hv)) h
    exact hrest.trans (apply_leavesCallbacks hm (hws w List.mem_cons_self))

theorem applyAll_insertCallbacks {rows : List CallbackConfig}
    (h : applyAll (rows.map Write.insertCallback) db = some db') :
    db'.callbacks.rows = db.callbacks.rows ++ rows := by
  induction rows generalizing db with
  | nil =>
    cases h
    simp
  | cons row rows ih =>
    obtain ⟨m, hm, h⟩ := applyAll_cons.mp h
    have hinsert : m.callbacks.rows = db.callbacks.rows ++ [row] := by
      change db.apply (.insertCallback row) = some m at hm
      simp only [Database.apply] at hm
      split at hm
      · obtain ⟨t, ht, rfl⟩ := Option.map_eq_some_iff.mp hm
        exact (Table.insert_eq_some.mp ht).2
      · cases hm
    rw [ih h, hinsert, List.append_assoc, List.singleton_append]

theorem applyAll_deleteCallbacksOf {ids : List Int} {c : Int}
    (h : applyAll (ids.map fun id => Write.deleteCallbackOf id c) db = some db') :
    db'.callbacks.rows =
      db.callbacks.rows.filter fun r => ¬ (r.id ∈ ids ∧ r.campaignId = c) := by
  induction ids generalizing db with
  | nil =>
    cases h
    simp
  | cons id ids ih =>
    obtain ⟨m, hm, h⟩ := applyAll_cons.mp h
    have hdelete : m.callbacks.rows =
        db.callbacks.rows.filter fun r => ¬ (r.id = id ∧ r.campaignId = c) := by
      cases hm
      simp [Table.delete]
    rw [ih h, hdelete, List.filter_filter]
    apply List.filter_congr
    intro r _
    rw [← Bool.decide_and, decide_eq_decide, List.mem_cons]
    tauto

theorem newCallbacks_campaignId (ids : Draws) (c : Int) (cbs : List CallbackConfigNestedWrite) :
    ∀ r ∈ newCallbacks ids c cbs, r.campaignId = c := by
  intro r hr
  obtain ⟨i, _, rfl⟩ := List.mem_mapIdx.mp hr
  rfl

/-- The new rows are the payload's, in order. -/
theorem newCallbacks_toNested {ids : Draws} {c : Int} {cbs : List CallbackConfigNestedWrite} :
    (newCallbacks ids c cbs).map CallbackConfig.toCallbackConfigNestedWrite = cbs := by
  apply List.ext_getElem?
  intro i
  rw [List.getElem?_map, newCallbacks, List.getElem?_mapIdx, Option.map_map]
  cases cbs[i]? with
  | none => rfl
  | some cb => rfl

theorem callbacks_replaceRoles {ids : Draws} {c : Int}
    {roleConfigs : Option (List RoleConfigNestedWrite)}
    (h : (replaceRoles ids c roleConfigs).run db = .ok ((), db')) :
    db'.callbacks = db.callbacks := by
  cases roleConfigs with
  | none =>
    cases h
    rfl
  | some rcs =>
    obtain ⟨_, m, hdel, hins⟩ := Prog.run_bind_ok.mp h
    have hdel' := applyAll_leavesCallbacks (by simp [Write.leavesCallbacks])
      (Prog.run_execWhere_ok.mp hdel)
    have hins' := applyAll_leavesCallbacks (by simp [Write.leavesCallbacks])
      (Prog.run_execAll_ok.mp hins)
    exact hins'.trans hdel'

theorem callbacks_flushCampaign {campaign : Campaign} {set : CampaignSet}
    (h : (flushCampaign campaign set).run db = .ok ((), db')) : db'.callbacks = db.callbacks := by
  unfold flushCampaign at h
  simp only at h
  split at h
  · cases h
    rfl
  · exact apply_leavesCallbacks (Prog.run_exec_ok.mp h) rfl

theorem callbacks_replaceCallbacks {ids : Draws} {c : Int}
    {callbackConfigs : Option (List CallbackConfigNestedWrite)}
    (h : (replaceCallbacks ids c callbackConfigs).run db = .ok ((), db')) :
    db'.callbacksOf c = callbacksAfter ids c callbackConfigs (db.callbacksOf c) ∧
      ∀ d, d ≠ c → db'.callbacksOf d = db.callbacksOf d := by
  cases callbackConfigs with
  | none =>
    cases h
    exact ⟨rfl, fun _ _ => rfl⟩
  | some cbs =>
    obtain ⟨_, m, hdel, hins⟩ := Prog.run_bind_ok.mp h
    have hdel' : applyAll (((db.callbacksOf c).map CallbackConfig.id).map fun id =>
        Write.deleteCallbackOf id c) db = some m := by
      rw [List.map_map]
      exact Prog.run_execWhere_ok.mp hdel
    have hkept : m.callbacks.rows = db.callbacks.rows.filter fun r => r.campaignId ≠ c := by
      rw [applyAll_deleteCallbacksOf hdel']
      apply List.filter_congr
      intro r hr
      rw [decide_eq_decide]
      refine not_congr ⟨And.right, fun hc => ⟨?_, hc⟩⟩
      exact List.mem_map_of_mem (List.mem_filter.mpr ⟨hr, by simpa using hc⟩)
    have hrows := applyAll_insertCallbacks (Prog.run_execAll_ok.mp hins)
    have hnew := newCallbacks_campaignId ids c cbs
    refine ⟨?_, fun d hd => ?_⟩
    · have hall : (newCallbacks ids c cbs).filter (fun r => r.campaignId = c) =
          newCallbacks ids c cbs := List.filter_eq_self.mpr fun r hr => by simpa using hnew r hr
      rw [callbacksOf_eq, hrows, hkept, List.filter_append, List.filter_filter, hall]
      simp [callbacksAfter]
    · have hnone : (newCallbacks ids c cbs).filter (fun r => r.campaignId = d) = [] :=
        List.filter_eq_nil_iff.mpr fun r hr => by simpa [hnew r hr] using Ne.symm hd
      rw [callbacksOf_eq, hrows, hkept, List.filter_append, List.filter_filter, hnone,
        List.append_nil, callbacksOf_eq]
      apply List.filter_congr
      intro r _
      rw [← Bool.decide_and, decide_eq_decide]
      constructor
      · exact And.left
      · rintro rfl
        exact ⟨rfl, hd⟩

/-! ## The configuration of a campaign -/

/-- A campaign with its child rows, up to their ids. -/
structure Configured where
  campaign : Campaign
  roleConfigs : List RoleConfigNestedWrite
  callbackConfigs : List CallbackConfigNestedWrite

def Database.configured (db : Database) (c : Int) : Option Configured :=
  (db.campaign c).map fun campaign =>
    { campaign
      roleConfigs := (db.rolesOf c).map RoleConfig.toRoleConfigNestedWrite
      callbackConfigs := (db.callbacksOf c).map CallbackConfig.toCallbackConfigNestedWrite }

/-- What a patch makes of a configuration. -/
def CampaignNestedUpdate.patch (payload : CampaignNestedUpdate) (x : Configured) : Configured where
  campaign := payload.baseFields.applyTo x.campaign
  roleConfigs := payload.roleConfigs.getD x.roleConfigs
  callbackConfigs := payload.callbackConfigs.getD x.callbackConfigs

/-- Two databases agree on a campaign and its child rows. -/
def SameCampaign (d : Int) (db db' : Database) : Prop :=
  db'.campaign d = db.campaign d ∧ db'.rolesOf d = db.rolesOf d ∧
    db'.callbacksOf d = db.callbacksOf d

variable {validateInterruptionRule : Json → Option String}

/-- **What an accepted patch does**: it acts on the configuration of its
campaign, and no other campaign changes. -/
theorem configured_updateCampaign {ids : Draws} {id : Int} {payload : CampaignNestedUpdate}
    {detail : CampaignDetailRead}
    (h : (updateCampaign validateInterruptionRule ids id payload).run db = .ok (detail, db')) :
    (∃ x, db.configured id = some x ∧ db'.configured id = some (payload.patch x)) ∧
      ∀ d, d ≠ id → SameCampaign d db db' := by
  obtain ⟨campaign, hrow, _, hpatch⟩ := run_updateCampaign h
  obtain ⟨_, rfl⟩ := Database.campaign_eq_some.mp hrow
  have hedits := edits_patchCampaign hrow hpatch
  obtain ⟨_, m, hflush, hpatch⟩ := Prog.run_bind_ok.mp hpatch
  obtain ⟨_, n, hchildren, hload⟩ := Prog.run_bind_ok.mp hpatch
  obtain rfl := run_loadDetail hload
  obtain ⟨_, o, hroles, hcallbacks⟩ := Prog.run_bind_ok.mp hchildren
  have hbefore : o.callbacks = db.callbacks :=
    (callbacks_replaceRoles hroles).trans (callbacks_flushCampaign hflush)
  obtain ⟨hself, hother⟩ := callbacks_replaceCallbacks hcallbacks
  rw [callbacksOf_congr hbefore] at hself
  refine ⟨⟨_, by rw [Database.configured, hrow]; rfl, ?_⟩, fun d hd => ?_⟩
  · rw [Database.configured, hedits.campaign_self, hedits.roles_self, hself]
    simp only [Option.map_some, CampaignNestedUpdate.patch, Option.some.injEq,
      Configured.mk.injEq, true_and]
    constructor
    · cases payload.roleConfigs with
      | none => rfl
      | some rcs => exact newRoles_toNested
    · cases payload.callbackConfigs with
      | none => rfl
      | some cbs => exact newCallbacks_toNested
  · exact ⟨hedits.campaign_other d hd, hedits.roles_other d hd,
      (hother d hd).trans (callbacksOf_congr hbefore d)⟩

/-! ## Two patches -/

/-- Each field of the second configuration has the value the later of two
patches sets, or else the one the earlier sets, or else the old one. -/
structure LastSet (p q : CampaignNestedUpdate) (x y : Configured) : Prop where
  id : y.campaign.id = x.campaign.id
  routingRules : y.campaign.routingRules =
    (q.baseFields.routingRules <|> p.baseFields.routingRules).getD x.campaign.routingRules
  tools : y.campaign.tools = (q.baseFields.tools <|> p.baseFields.tools).getD x.campaign.tools
  columns : ∀ k, y.campaign.columns k =
    (q.baseFields.columns.lookup k <|> p.baseFields.columns.lookup k).getD (x.campaign.columns k)
  roleConfigs : y.roleConfigs = (q.roleConfigs <|> p.roleConfigs).getD x.roleConfigs
  callbackConfigs : y.callbackConfigs =
    (q.callbackConfigs <|> p.callbackConfigs).getD x.callbackConfigs

/-- No field is set by both. -/
structure SetApart (p q : CampaignNestedUpdate) : Prop where
  routingRules : p.baseFields.routingRules = none ∨ q.baseFields.routingRules = none
  tools : p.baseFields.tools = none ∨ q.baseFields.tools = none
  columns : ∀ k, p.baseFields.columns.lookup k = none ∨ q.baseFields.columns.lookup k = none
  roleConfigs : p.roleConfigs = none ∨ q.roleConfigs = none
  callbackConfigs : p.callbackConfigs = none ∨ q.callbackConfigs = none

section Fields

variable {α : Type} {new later : Option α} {old : α}

theorem getD_getD : later.getD (new.getD old) = (later <|> new).getD old := by
  cases later <;> rfl

/-- Values set apart may come in either order. -/
theorem getD_comm (h : new = none ∨ later = none) :
    later.getD (new.getD old) = new.getD (later.getD old) := by
  rcases h with rfl | rfl <;> rfl

end Fields

variable {p q : CampaignNestedUpdate} {x : Configured}

theorem lastSet_patch : LastSet p q x (q.patch (p.patch x)) where
  id := rfl
  routingRules := getD_getD
  tools := getD_getD
  columns _ := getD_getD
  roleConfigs := getD_getD
  callbackConfigs := getD_getD

/-- A patch changes nothing more the second time. -/
theorem patch_patch : p.patch (p.patch x) = p.patch x := by
  have htwice : ∀ {α : Type} (new : Option α) (old : α),
      new.getD (new.getD old) = new.getD old := by
    intro α new old
    cases new <;> rfl
  simp only [CampaignNestedUpdate.patch, CampaignSet.applyTo, htwice]

/-- Patches set apart commute. -/
theorem patch_comm (h : SetApart p q) : q.patch (p.patch x) = p.patch (q.patch x) := by
  have hcolumns : ∀ k, (q.baseFields.columns.lookup k).getD
      ((p.baseFields.columns.lookup k).getD (x.campaign.columns k)) =
      (p.baseFields.columns.lookup k).getD
        ((q.baseFields.columns.lookup k).getD (x.campaign.columns k)) :=
    fun k => getD_comm (h.columns k)
  simp only [CampaignNestedUpdate.patch, CampaignSet.applyTo, hcolumns,
    getD_comm h.routingRules, getD_comm h.tools, getD_comm h.roleConfigs,
    getD_comm h.callbackConfigs]

/-- **Patches compose field by field.** Of two patches accepted one after the
other the later wins where it sets something, and no other campaign changes. So
a patch that is accepted twice leaves what it left the first time, and patches
that set different fields leave the same in either order. -/
theorem patches_compose (validateInterruptionRule : Json → Option String) (id : Int)
    (p q : CampaignNestedUpdate) :
    let accepts := fun payload db db' => ∃ ids detail,
      (updateCampaign validateInterruptionRule ids id payload).run db = .ok (detail, db')
    (∀ db m db', accepts p db m → accepts q m db' →
      (∃ x y, db.configured id = some x ∧ db'.configured id = some y ∧ LastSet p q x y) ∧
        ∀ d, d ≠ id → SameCampaign d db db') ∧
    (∀ db m db', accepts p db m → accepts p m db' → db'.configured id = m.configured id) ∧
    (SetApart p q → ∀ db m m' db' db'', accepts p db m → accepts q m db' → accepts q db m' →
      accepts p m' db'' → db'.configured id = db''.configured id) := by
  intro accepts
  have hpatch : ∀ {payload : CampaignNestedUpdate} {db db' : Database} {x : Configured},
      accepts payload db db' → db.configured id = some x →
      db'.configured id = some (payload.patch x) := by
    rintro payload db db' x ⟨ids, detail, h⟩ hx
    obtain ⟨y, hy, hafter⟩ := (configured_updateCampaign h).1
    cases hx.symm.trans hy
    exact hafter
  have hstored : ∀ {payload : CampaignNestedUpdate} {db db' : Database},
      accepts payload db db' → ∃ x, db.configured id = some x := by
    rintro payload db db' ⟨ids, detail, h⟩
    obtain ⟨x, hx, _⟩ := (configured_updateCampaign h).1
    exact ⟨x, hx⟩
  refine ⟨?_, ?_, ?_⟩
  · intro db m db' hp hq
    obtain ⟨x, hx⟩ := hstored hp
    refine ⟨⟨x, _, hx, hpatch hq (hpatch hp hx), lastSet_patch⟩, fun d hd => ?_⟩
    obtain ⟨ids, detail, hp⟩ := hp
    obtain ⟨ids', detail', hq⟩ := hq
    obtain ⟨hcampaign, hroles, hcallbacks⟩ := (configured_updateCampaign hp).2 d hd
    obtain ⟨hcampaign', hroles', hcallbacks'⟩ := (configured_updateCampaign hq).2 d hd
    exact ⟨hcampaign'.trans hcampaign, hroles'.trans hroles, hcallbacks'.trans hcallbacks⟩
  · intro db m db' hp hp'
    obtain ⟨x, hx⟩ := hstored hp
    rw [hpatch hp' (hpatch hp hx), hpatch hp hx, patch_patch]
  · intro hapart db m m' db' db'' hp hq hq' hp'
    obtain ⟨x, hx⟩ := hstored hp
    rw [hpatch hq (hpatch hp hx), hpatch hp' (hpatch hq' hx), patch_comm hapart]

/-- A campaign without rules and rows. -/
def plainDatabase : Database where
  schema := ⟨fun _ => true, fun _ => true, fun _ => true⟩
  campaigns := ⟨[⟨4, none, none, fun _ => Json.null⟩], List.nodup_singleton _⟩
  roles := .empty
  callbacks := .empty

/-- A greeting, and one role row. -/
def greetingPatch : CampaignNestedUpdate where
  baseFields := ⟨none, none, [(.greeting, ⟨"\"hello\""⟩)]⟩
  roleConfigs := some [⟨.main, none, "m", none, 7/10, 1, ⟨"{}"⟩, true⟩]
  callbackConfigs := none

/-- `{"greeting": null}`. -/
def silentPatch : CampaignNestedUpdate where
  baseFields := ⟨none, none, [(.greeting, Json.null)]⟩
  roleConfigs := none
  callbackConfigs := none

/-- What is stored once `greetingPatch` is accepted. -/
def greetedDatabase : Database :=
  match (updateCampaign (fun _ => none) ⟨2, fun _ => 2, fun _ => 2⟩ 4 greetingPatch).run
      plainDatabase with
  | .ok (_, db) => db
  | .error _ => plainDatabase

theorem patches_compose_greeting : ∃ x y, plainDatabase.configured 4 = some x ∧
    LastSet greetingPatch silentPatch x y ∧ y.campaign.columns .greeting = Json.null := by
  have hgreeting : (updateCampaign (fun _ => none) ⟨2, fun _ => 2, fun _ => 2⟩ 4
    greetingPatch).run plainDatabase = .ok (_, greetedDatabase) := rfl
  have hsilent : (updateCampaign (fun _ => none) ⟨2, fun _ => 3, fun _ => 3⟩ 4
    silentPatch).run greetedDatabase = .ok (_, _) := rfl
  obtain ⟨⟨x, y, hx, _, hset⟩, _⟩ := (patches_compose (fun _ => none) 4 greetingPatch
    silentPatch).1 plainDatabase greetedDatabase _ ⟨_, _, hgreeting⟩ ⟨_, _, hsilent⟩
  exact ⟨x, y, hx, hset, hset.columns .greeting⟩

end IsalesApi.Config
