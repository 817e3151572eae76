import IsalesApi.Config.Overlap
import IsalesApi.Config.Patches
import IsalesApi.Foundation.Merging

/-!
# Patches of different fields

`PATCH /campaigns/{id}` and `PUT /campaigns/{id}/routing-rules` set columns of a
campaign and send those whose value differs from the loaded one. Any number of
requests may overlap; as long as no two set one field of a campaign, no field
that was answered is lost, whatever else is written at the same time. The fields
are the columns a request can set, so `created_at` and `updated_at` are none.
-/

namespace IsalesApi.Config

open Foundation

variable {db db' : Database} {c : Int} {validateInterruptionRule : Json → Option String}

/-! ## Fields -/

/-- What an `UPDATE` of a campaign can set. -/
inductive Field where
  | routingRules
  | tools
  | column (k : Column)

def Field.Value : Field → Type
  | .routingRules => Option (List RoutingRule)
  | .tools => Option Tools
  | .column _ => Json

def Campaign.field (row : Campaign) : (f : Field) → f.Value
  | .routingRules => row.routingRules
  | .tools => row.tools
  | .column k => row.columns k

def CampaignSet.field (set : CampaignSet) : (f : Field) → Option f.Value
  | .routingRules => set.routingRules
  | .tools => set.tools
  | .column k => set.columns.lookup k

theorem field_applyTo (set : CampaignSet) (row : Campaign) (f : Field) :
    (set.applyTo row).field f = (set.field f).getD (row.field f) := by
  cases f <;> rfl

/-- A field that is set is sent, or has the value already. -/
theorem field_against (set : CampaignSet) (loaded : Campaign) (f : Field) :
    (set.against loaded).field f = set.field f ∨
      (set.against loaded).field f = none ∧ set.field f = some (loaded.field f) := by
  cases f with
  | routingRules => exact changed_eq_or set.routingRules loaded.routingRules
  | tools => exact changed_eq_or set.tools loaded.tools
  | column k =>
    have hlookup : (set.against loaded).columns.lookup k =
        if set.columns.lookup k ≠ some (loaded.columns k) then set.columns.lookup k else none := by
      unfold CampaignSet.against
      rw [lookup_filter_key fun k => set.columns.lookup k ≠ some (loaded.columns k)]
      simp only [decide_eq_true_eq]
    show (set.against loaded).columns.lookup k = set.columns.lookup k ∨
      (set.against loaded).columns.lookup k = none ∧
        set.columns.lookup k = some (loaded.columns k)
    rw [hlookup]
    by_cases hk : set.columns.lookup k = some (loaded.columns k)
    · exact .inr ⟨if_neg (not_not.mpr hk), hk⟩
    · exact .inl (if_pos hk)

/-- The fields of campaign `c` a request sets. -/
def Request.sets (r : Request) (c : Int) (f : Field) : Option f.Value :=
  match r with
  | .updateCampaign _ id payload => if id = c then payload.baseFields.field f else none
  | .replaceRoutingRules id payload => if id = c then payload.set.field f else none
  | _ => none

/-! ## The writes of campaign rows -/

/-- The writes no campaign row notices. -/
def Write.leavesCampaigns : Write → Bool
  | .insertCampaign _ | .updateCampaign _ _ | .deleteCampaign _ => false
  | _ => true

theorem apply_leavesCampaigns {w : Write} (h : db.apply w = some db')
    (hw : w.leavesCampaigns = true) : db'.campaigns = db.campaigns := by
  cases w with
  | insertCampaign row => cases hw
  | updateCampaign id set => cases hw
  | deleteCampaign id => cases hw
  | insertRole row => exact (apply_insertRole h).1
  | updateRole id set => exact (apply_updateRole h).1
  | deleteRole id => exact (apply_deleteRole h).1
  | deleteRoleOf id d => exact (apply_deleteRoleOf h).1
  | insertCallback row => exact (apply_callback h rfl).1
  | deleteCallbackOf id d => exact (apply_callback h rfl).1

theorem applyAll_leavesCampaigns {ws : List Write} (hws : ∀ w ∈ ws, w.leavesCampaigns = true)
    (h : applyAll ws db = some db') : db'.campaigns = db.campaigns := by
  induction ws generalizing db with
  | nil =>
    cases h
    rfl
  | cons w ws ih =>
    obtain ⟨m, hm, h⟩ := applyAll_cons.mp h
    have hrest := ih (fun v hv => hws v (List.mem_cons_of_mem w hv)) h
    exact hrest.trans (apply_leavesCampaigns hm (hws w List.mem_cons_self))

/-- One write of a campaign row or none comes first, and none after it. -/
def FirstOnly (first : List Write) (ws : List Write) : Prop :=
  ∃ rest, (∀ w ∈ rest, w.leavesCampaigns = true) ∧ ws = first ++ rest

theorem FirstOnly.campaign {first ws : List Write} (h : FirstOnly first ws)
    (happly : applyAll ws db = some db') :
    ∃ m, applyAll first db = some m ∧ ∀ d, db'.campaign d = m.campaign d := by
  obtain ⟨rest, hrest, rfl⟩ := h
  obtain ⟨m, hm, happly⟩ := applyAll_append.mp happly
  exact ⟨m, hm, campaign_congr (applyAll_leavesCampaigns hrest happly)⟩

/-! ## What the requests commit to campaign rows -/

/-- The `UPDATE` of a flush, which is left out when nothing is to be sent. -/
def Sent (loaded : Campaign) (set : CampaignSet) (first : List Write) : Prop :=
  first = [.updateCampaign loaded.id (set.against loaded)] ∨
    first = [] ∧ (set.against loaded).isEmpty = true

variable {see : List Write → Database → Prop} {answer : Answer} {ws : List Write}

theorem leavesCampaigns_replaceChildren {ids : Draws}
    {roleConfigs : Option (List RoleConfigNestedWrite)}
    {callbackConfigs : Option (List CallbackConfigNestedWrite)}
    (h : (replaceChildren ids c roleConfigs callbackConfigs).Ends () ws) :
    ∀ w ∈ ws, w.leavesCampaigns = true := by
  obtain ⟨_, us, last, hroles, hcallbacks, rfl⟩ := Prog.ends_bind.mp h
  obtain ⟨deleted, inserted, _, rfl⟩ := ends_replaceRoles hroles
  intro w hw
  simp only [List.mem_append, List.mem_map] at hw
  rcases hw with (⟨id, _, rfl⟩ | ⟨row, _, rfl⟩) | hw
  · rfl
  · rfl
  · rcases Write.isCallback_cases (ends_replaceCallbacks hcallbacks w hw) with
      ⟨row, rfl⟩ | ⟨id, d, rfl⟩ <;> rfl

theorem writes_updateCampaign {ids : Draws} {id : Int} {payload : CampaignNestedUpdate}
    (h : ((Request.updateCampaign ids id payload).handler validateInterruptionRule).EndsSeeing see
      [] answer ws) :
    ∃ view loaded first, see [] view ∧ view.campaign id = some loaded ∧
      Sent loaded payload.baseFields first ∧ FirstOnly first ws := by
  obtain ⟨view, loaded, detail, hsee, hrow, hbody⟩ := seeing_getOr404 h
  obtain ⟨_, us, vs, hvalid, hpatch, rfl⟩ := Prog.ends_bind.mp hbody
  obtain rfl := ends_validatePatch hvalid
  obtain ⟨_, first, vs, hflush, hrest, rfl⟩ := Prog.ends_bind.mp hpatch
  obtain ⟨_, us, vs, hchildren, hload, rfl⟩ := Prog.ends_bind.mp hrest
  obtain ⟨_, hload⟩ := Prog.ends_select_bind.mp hload
  obtain ⟨_, hload⟩ := Prog.ends_select_bind.mp hload
  obtain ⟨_, rfl⟩ := Prog.ends_done.mp hload
  exact ⟨view, loaded, first, hsee, hrow, ends_flushCampaign hflush, us,
    leavesCampaigns_replaceChildren hchildren, by simp⟩

theorem writes_replaceRoutingRules {id : Int} {payload : RoutingRulesReplace}
    (h : ((Request.replaceRoutingRules id payload).handler validateInterruptionRule).EndsSeeing see
      [] answer ws) :
    ∃ view loaded first, see [] view ∧ view.campaign id = some loaded ∧
      Sent loaded payload.set first ∧ FirstOnly first ws := by
  obtain ⟨view, loaded, read, hsee, hrow, hbody⟩ := seeing_getOr404 h
  obtain ⟨_, hbody⟩ := Prog.ends_select_bind.mp hbody
  obtain ⟨_, us, vs, hcheck, hrest, rfl⟩ := Prog.ends_bind.mp hbody
  obtain ⟨_, rfl⟩ := Prog.ends_check.mp hcheck
  obtain ⟨_, first, vs, hflush, hdone, rfl⟩ := Prog.ends_bind.mp hrest
  obtain ⟨_, rfl⟩ := Prog.ends_done.mp hdone
  exact ⟨view, loaded, first, hsee, hrow, ends_flushCampaign hflush, [], by simp, by simp⟩

theorem ends_validateRefereeRouting {roleConfigs : List RoleConfigNestedWrite}
    {routingRules : Option (List RoutingRule)} {tools : Option Tools} {toolsSet : Bool}
    (h : (validateRefereeRouting none (some roleConfigs) routingRules tools toolsSet).Ends () ws) :
    ws = [] := by
  obtain ⟨_, us, vs, hlabels, hcheck, rfl⟩ := Prog.ends_bind.mp h
  obtain ⟨_, rfl⟩ := Prog.ends_check.mp hcheck
  obtain ⟨_, us, vs, hvalid, hdone, rfl⟩ := Prog.ends_bind.mp hlabels
  obtain ⟨_, rfl⟩ := Prog.ends_check.mp hvalid
  obtain ⟨_, rfl⟩ := Prog.ends_done.mp hdone
  rfl

theorem ends_storeCampaign {ids : Draws} {payload : CampaignNestedCreate}
    {detail : CampaignDetailRead} (h : (storeCampaign ids payload).Ends detail ws) :
    FirstOnly [.insertCampaign (payload.row ids.campaign)] ws := by
  obtain ⟨_, us, vs, hinsert, hrest, rfl⟩ := Prog.ends_bind.mp h
  obtain rfl := Prog.ends_exec.mp hinsert
  obtain ⟨_, us, vs, hchildren, hload, rfl⟩ := Prog.ends_bind.mp hrest
  obtain ⟨_, hload⟩ := Prog.ends_select_bind.mp hload
  obtain ⟨_, hload⟩ := Prog.ends_select_bind.mp hload
  obtain ⟨_, rfl⟩ := Prog.ends_done.mp hload
  exact ⟨us, leavesCampaigns_replaceChildren hchildren, by simp⟩

theorem writes_createCampaign {ids : Draws} {payload : CampaignNestedCreate}
    (h : ((Request.createCampaign ids payload).handler validateInterruptionRule).Ends answer ws) :
    FirstOnly [.insertCampaign (payload.row ids.campaign)] ws := by
  obtain ⟨detail, hbody⟩ := ends_answer h
  obtain ⟨_, us, vs, hrules, hrest, rfl⟩ := Prog.ends_bind.mp hbody
  obtain ⟨_, rfl⟩ := Prog.ends_check.mp hrules
  obtain ⟨_, us, vs, hrouting, hstore, rfl⟩ := Prog.ends_bind.mp hrest
  obtain rfl := ends_validateRefereeRouting hrouting
  exact ends_storeCampaign hstore

theorem ends_updateRoleConfig {id : Int} {payload : RoleConfigUpdate} {row : RoleConfig}
    (h : (updateRoleConfig id payload).Ends row ws) : ∀ w ∈ ws, w.leavesCampaigns = true := by
  obtain ⟨_, obj, _, hbody⟩ := ends_getOr404.mp h
  obtain ⟨_, us, vs, hcheck, hrest, rfl⟩ := Prog.ends_bind.mp hbody
  obtain ⟨_, ts, vs, hflush, hread, rfl⟩ := Prog.ends_bind.mp hrest
  obtain ⟨_, hread⟩ := Prog.ends_select_bind.mp hread
  obtain ⟨_, rfl⟩ := Prog.ends_done.mp hread
  -- the count of the labels flushes the row first, the flush at the end may do it again
  have hcheck : us = [] ∨ us = [.updateRole id payload] := by
    unfold requireUniqueLabel at hcheck
    split at hcheck
    · exact .inl (Prog.ends_done.mp hcheck).2
    · split at hcheck
      · exact absurd hcheck Prog.not_ends_raise
      · obtain ⟨_, us, vs, hpending, hcount, rfl⟩ := Prog.ends_bind.mp hcheck
        obtain rfl := Prog.ends_exec.mp hpending
        obtain ⟨d, hraise⟩ := Prog.ends_select_bind.mp hcount
        obtain ⟨_, rfl⟩ := Prog.ends_raiseIf.mp hraise
        exact .inr rfl
  have hflush : ts = [] ∨ ts = [.updateRole id payload] := by
    unfold flushUncounted at hflush
    split at hflush
    · exact .inr (Prog.ends_exec.mp hflush)
    · exact .inl (Prog.ends_done.mp hflush).2
  rcases hcheck with rfl | rfl <;> rcases hflush with rfl | rfl <;> simp [Write.leavesCampaigns]

/-! ## Rows before and after a commit -/

section Commit

variable {m m' : Database} {first : List Write}

/-- A commit without writes of campaign rows. -/
theorem FirstOnly.same (h : FirstOnly [] ws) (happly : applyAll ws m = some m') (c : Int) :
    m'.campaign c = m.campaign c := by
  obtain ⟨n, hn, hcampaign⟩ := h.campaign happly
  cases hn
  exact hcampaign c

theorem FirstOnly.inserted {row : Campaign} (h : FirstOnly [.insertCampaign row] ws)
    (happly : applyAll ws m = some m') (hc : c ≠ row.id) : m'.campaign c = m.campaign c := by
  obtain ⟨n, hn, hcampaign⟩ := h.campaign happly
  rw [hcampaign, (apply_insertCampaign (applyAll_singleton.mp hn)).2, if_neg hc]

theorem FirstOnly.deleted {id : Int} (h : FirstOnly [.deleteCampaign id] ws)
    (happly : applyAll ws m = some m') :
    m'.campaign c = if c = id then none else m.campaign c := by
  obtain ⟨n, hn, hcampaign⟩ := h.campaign happly
  rw [hcampaign, (apply_deleteCampaign (applyAll_singleton.mp hn)).1]

theorem Sent.updated {loaded : Campaign} {set : CampaignSet} (hsent : Sent loaded set first)
    (h : FirstOnly first ws) (happly : applyAll ws m = some m') :
    m'.campaign c = if c = loaded.id then (m.campaign c).map (set.against loaded).applyTo
      else m.campaign c := by
  obtain ⟨n, hn, hcampaign⟩ := h.campaign happly
  rw [hcampaign]
  rcases hsent with rfl | ⟨rfl, hempty⟩
  · exact (apply_updateCampaign (applyAll_singleton.mp hn)).2 c
  · cases hn
    have hid : (m.campaign c).map (set.against loaded).applyTo = m.campaign c := by
      cases m.campaign c with
      | none => rfl
      | some row => exact congrArg some (CampaignSet.applyTo_of_isEmpty hempty row)
    rw [hid, ite_self]

end Commit

/-! ## Overlapping requests -/

section Overlap

variable {ι : Type} {r : ι → Request} {i : ι} {m m' : Database}

/-- The fields of campaigns, and those that each request sets. -/
def campaignFields (r : ι → Request) : FieldSets ι Database Int Campaign Field Field.Value where
  row := Database.campaign
  value := Campaign.field
  sets i := (r i).sets

/-- A campaign that is created gets an id that is new. -/
def Request.DrawsNew (db : Database) : Request → Prop
  | .createCampaign ids _ => db.campaign ids.campaign = none
  | _ => True

/-- The rows a request has loaded, its first query having seen what meets `see`. -/
def Loads (see : List Write → Database → Prop) (c : Int) (loaded : Campaign) : Prop :=
  ∃ view, see [] view ∧ view.campaign c = some loaded

theorem updates_of_flush {id : Int} {set : CampaignSet} {view : Database} {loaded : Campaign}
    {first : List Write} (hsets : ∀ c f, (r i).sets c f = if id = c then set.field f else none)
    (hsee : see [] view) (hrow : view.campaign id = some loaded) (hsent : Sent loaded set first)
    (hfirst : FirstOnly first ws) (happly : applyAll ws m = some m') :
    (campaignFields r).Updates db i (Loads see) m m' := by
  obtain ⟨_, rfl⟩ := Database.campaign_eq_some.mp hrow
  refine updates_of_sent (S := campaignFields r) (k := loaded.id) loaded
    (set.against loaded).field (fun c f hc => ?_) (fun f => ?_) ⟨view, hsee, hrow⟩ ?_
  · exact (hsets c f).trans (if_neg (Ne.symm hc))
  · have hself : (campaignFields r).sets i loaded.id f = set.field f :=
      (hsets loaded.id f).trans (if_pos rfl)
    rw [hself]
    exact field_against set loaded f
  · intro c after hafter
    change m'.campaign c = some after at hafter
    rw [hsent.updated hfirst happly] at hafter
    by_cases hc : c = loaded.id
    · rw [if_pos hc] at hafter
      obtain ⟨row, hstored, rfl⟩ := Option.map_eq_some_iff.mp hafter
      refine ⟨row, hstored, fun f => ?_⟩
      rw [if_pos hc]
      exact field_applyTo _ _ _
    · rw [if_neg hc] at hafter
      exact ⟨after, hafter, fun f => (if_neg hc).symm⟩

theorem unset_of_eq {x : Request} (hr : r i = x) (hx : ∀ c f, x.sets c f = none) (c : Int)
    (f : Field) : (campaignFields r).sets i c f = none := by
  show (r i).sets c f = none
  rw [hr]
  exact hx c f

/-- Writes of role rows leave every field of a campaign alone. -/
theorem updates_of_leaves (hsets : ∀ c f, (campaignFields r).sets i c f = none)
    (hws : ∀ w ∈ ws, w.leavesCampaigns = true) (happly : applyAll ws m = some m') :
    (campaignFields r).Updates db i (Loads see) m m' := by
  have hfirst : FirstOnly [] ws := ⟨ws, hws, rfl⟩
  exact updates_of_kept hsets fun c _ _ _ hafter => (hfirst.same happly c).symm.trans hafter

theorem updates_handler (hnew : (r i).DrawsNew db)
    (h : ((r i).handler validateInterruptionRule).EndsSeeing see [] answer ws)
    (happly : applyAll ws m = some m') :
    (campaignFields r).Updates db i (Loads see) m m' := by
  cases hr : r i with
  | updateCampaign ids id payload =>
    rw [hr] at h
    obtain ⟨view, loaded, first, hsee, hrow, hsent, hfirst⟩ := writes_updateCampaign h
    exact updates_of_flush (fun c f => by rw [hr]; rfl) hsee hrow hsent hfirst happly
  | replaceRoutingRules id payload =>
    rw [hr] at h
    obtain ⟨view, loaded, first, hsee, hrow, hsent, hfirst⟩ := writes_replaceRoutingRules h
    exact updates_of_flush (fun c f => by rw [hr]; rfl) hsee hrow hsent hfirst happly
  | createCampaign ids payload =>
    rw [hr] at h hnew
    obtain ⟨us, hends, rfl⟩ := h.ends
    refine updates_of_kept (unset_of_eq hr fun _ _ => rfl) fun c before after hbefore hafter => ?_
    -- the id of a new campaign is none of those that were there
    have hc : c ≠ ids.campaign := by
      rintro rfl
      cases hbefore.symm.trans hnew
    exact ((writes_createCampaign hends).inserted happly hc).symm.trans hafter
  | deleteCampaign id =>
    rw [hr] at h
    obtain ⟨us, hends, rfl⟩ := h.ends
    obtain ⟨_, hbody⟩ := ends_answer hends
    obtain ⟨_, _, _, hdelete⟩ := ends_getOr404.mp hbody
    obtain rfl := Prog.ends_exec.mp hdelete
    refine updates_of_kept (unset_of_eq hr fun _ _ => rfl) fun c before after _ hafter => ?_
    have hfirst : FirstOnly [.deleteCampaign id] ([] ++ [.deleteCampaign id]) :=
      ⟨[], by simp, rfl⟩
    change m'.campaign c = some after at hafter
    rw [hfirst.deleted happly] at hafter
    split at hafter
    · cases hafter
    · exact hafter
  | createRoleConfig id payload =>
    rw [hr] at h
    obtain ⟨us, hends, rfl⟩ := h.ends
    obtain ⟨_, hbody⟩ := ends_answer hends
    obtain rfl := ends_createRoleConfig hbody
    exact updates_of_leaves (unset_of_eq hr fun _ _ => rfl) (by simp [Write.leavesCampaigns])
      happly
  | updateRoleConfig id payload =>
    rw [hr] at h
    obtain ⟨us, hends, rfl⟩ := h.ends
    obtain ⟨_, hbody⟩ := ends_answer hends
    exact updates_of_leaves (unset_of_eq hr fun _ _ => rfl) (ends_updateRoleConfig hbody) happly
  | deleteRoleConfig id =>
    rw [hr] at h
    obtain ⟨us, hends, rfl⟩ := h.ends
    obtain ⟨_, hbody⟩ := ends_answer hends
    obtain rfl := ends_deleteRoleConfig hbody
    exact updates_of_leaves (unset_of_eq hr fun _ _ => rfl) (by simp [Write.leavesCampaigns])
      happly

end Overlap

/-- **No field is lost.** Any number of requests of the two routers overlap, no
two of which set one field of a campaign. In every state of every interleaving,
a campaign that was there and still is has each field as the committed request
that sets it has set it, and every other field as it was; a field is a column that
a request can set. -/
theorem fields_merge {ι : Type} [DecidableEq ι] [Fintype ι]
    (validateInterruptionRule : Json → Option String) (r : ι → Request)
    (hapart : ∀ i j c f, i ≠ j → (r i).sets c f = none ∨ (r j).sets c f = none) (db : Database)
    (hnew : ∀ i, (r i).DrawsNew db) (as : List (ServerAction ι)) :
    Always Server.step (fun s => (campaignFields r).Merged db s.answers s.committed)
      (Server.start db fun i => (r i).handler validateInterruptionRule) as :=
  merged_always (S := campaignFields r) hapart
    (fun i _ _ _ _ _ hends happly => updates_handler (hnew i) hends happly) as

/-- Two users edit campaign 4 while it gets a role row. -/
def twoEditors : Fin 3 → Request
  | 0 => .updateCampaign ⟨2, fun _ => 2, fun _ => 2⟩ 4
      ⟨⟨none, none, [(.greeting, ⟨"\"hello\""⟩)]⟩, none, none⟩
  | 1 => .updateCampaign ⟨3, fun _ => 3, fun _ => 3⟩ 4
      ⟨⟨none, some none, [(.name, ⟨"\"spring\""⟩)]⟩, none, none⟩
  | 2 => .createRoleConfig 5 ⟨mainJudge, 4⟩

theorem sets_twoEditors_zero {c : Int} {f : Field} (h : f ≠ .column .greeting) :
    (twoEditors 0).sets c f = none := by
  show (if 4 = c then _ else none) = _
  rw [ite_eq_right_iff]
  rintro rfl
  cases f with
  | routingRules => rfl
  | tools => rfl
  | column k =>
    have hk : (k == Column.greeting) = false := by
      rw [beq_eq_false_iff_ne]
      rintro rfl
      exact h rfl
    show [(Column.greeting, (⟨"\"hello\""⟩ : Json))].lookup k = none
    rw [List.lookup_cons, hk]
    rfl

theorem sets_twoEditors_one {c : Int} : (twoEditors 1).sets c (.column .greeting) = none := by
  show (if 4 = c then _ else none) = _
  rw [ite_eq_right_iff]
  rintro rfl
  rfl

theorem twoEditors_apart (i j : Fin 3) (c : Int) (f : Field) (h : i ≠ j) :
    (twoEditors i).sets c f = none ∨ (twoEditors j).sets c f = none := by
  have hboth : (twoEditors 0).sets c f = none ∨ (twoEditors 1).sets c f = none := by
    by_cases hf : f = .column .greeting
    · subst hf
      exact .inr sets_twoEditors_one
    · exact .inl (sets_twoEditors_zero hf)
  match i, j with
  | 0, 0 | 1, 1 | 2, 2 => exact absurd rfl h
  | 0, 1 => exact hboth
  | 1, 0 => exact hboth.symm
  | 0, 2 | 1, 2 => exact .inr rfl
  | 2, 0 | 2, 1 => exact .inl rfl

/-- Both have loaded the campaign before either sends its `UPDATE`. -/
theorem fields_merge_twoEditors :
    Always Server.step
      (fun s => (campaignFields twoEditors).Merged plainDatabase s.answers s.committed)
      (Server.start plainDatabase fun i => (twoEditors i).handler fun _ => none)
      [.advance 0, .advance 1, .advance 1, .advance 2, .advance 0, .advance 0, .advance 2,
        .advance 0, .advance 0, .advance 0, .advance 1, .advance 2, .advance 1, .advance 2,
        .advance 1, .advance 1] :=
  fields_merge _ twoEditors twoEditors_apart plainDatabase (fun i => by fin_cases i <;> trivial) _

end IsalesApi.Config
