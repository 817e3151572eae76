import IsalesApi.Config.Overlap

/-!
# Any number of overlapping requests

What holds of two requests on one campaign holds of any number of them on all
campaigns: a commit can only break the campaign it is about, and it does so
exactly when its check would not pass again.
-/

namespace IsalesApi.Config

open Foundation

variable {db db' : Database} {c : Int} {validateInterruptionRule : Json → Option String}

/-- One of the four requests, on some campaign. -/
def Request.Edits (r : Request) : Prop := ∃ c, r.On c

/-- A commit leaves the campaigns alone that its request is not on. -/
theorem Intact.commit_other {r : Request} (hr : r.Edits) (hother : ¬ r.On c) {a : Answer}
    {ws : List Write} (hends : (r.handler validateInterruptionRule).Ends a ws)
    (happly : applyAll ws db = some db') : Intact c db' ↔ Intact c db := by
  obtain ⟨d, hr⟩ := hr
  cases r with
  | replaceRoutingRules id payload =>
    obtain ⟨read, hends⟩ := ends_answer hends
    obtain ⟨set, hwrites⟩ := ends_replaceRoutingRules hends
    exact (hwrites.edits happly).intact_other (Ne.symm hother)
  | updateCampaign ids id payload =>
    obtain ⟨detail, hends⟩ := ends_answer hends
    obtain ⟨set, deleted, inserted, hwrites⟩ := ends_updateCampaign hends
    exact (hwrites.edits happly).intact_other (Ne.symm hother)
  | createRoleConfig id payload =>
    obtain ⟨row, hends⟩ := ends_answer hends
    obtain rfl := ends_createRoleConfig hends
    exact (edits_insertRole (applyAll_singleton.mp happly)).intact_other (Ne.symm hother)
  | deleteRoleConfig id => exact absurd trivial hother
  | _ => exact hr.elim

/-- The check of the request would pass again, on every campaign it is on. -/
def Rechecks (r : Request) (db : Database) (ws : List Write) : Prop :=
  ∀ c, r.On c → Recheck c r db ws

theorem allIntact_commit_iff {r : Request} (hr : r.Edits) {a : Answer} {ws : List Write}
    (hends : (r.handler validateInterruptionRule).Ends a ws) (hdb : ∀ c, Intact c db)
    (happly : applyAll ws db = some db') : (∀ c, Intact c db') ↔ Rechecks r db ws := by
  constructor
  · intro h c hc
    exact ((hdb c).commit_iff hc hends happly).mp (h c)
  · intro h c
    by_cases hc : r.On c
    · exact ((hdb c).commit_iff hc hends happly).mpr (h c hc)
    · exact (Intact.commit_other hr hc hends happly).mpr (hdb c)

/-- **Integrity of all campaigns**, under any number of overlapping requests on
any of them: every committed state is intact if and only if every commit
rechecks. -/
theorem allIntact_iff_rechecks {ι : Type} [DecidableEq ι] [Fintype ι]
    (validateInterruptionRule : Json → Option String) (r : ι → Request) (hr : ∀ i, (r i).Edits)
    (db : Database) (hdb : ∀ c, Intact c db) (as : List (ServerAction ι)) :
    Always Server.step (fun s => ∀ c, Intact c s.committed)
        (Server.start db fun i => (r i).handler validateInterruptionRule) as ↔
      Along Server.step (AtCommit fun i => Rechecks (r i))
        (Server.start db fun i => (r i).handler validateInterruptionRule) as :=
  always_iff_atCommit
    (fun i _ _ _ _ hends hm happly => allIntact_commit_iff (hr i) hends hm happly) hdb as

theorem allIntact_oneReferee (c : Int) : Intact c oneReferee := by
  by_cases hc : c = 1
  · subst hc
    exact intact_oneReferee
  · have hroles : oneReferee.rolesOf c = [] := by
      refine List.filter_eq_nil_iff.mpr fun r hr => ?_
      obtain rfl := List.mem_singleton.mp hr
      simpa using Ne.symm hc
    have hcampaign : oneReferee.campaign c = none := by
      refine Table.get?_eq_none.mpr fun row hrow => ?_
      obtain rfl := List.mem_singleton.mp hrow
      exact Ne.symm hc
    constructor
    · rw [hroles]
      exact validateRoleLabels_ok.mp rfl
    · rw [hcampaign]
      rintro row ⟨⟩

/-- The rule for the referee is put while the referee is deleted and another one
is created for a campaign that does not exist. -/
def putDeleteCreate : Fin 3 → Request
  | 0 => .replaceRoutingRules 1 ⟨[⟨"main_judge", .route "closing" ⟨"{}"⟩, ⟨"{}"⟩⟩], none⟩
  | 1 => .deleteRoleConfig 1
  | 2 => .createRoleConfig 5 ⟨mainJudge, 2⟩

theorem putDeleteCreate_edits : ∀ i, (putDeleteCreate i).Edits
  | 0 => ⟨1, rfl⟩
  | 1 => ⟨1, trivial⟩
  | 2 => ⟨2, rfl⟩

/-- The `DELETE` has looked for rules before the `PUT` commits. -/
theorem allIntact_iff_rechecks_putDeleteCreate :
    Always Server.step (fun s => ∀ c, Intact c s.committed)
        (Server.start oneReferee fun i => (putDeleteCreate i).handler fun _ => none)
        [.advance 2, .advance 1, .advance 1, .advance 0, .advance 0, .advance 0, .advance 0,
          .advance 1, .advance 1, .advance 2] ↔
      Along Server.step (AtCommit fun i => Rechecks (putDeleteCreate i))
        (Server.start oneReferee fun i => (putDeleteCreate i).handler fun _ => none)
        [.advance 2, .advance 1, .advance 1, .advance 0, .advance 0, .advance 0, .advance 0,
          .advance 1, .advance 1, .advance 2] :=
  allIntact_iff_rechecks _ putDeleteCreate putDeleteCreate_edits oneReferee
    allIntact_oneReferee _

end IsalesApi.Config
