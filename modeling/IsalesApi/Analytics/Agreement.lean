import IsalesApi.Analytics.Additive

/-!
# The endpoints agree

The outer join of `goal_rate` has one row for each call record when no record
has two summaries. So the three endpoints count the same records.
-/

namespace IsalesApi.Analytics

open Foundation Auth Calls

/-- The three answers for the same records. -/
structure Agreement (records : List CallRecord) (a : AnswerRate) (g : GoalRate)
    (d : DurationDistribution) : Prop where
  total : a.total = records.length
  totalCalls : g.totalCalls = a.total
  answered : 0 ≤ a.answered ∧ a.answered ≤ a.total
  goalAchieved : 0 ≤ g.goalAchieved ∧ g.goalAchieved ≤ g.totalCalls
  answerRate : 0 ≤ a.rate ∧ a.rate ≤ 1
  goalRate : 0 ≤ g.rate ∧ g.rate ≤ 1
  durations : d.total = records.countP fun r => r.duration.isSome
  durations_le : d.total ≤ a.total

section Agreement

variable {float : ℚ → ℚ} (hmono : Monotone float) (hzero : float 0 = 0) (hone : float 1 = 1)

include hmono hzero hone in
theorem quotient_mem {n total : Int} (h : 0 ≤ n ∧ n ≤ total) :
    0 ≤ quotient float n total ∧ quotient float n total ≤ 1 := by
  unfold quotient
  by_cases htotal : total = 0
  · simp [htotal]
  · have hpos : (0 : ℚ) < total := by exact_mod_cast (h.1.trans h.2).lt_of_ne' htotal
    have hlow : (0 : ℚ) ≤ n / total := div_nonneg (by exact_mod_cast h.1) hpos.le
    have hhigh : (n : ℚ) / total ≤ 1 := (div_le_one hpos).mpr (by exact_mod_cast h.2)
    rw [if_neg htotal]
    exact ⟨hzero ▸ hmono hlow, hone ▸ hmono hhigh⟩

end Agreement

variable {db : Database}

/-- A record has at most one summary, so it makes one row. -/
theorem joined_summary (hunique : (db.summaries.rows.map CallSummary.callRecordId).Nodup)
    (r : CallRecord) : (joined summaryOf db.summaries.rows r).length = 1 := by
  obtain ⟨s, hs⟩ : ∃ s, joined summaryOf db.summaries.rows r = [(r, s)] := by
    refine joined_of_unique (fun b hb c hc hrb hrc => ?_) (List.Nodup.of_map _ hunique)
    simp only [summaryOf, decide_eq_true_eq] at hrb hrc
    exact List.inj_on_of_nodup_map hunique hb hc (hrb.trans hrc.symm)
  rw [hs, List.length_singleton]

/-- The outer join has a row for each call record of the window. -/
theorem length_goalRows_eq (hunique : (db.summaries.rows.map CallSummary.callRecordId).Nodup)
    (w : DateTime × DateTime) (campaignId : Option Int) :
    (((leftJoin summaryOf db.summaries.rows db.calls.rows).filter fun x =>
      selected w campaignId x.1).length : Int) =
      (db.calls.rows.filter (selected w campaignId)).length := by
  simp only [length_goalRows, joined_summary hunique]
  rw [← List.countP_eq_length_filter, ← tally_one]
  rfl

variable (db) in
theorem length_durationsOf_eq (w : DateTime × DateTime) (campaignId : Option Int) :
    ((durationsOf db w campaignId).length : Int) =
      (db.calls.rows.filter (selected w campaignId)).countP fun r => r.duration.isSome := by
  rw [length_durationsOf, tally_indicator, List.countP_filter]
  simp only [Bool.and_comm]

theorem goalCase_mem (x : CallRecord × Option CallSummary) : 0 ≤ goalCase x ∧ goalCase x ≤ 1 := by
  unfold goalCase
  split <;> simp

theorem answeredCase_mem (r : CallRecord) : 0 ≤ answeredCase r ∧ answeredCase r ≤ 1 := by
  unfold answeredCase
  split <;> simp

/-- **The analytics endpoints agree** on every window, and they fail together on
a window that is out of range. -/
theorem analytics_agree (float : ℚ → ℚ) (hmono : Monotone float) (hzero : float 0 = 0)
    (hone : float 1 = 1) (db : Database)
    (hunique : (db.summaries.rows.map CallSummary.callRecordId).Nodup)
    (since till : Option DateTime) (campaignId : Option Int) (now : DateTime) :
    (∀ w, window since till now = .ok w → ∃ a g d,
      answerRate float db since till campaignId now = .ok a ∧
      goalRate float db since till campaignId now = .ok g ∧
      durationDistribution db since till campaignId now = .ok d ∧
      Agreement (db.calls.rows.filter (selected w campaignId)) a g d) ∧
    (∀ err, window since till now = .error err →
      answerRate float db since till campaignId now = .error err ∧
      goalRate float db since till campaignId now = .error err ∧
      durationDistribution db since till campaignId now = .error err) := by
  constructor
  · intro w hw
    have hdurations := length_durationsOf_eq db w campaignId
    have hle : ((durationsOf db w campaignId).length : Int) ≤
        (db.calls.rows.filter (selected w campaignId)).length := by
      rw [hdurations]
      exact_mod_cast List.countP_le_length
    have hanswered := sum_cases (l := db.calls.rows.filter (selected w campaignId))
      fun r _ => answeredCase_mem r
    have hgoal := sum_cases (l := (leftJoin summaryOf db.summaries.rows db.calls.rows).filter
      fun x => selected w campaignId x.1) fun x _ => goalCase_mem x
    simp only [answerRate, goalRate, durationDistribution, hw, Except.map, sqlSum_getD]
    refine ⟨_, _, _, rfl, rfl, rfl, ?_⟩
    exact
      { total := rfl
        totalCalls := length_goalRows_eq hunique w campaignId
        answered := hanswered
        goalAchieved := hgoal
        answerRate := quotient_mem hmono hzero hone hanswered
        goalRate := quotient_mem hmono hzero hone hgoal
        durations := hdurations
        durations_le := hle }
  · intro err herr
    simp only [answerRate, goalRate, durationDistribution, herr]
    exact ⟨rfl, rfl, rfl⟩

def epoch : DateTime := ⟨0, by decide, by decide⟩

def hour : DateTime := ⟨3600000000, by decide, by decide⟩

/-- An answered call with a summary, and one that was not answered. -/
def twoCalls : Database where
  calls := ⟨[⟨1, 7, 1, ⟨"end"⟩, some epoch, some 42, epoch⟩,
    ⟨2, 7, 2, ⟨"init"⟩, none, none, epoch⟩], by decide⟩
  summaries := ⟨[⟨1, 1, some true⟩], by decide⟩

theorem analytics_agree_twoCalls : ∃ a g d,
    answerRate id twoCalls (some epoch) (some hour) none hour = .ok a ∧
    goalRate id twoCalls (some epoch) (some hour) none hour = .ok g ∧
    durationDistribution twoCalls (some epoch) (some hour) none hour = .ok d ∧
    Agreement (twoCalls.calls.rows.filter (selected (epoch, hour) none)) a g d :=
  (analytics_agree id monotone_id rfl rfl twoCalls (by decide) (some epoch) (some hour) none
    hour).1 (epoch, hour) rfl

end IsalesApi.Analytics
