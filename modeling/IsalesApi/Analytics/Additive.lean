import IsalesApi.Analytics.Endpoints

/-!
# The figures are additive

Every count the three endpoints return is a tally over the call records the
window and the campaign select. So the counts of two windows that meet add up, and
the counts of all campaigns do.
-/

namespace IsalesApi.Analytics

open Foundation Auth Calls

/-- The counts the endpoints return; `bucket i` is that of the bucket with the
index `i`. -/
inductive Figure where
  | total | answered | totalCalls | goalAchieved | durations
  | bucket (i : Nat)

variable (float : ℚ → ℚ) (db : Database)

/-- What the endpoint answers for the figure. -/
def figure (since till : Option DateTime) (campaignId : Option Int) (now : DateTime) :
    Figure → Except PyError Int
  | .total => (answerRate float db since till campaignId now).map AnswerRate.total
  | .answered => (answerRate float db since till campaignId now).map AnswerRate.answered
  | .totalCalls => (goalRate float db since till campaignId now).map GoalRate.totalCalls
  | .goalAchieved => (goalRate float db since till campaignId now).map GoalRate.goalAchieved
  | .durations =>
    (durationDistribution db since till campaignId now).map DurationDistribution.total
  | .bucket i => (durationDistribution db since till campaignId now).map fun d =>
    (d.buckets.map DurationBucket.count).getD i 0

/-- What one call record adds to a figure. -/
def Figure.weight (r : CallRecord) : Figure → Int
  | .total => 1
  | .answered => answeredCase r
  | .totalCalls => (joined summaryOf db.summaries.rows r).length
  | .goalAchieved => ((joined summaryOf db.summaries.rows r).map goalCase).sum
  | .durations => if r.duration.isSome then 1 else 0
  | .bucket i =>
    match durationBuckets[i]? with
    | none => 0
    | some (_, lo, hi) => if r.duration.any (inBucket lo hi) then 1 else 0

/-! ## Figures are tallies -/

section Tallies

variable (w : DateTime × DateTime) (campaignId : Option Int)

theorem countP_durationsOf (q : Int → Bool) :
    ((durationsOf db w campaignId).countP q : Int) =
      tally (selected w campaignId) (fun r => if r.duration.any q then 1 else 0)
        db.calls.rows := by
  rw [tally_indicator, durationsOf, List.countP_map, List.countP_filter]
  congr 1
  refine List.countP_congr fun r _ => ?_
  cases hd : r.duration with
  | none => simp [hd]
  | some d => simp [hd, selected, and_comm]

theorem length_durationsOf : ((durationsOf db w campaignId).length : Int) =
    tally (selected w campaignId) (fun r => if r.duration.isSome then 1 else 0)
      db.calls.rows := by
  have hcount := countP_durationsOf db w campaignId fun _ => true
  rw [List.countP_true] at hcount
  rw [hcount]
  refine congrArg (fun v => tally _ v _) (funext fun r => ?_)
  cases r.duration <;> rfl

/-- The rows of the outer join. -/
theorem length_goalRows :
    (((leftJoin summaryOf db.summaries.rows db.calls.rows).filter fun x =>
      selected w campaignId x.1).length : Int) =
      tally (selected w campaignId)
        (fun r => ((joined summaryOf db.summaries.rows r).length : Int)) db.calls.rows := by
  have hsum : (((leftJoin summaryOf db.summaries.rows db.calls.rows).filter fun x =>
      selected w campaignId x.1).map fun _ => (1 : Int)).sum =
      tally (selected w campaignId)
        (fun r => ((joined summaryOf db.summaries.rows r).map fun _ => (1 : Int)).sum)
        db.calls.rows := sum_leftJoin _
  simpa using hsum

end Tallies

/-- **Every figure is a tally** of the selected call records. -/
theorem figure_eq_tally {since till : Option DateTime} {now : DateTime} {w : DateTime × DateTime}
    (hw : window since till now = .ok w) (campaignId : Option Int) (f : Figure) :
    figure float db since till campaignId now f =
      .ok (tally (selected w campaignId) (f.weight db) db.calls.rows) := by
  cases f with
  | total =>
    simp only [figure, answerRate, hw, Except.map]
    exact congrArg Except.ok (by simp [tally, Figure.weight])
  | answered =>
    simp only [figure, answerRate, hw, Except.map, sqlSum_getD]
    rfl
  | totalCalls =>
    simp only [figure, goalRate, hw, Except.map, length_goalRows]
    rfl
  | goalAchieved =>
    simp only [figure, goalRate, hw, Except.map, sqlSum_getD, sum_leftJoin]
    rfl
  | durations =>
    simp only [figure, durationDistribution, hw, Except.map, distribution, length_durationsOf]
    rfl
  | bucket i =>
    simp only [figure, durationDistribution, hw, Except.map, distribution, Figure.weight]
    refine congrArg Except.ok ?_
    cases hi : durationBuckets[i]? with
    | none => simp [List.getD, hi, tally]
    | some b => simp [List.getD, hi, countP_durationsOf]

/-! ## The result -/

/-- The campaigns that occur in the records. -/
def campaignIds : Finset Int := (db.calls.rows.map CallRecord.campaignId).toFinset

/-- The figure adds up over windows that meet and over campaigns. -/
structure Additive (now : DateTime) (f : Figure) : Prop where
  windows : ∀ (campaignId : Option Int) (s m e : DateTime), s.micros ≤ m.micros →
    m.micros ≤ e.micros → ∃ n n₁ n₂ : Int,
      figure float db (some s) (some e) campaignId now f = .ok n ∧
      figure float db (some s) (some m) campaignId now f = .ok n₁ ∧
      figure float db (some m) (some e) campaignId now f = .ok n₂ ∧ n = n₁ + n₂
  /-- A record of the window is in one of its parts: at `m` in the later one. -/
  boundary : ∀ (campaignId : Option Int) (s m e : DateTime), s.micros ≤ m.micros →
    m.micros ≤ e.micros → ∀ r : CallRecord,
      (selected (s, m) campaignId r ↔
        selected (s, e) campaignId r ∧ r.createdAt.micros < m.micros) ∧
      (selected (m, e) campaignId r ↔
        selected (s, e) campaignId r ∧ m.micros ≤ r.createdAt.micros)
  campaigns : ∀ (since till : Option DateTime) (w : DateTime × DateTime),
    window since till now = .ok w → ∃ count : Int → Int,
      (∀ c, figure float db since till (some c) now f = .ok (count c)) ∧
      figure float db since till none now f = .ok (∑ c ∈ campaignIds db, count c)

/-- The parts before `m` and from `m` on of the window from `s` to `e`. -/
theorem selected_boundary {s m e : DateTime} (hsm : s.micros ≤ m.micros)
    (hme : m.micros ≤ e.micros) (campaignId : Option Int) (r : CallRecord) :
    (selected (s, m) campaignId r ↔
        selected (s, e) campaignId r ∧ r.createdAt.micros < m.micros) ∧
      (selected (m, e) campaignId r ↔
        selected (s, e) campaignId r ∧ m.micros ≤ r.createdAt.micros) := by
  simp only [selected, inWindow, Bool.and_eq_true, decide_eq_true_eq]
  constructor
  · constructor
    · rintro ⟨⟨hstart, hbefore⟩, hcampaign⟩
      exact ⟨⟨⟨hstart, hbefore.trans_le hme⟩, hcampaign⟩, hbefore⟩
    · rintro ⟨⟨⟨hstart, _⟩, hcampaign⟩, hbefore⟩
      exact ⟨⟨hstart, hbefore⟩, hcampaign⟩
  · constructor
    · rintro ⟨⟨hafter, hend⟩, hcampaign⟩
      exact ⟨⟨⟨hsm.trans hafter, hend⟩, hcampaign⟩, hafter⟩
    · rintro ⟨⟨⟨_, hend⟩, hcampaign⟩, hafter⟩
      exact ⟨⟨hafter, hend⟩, hcampaign⟩

theorem selected_split {s m e : DateTime} (hsm : s.micros ≤ m.micros) (hme : m.micros ≤ e.micros)
    (campaignId : Option Int) (r : CallRecord) :
    selected (s, e) campaignId r =
      (selected (s, m) campaignId r || selected (m, e) campaignId r) := by
  obtain ⟨hearlier, hlater⟩ := selected_boundary hsm hme campaignId r
  rw [Bool.eq_iff_iff, Bool.or_eq_true, hearlier, hlater, ← and_or_left]
  exact (and_iff_left (lt_or_ge _ _)).symm

theorem selected_disjoint {s m e : DateTime} (hsm : s.micros ≤ m.micros)
    (hme : m.micros ≤ e.micros) (campaignId : Option Int) (r : CallRecord) :
    ¬ (selected (s, m) campaignId r ∧ selected (m, e) campaignId r) := by
  obtain ⟨hearlier, hlater⟩ := selected_boundary hsm hme campaignId r
  rw [hearlier, hlater]
  rintro ⟨⟨_, hbefore⟩, ⟨_, hafter⟩⟩
  exact absurd hafter (not_le.mpr hbefore)

theorem selected_some (w : DateTime × DateTime) (c : Int) :
    selected w (some c) = fun r => selected w none r && decide (r.campaignId = c) := by
  funext r
  simp [selected, inCampaign]

/-- **The analytics are additive**, over time and over campaigns. -/
theorem analytics_additive (now : DateTime) (f : Figure) : Additive float db now f := by
  refine ⟨?_, fun campaignId s m e hsm hme r => selected_boundary hsm hme campaignId r, ?_⟩
  · intro campaignId s m e hsm hme
    refine ⟨_, _, _, figure_eq_tally float db rfl campaignId f,
      figure_eq_tally float db rfl campaignId f, figure_eq_tally float db rfl campaignId f, ?_⟩
    exact tally_split (fun r _ => selected_split hsm hme campaignId r)
      fun r _ => selected_disjoint hsm hme campaignId r
  · intro since till w hw
    refine ⟨_, fun c => figure_eq_tally float db hw (some c) f, ?_⟩
    have hids : ∀ r ∈ db.calls.rows, r.campaignId ∈ campaignIds db := fun r hr =>
      List.mem_toFinset.mpr (List.mem_map_of_mem hr)
    rw [figure_eq_tally float db hw none f, tally_fiberwise hids]
    simp only [selected_some]

end IsalesApi.Analytics
