import IsalesApi.Calls.Records
import IsalesApi.Foundation.Aggregates

/-!
# The analytics endpoints

Each endpoint sends one statement over the call records of a window, which a
campaign may narrow. The quotient of two counts is a float: `float` is the float
nearest to an exact quotient.
-/

namespace IsalesApi.Analytics

open Foundation Auth Calls

structure Database where
  calls : Table CallRecord
  summaries : Table CallSummary

structure AnswerRate where
  total : Int
  answered : Int
  rate : ℚ
deriving DecidableEq

structure GoalRate where
  totalCalls : Int
  goalAchieved : Int
  rate : ℚ
deriving DecidableEq

structure DurationBucket where
  label : String
  lowerSeconds : Int
  upperSeconds : Option Int
  count : Int
deriving DecidableEq

structure DurationDistribution where
  total : Int
  buckets : List DurationBucket
deriving DecidableEq

/-! ## The window -/

/-- `timedelta(days=7)`. -/
def sevenDays : Timedelta := 7 * 24 * 60 * 60 * 1000000

/-- `_window(since, until)`. -/
def window (since till : Option DateTime) (now : DateTime) :
    Except PyError (DateTime × DateTime) :=
  let stop := till.getD now
  match since with
  | some start => .ok (start, stop)
  | none => (stop.add (-sevenDays)).map fun start => (start, stop)

/-- `created_at >= start, created_at < end`. -/
def inWindow (w : DateTime × DateTime) (r : CallRecord) : Bool :=
  w.1.micros ≤ r.createdAt.micros && r.createdAt.micros < w.2.micros

/-- `campaign_id == …`, when it is given. -/
def inCampaign (campaignId : Option Int) (r : CallRecord) : Bool :=
  campaignId.all fun c => r.campaignId = c

/-- `.where(…)` of the first two statements. -/
def selected (w : DateTime × DateTime) (campaignId : Option Int) (r : CallRecord) : Bool :=
  inWindow w r && inCampaign campaignId r

/-! ## Rates -/

section Rates

variable (float : ℚ → ℚ)

/-- `(n / total) if total else 0.0`. -/
def quotient (n total : Int) : ℚ := if total = 0 then 0 else float (n / total)

/-- `case((CallRecord.started_at.isnot(None), 1), else_=0)`. -/
def answeredCase (r : CallRecord) : Int := if r.startedAt.isSome then 1 else 0

/-- `answer_rate`. -/
def answerRate (db : Database) (since till : Option DateTime) (campaignId : Option Int)
    (now : DateTime) : Except PyError AnswerRate :=
  (window since till now).map fun w =>
    let rows := db.calls.rows.filter (selected w campaignId)
    let total : Int := rows.length
    let answered := (sqlSum (rows.map answeredCase)).getD 0
    ⟨total, answered, quotient float answered total⟩

/-- `case((CallSummary.goal_achieved.is_(True), 1), else_=0)`, on a joined row. -/
def goalCase (x : CallRecord × Option CallSummary) : Int :=
  if x.2.bind CallSummary.goalAchieved = some true then 1 else 0

/-- `CallSummary.call_record_id == CallRecord.id`. -/
def summaryOf (r : CallRecord) (s : CallSummary) : Bool := s.callRecordId = r.id

/-- `goal_rate`. -/
def goalRate (db : Database) (since till : Option DateTime) (campaignId : Option Int)
    (now : DateTime) : Except PyError GoalRate :=
  (window since till now).map fun w =>
    let rows := (leftJoin summaryOf db.summaries.rows db.calls.rows).filter fun x =>
      selected w campaignId x.1
    let total : Int := rows.length
    let goal := (sqlSum (rows.map goalCase)).getD 0
    ⟨total, goal, quotient float goal total⟩

end Rates

/-! ## Durations -/

/-- `_DURATION_BUCKETS`. -/
def durationBuckets : List (String × Int × Option Int) :=
  [("0-30s", 0, some 30), ("30-60s", 30, some 60), ("1-3m", 60, some 180),
    ("3-10m", 180, some 600), (">10m", 600, none)]

/-- The condition of a bucket. -/
def inBucket (lo : Int) (hi : Option Int) (d : Int) : Bool :=
  match hi with
  | none => lo ≤ d
  | some hi => lo ≤ d && d < hi

/-- The counting of `duration_distribution`. -/
def distribution (durations : List Int) : DurationDistribution where
  total := durations.length
  buckets := durationBuckets.map fun (label, lo, hi) =>
    ⟨label, lo, hi, durations.countP (inBucket lo hi)⟩

/-- `[int(d or 0) for d in …]`. -/
def durationsOf (db : Database) (w : DateTime × DateTime) (campaignId : Option Int) : List Int :=
  (db.calls.rows.filter fun r =>
    inWindow w r && r.duration.isSome && inCampaign campaignId r).map fun r => r.duration.getD 0

/-- `duration_distribution`. -/
def durationDistribution (db : Database) (since till : Option DateTime) (campaignId : Option Int)
    (now : DateTime) : Except PyError DurationDistribution :=
  (window since till now).map fun w => distribution (durationsOf db w campaignId)

end IsalesApi.Analytics
