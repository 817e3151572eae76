import IsalesApi.Auth.Tokens
import IsalesApi.Foundation.Table

/-!
# Call records and their summaries

The two tables the calls and analytics routers read; the engine writes them.
-/

namespace IsalesApi.Calls

open Foundation Auth

/-- `CallStatus`, by its value; its members are not part of this repository. -/
structure CallStatus where
  value : String
deriving DecidableEq

/-- The columns of `call_record` the routers read. -/
structure CallRecord where
  id : Int
  campaignId : Int
  leadId : Int
  status : CallStatus
  startedAt : Option DateTime
  duration : Option Int
  createdAt : DateTime
deriving DecidableEq

instance : Keyed CallRecord Int := ⟨CallRecord.id⟩

structure CallSummary where
  id : Int
  callRecordId : Int
  goalAchieved : Option Bool
deriving DecidableEq

instance : Keyed CallSummary Int := ⟨CallSummary.id⟩

end IsalesApi.Calls
