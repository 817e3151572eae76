import IsalesApi.Calls.Records
import IsalesApi.Http

/-!
# Single calls

`get_call` and `get_call_summary`. The summary of a call is looked up by a column
that is no key; a call with two of them cannot be answered.
-/

namespace IsalesApi.Calls

open Foundation

/-- `scalar_one_or_none()`; several rows raise `MultipleResultsFound`. -/
def scalarOneOrNone {α : Type} : List α → Except HttpException (Option α)
  | [] => .ok none
  | [a] => .ok (some a)
  | _ => .error internalServerError

section Handlers

variable {D S : Type}

/-- `get_call`. -/
def getCall (modelValidate : CallRecord → Except HttpException D) (callId : Int)
    (calls : Table CallRecord) : Except HttpException D :=
  match calls.get? callId with
  | none => .error (notFound "call_not_found")
  | some obj => modelValidate obj

/-- `get_call_summary`. -/
def getCallSummary (modelValidate : CallSummary → Except HttpException S) (callId : Int)
    (summaries : Table CallSummary) : Except HttpException S :=
  match scalarOneOrNone (summaries.select fun s => s.callRecordId = callId) with
  | .error exc => .error exc
  | .ok none => .error (notFound "summary_not_found")
  | .ok (some summary) => modelValidate summary

variable {readSummary : CallSummary → Except HttpException S} {summaries : Table CallSummary}
  {callId : Int}

/-- The summary of a call that has one. -/
theorem getCallSummary_eq {s : CallSummary}
    (h : (summaries.select fun s => s.callRecordId = callId) = [s]) :
    getCallSummary readSummary callId summaries = readSummary s := by
  unfold getCallSummary
  rw [h]
  rfl

end Handlers

end IsalesApi.Calls
