import IsalesApi.Foundation.Transition
import IsalesApi.Http

/-!
# Starting and pausing campaigns

`start_campaign` and `pause_campaign` look the campaign up and push a message on
a Redis list, which the scheduler pops at the other end. Any number of requests
are under way at once; campaigns come and go between their steps.

The client is that of a library: a call of `lpush` sends the command, and may
send it again some times when it has had no reply. A command that was sent is
executed once or never, and it can still be executed when the call has failed.
-/

namespace IsalesApi.Campaigns

open Foundation

inductive ControlKind where
  | start
  | pause
deriving DecidableEq

/-- `StartCampaign` or `PauseCampaign`. -/
structure CampaignControl where
  kind : ControlKind
  campaignId : Int
  messageId : String
deriving DecidableEq

/-- `{"message_id": str(msg.message_id), "queued": True}`. -/
structure Queued where
  messageId : String
  queued : Bool
deriving DecidableEq

/-! ## Requests and commands -/

/-- Where a handler stands: before `session.get`, after it, in `lpush`, and
after it. -/
inductive Phase where
  | received
  | found
  | pushing
  | pushed
  | answered (a : Except HttpException Queued)

/-- The commands of one `lpush`: how many were sent, how many of them Redis has
executed, and whether the last one is among these. -/
structure Commands where
  sent : Nat
  executed : Nat
  latest : Bool

/-- A command before the last has not been executed. -/
def Commands.overdue (c : Commands) : Prop := c.executed + (if c.latest then 0 else 1) < c.sent

instance (c : Commands) : Decidable c.overdue := inferInstanceAs (Decidable (_ < _))

/-- What the requests ask for, with the ids `uuid4()` gives their messages; how
often the client sends a command again; and whether `ISALES_REDIS_URL` is set. -/
structure Setting (ι : Type) where
  message : ι → CampaignControl
  retries : Nat
  redisUrl : Bool

/-- The committed campaigns, `app.state.redis` with the number of clients that
were made, the list from left to right, what was popped from it, and the
requests with their commands. -/
structure Control (ι : Type) where
  campaigns : List Int
  redis : Bool
  clients : Nat
  queue : List CampaignControl
  popped : List CampaignControl
  phase : ι → Phase
  commands : ι → Commands

variable {ι : Type}

/-- Nothing has been sent; `app.state.redis` may be set by `lifespan`. -/
def Control.start (campaigns : List Int) (redis : Bool) : Control ι where
  campaigns := campaigns
  redis := redis
  clients := 0
  queue := []
  popped := []
  phase := fun _ => .received
  commands := fun _ => ⟨0, 0, false⟩

inductive ControlAction (ι : Type) where
  | lookup (i : ι)
  | enqueue (i : ι)
  | resend (i : ι)
  | execute (i : ι)
  | executeLate (i : ι)
  | reply (i : ι)
  | respond (i : ι)
  | fail (i : ι)
  | pop
  | create (campaignId : Int)
  | delete (campaignId : Int)

section Steps

variable [DecidableEq ι]

def Control.setPhase (s : Control ι) (i : ι) (p : Phase) : Control ι :=
  { s with phase := Function.update s.phase i p }

def Control.setCommands (s : Control ι) (i : ι) (c : Commands) : Control ι :=
  { s with commands := Function.update s.commands i c }

variable (cfg : Setting ι)

/-- `if (await session.get(Campaign, campaign_id)) is None: raise …`. -/
def Control.lookup (s : Control ι) (i : ι) : Control ι :=
  if (cfg.message i).campaignId ∈ s.campaigns then s.setPhase i .found
  else s.setPhase i (.answered (.error (notFound "campaign_not_found")))

/-- `_enqueue_control` up to the first `await` of `lpush`: nothing else runs
between the look at `app.state` and its assignment. Without the variable,
`get_redis` raises a `KeyError`. -/
def Control.enqueueControl (s : Control ι) (i : ι) : Control ι :=
  if s.redis then (s.setPhase i .pushing).setCommands i ⟨1, 0, false⟩
  else if cfg.redisUrl then
    ({ s with redis := true, clients := s.clients + 1 }.setPhase i .pushing).setCommands i
      ⟨1, 0, false⟩
  else s.setPhase i (.answered (.error internalServerError))

/-- `LPUSH`. -/
def Control.lpush (s : Control ι) (i : ι) (c : Commands) : Control ι :=
  { s.setCommands i c with queue := cfg.message i :: s.queue }

/-- One step. What is executed is the last command sent, or late an earlier one.
-/
def Control.step (s : Control ι) : ControlAction ι → Option (Control ι)
  | .lookup i =>
    match s.phase i with
    | .received => some (s.lookup cfg i)
    | _ => none
  | .enqueue i =>
    match s.phase i with
    | .found => some (s.enqueueControl cfg i)
    | _ => none
  | .resend i =>
    match s.phase i with
    | .pushing =>
      if (s.commands i).sent ≤ cfg.retries then
        some (s.setCommands i ⟨(s.commands i).sent + 1, (s.commands i).executed, false⟩)
      else none
    | _ => none
  | .execute i =>
    if (s.commands i).latest = false ∧ 0 < (s.commands i).sent then
      some (s.lpush cfg i ⟨(s.commands i).sent, (s.commands i).executed + 1, true⟩)
    else none
  | .executeLate i =>
    if (s.commands i).overdue then
      some (s.lpush cfg i { s.commands i with executed := (s.commands i).executed + 1 })
    else none
  | .reply i =>
    match s.phase i with
    | .pushing => if (s.commands i).latest then some (s.setPhase i .pushed) else none
    | _ => none
  | .respond i =>
    match s.phase i with
    | .pushed => some (s.setPhase i (.answered (.ok ⟨(cfg.message i).messageId, true⟩)))
    | _ => none
  | .fail i =>
    match s.phase i with
    | .answered _ => none
    | _ => some (s.setPhase i (.answered (.error internalServerError)))
  | .pop =>
    match s.queue.getLast? with
    | none => none
    | some m => some { s with queue := s.queue.dropLast, popped := s.popped ++ [m] }
  | .create c => some { s with campaigns := c :: s.campaigns }
  | .delete c => some { s with campaigns := s.campaigns.filter (· ≠ c) }

end Steps

end IsalesApi.Campaigns
