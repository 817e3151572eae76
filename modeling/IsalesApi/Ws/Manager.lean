import IsalesApi.Foundation.Transition
import IsalesApi.Ws.Subscriber
import Mathlib

/-!
# The connection manager as a transition system

`ConnectionManager` runs on one event loop, so what happens between two
awaits is one step. A suspended coroutine is a record that says where it
waits: a `connect` for the lock or, holding the lock, for the subscriber
factory; a `disconnect` for the lock; a fired timer's `_maybe_stop_subscriber`
for the lock; a subscriber task in `listen()` or in one `send_text` of
`fan_out`; `shutdown` for the tasks it cancelled. An action is one step of one
of these, or an event from outside: a call, a timer that fires, a message
published on a channel, a Redis failure, the cancellation of a caller. The
lock is handed to any waiter, which includes the order asyncio would choose.

The three dicts are functions to `Option`, so that a key with an empty value
and an absent key stay apart. `log` is a history of what happened, newest
first; no step reads it.
-/

namespace IsalesApi.Ws

open Foundation

/-- Identities of objects. -/
abbrev WebSocket := Nat
abbrev TaskId := Nat
abbrev TimerId := Nat
abbrev CallId := Nat

inductive ConnectPc where
  | waiting    -- for the lock
  | inFactory  -- holds the lock, awaits the subscriber factory
  | returned
  | raised     -- the factory raised, or the caller was cancelled
deriving DecidableEq

/-- One call of `connect(campaign_id, ws)`. -/
structure ConnectCall where
  campaign : CampaignId
  ws : WebSocket
  pc : ConnectPc
deriving DecidableEq

/-- `call` has come to its end. -/
def ConnectCall.finished (call : ConnectCall) : Prop :=
  call.pc = .returned ∨ call.pc = .raised

inductive DisconnectPc where
  | waiting
  | returned
  | raised
deriving DecidableEq

/-- One call of `disconnect(campaign_id, ws)`. -/
structure DisconnectCall where
  campaign : CampaignId
  ws : WebSocket
  pc : DisconnectPc
deriving DecidableEq

inductive TimerPc where
  | armed
  | cancelled
  | fired    -- its stop coroutine exists and waits for the lock
  | stopped  -- its stop coroutine went through its lock section
deriving DecidableEq

/-- A `call_later` timer of a campaign with the stop coroutine it creates. -/
structure Timer where
  campaign : CampaignId
  pc : TimerPc
deriving DecidableEq

/-- The timer can still lead to a stop. -/
def Timer.live (t : Timer) : Prop := t.pc = .armed ∨ t.pc = .fired

/-- `TimerHandle.cancel()`: without effect on a timer that has fired. -/
def Timer.cancel (t : Timer) : Timer :=
  if t.pc = .armed then { t with pc := .cancelled } else t

inductive RunPc where
  | listening
  | sending (message : String) (targets : List WebSocket)  -- awaits `send_text` of the head
  | finished

/-- A subscriber task. `cancelled` records that `task.cancel()` was called. -/
structure Subscriber where
  campaign : CampaignId
  cancelled : Bool
  pc : RunPc
  queue : List Frame

/-- The task runs on and nobody asked it to stop. -/
def Subscriber.live (sub : Subscriber) : Prop :=
  sub.cancelled = false ∧ sub.pc ≠ .finished

inductive Event where
  | joined (c : CampaignId) (ws : WebSocket)
  | left (c : CampaignId) (ws : WebSocket)
  | subscribed (c : CampaignId) (k : TaskId) (backlog : List Frame)
  | armed (c : CampaignId) (t : TimerId)
  | stopped (c : CampaignId) (t : TimerId) (k : TaskId)
  | published (channel : String) (f : Frame)
  | started (c : CampaignId) (k : TaskId) (message : String)
  | sendFailed (ws : WebSocket)

structure State where
  connections : CampaignId → Option (Finset WebSocket)
  tasks : CampaignId → Option TaskId
  handles : CampaignId → Option TimerId
  lock : Option CallId
  connects : CallId → Option ConnectCall
  disconnects : CallId → Option DisconnectCall
  timers : TimerId → Option Timer
  subs : TaskId → Option Subscriber
  nextTimer : TimerId
  nextTask : TaskId
  /-- `some ks`: `shutdown()` was called and still awaits the tasks `ks`. -/
  shutdown : Option (List TaskId)
  inbox : WebSocket → List String
  log : List Event

namespace State

def init : State where
  connections := fun _ => none
  tasks := fun _ => none
  handles := fun _ => none
  lock := none
  connects := fun _ => none
  disconnects := fun _ => none
  timers := fun _ => none
  subs := fun _ => none
  nextTimer := 0
  nextTask := 0
  shutdown := none
  inbox := fun _ => []
  log := []

/-- `_cancel_pending_shutdown`: pop the recorded handle and cancel it. -/
def cancelPendingShutdown (s : State) (c : CampaignId) : State :=
  { s with
    handles := Function.update s.handles c none
    timers := fun t =>
      if s.handles c = some t then (s.timers t).map Timer.cancel else s.timers t }

/-- `_schedule_shutdown`. -/
def scheduleShutdown (s : State) (c : CampaignId) : State :=
  match s.handles c with
  | some _ => s
  | none =>
    { s with
      handles := Function.update s.handles c (some s.nextTimer)
      timers := Function.update s.timers s.nextTimer (some ⟨c, .armed⟩)
      nextTimer := s.nextTimer + 1
      log := .armed c s.nextTimer :: s.log }

/-- `connections = self._connections.setdefault(c, set()); connections.add(ws)`. -/
def addClient (s : State) (c : CampaignId) (ws : WebSocket) : State :=
  { s with
    connections := Function.update s.connections c
      (some (insert ws ((s.connections c).getD ∅)))
    log := .joined c ws :: s.log }

/-- The body of `connect` up to its await or its end. -/
def connectSection (s : State) (i : CallId) (c : CampaignId) (ws : WebSocket) : State :=
  let s := (s.cancelPendingShutdown c).addClient c ws
  match s.tasks c with
  | some _ => { s with connects := Function.update s.connects i (some ⟨c, ws, .returned⟩) }
  | none =>
    { s with
      lock := some i
      connects := Function.update s.connects i (some ⟨c, ws, .inFactory⟩) }

/-- The factory returned a task: `self._tasks[c] = …` and the lock is freed.
`backlog` is what the new subscription received before its task began. -/
def factoryReturned (s : State) (i : CallId) (c : CampaignId) (ws : WebSocket)
    (backlog : List Frame) : State :=
  { s with
    lock := none
    connects := Function.update s.connects i (some ⟨c, ws, .returned⟩)
    tasks := Function.update s.tasks c (some s.nextTask)
    subs := Function.update s.subs s.nextTask (some ⟨c, false, .listening, backlog⟩)
    nextTask := s.nextTask + 1
    log := .subscribed c s.nextTask backlog :: s.log }

/-- An exception leaves the `async with` of `connect` at its await: the lock
is freed, and nothing else is undone. -/
def factoryRaised (s : State) (i : CallId) (c : CampaignId) (ws : WebSocket) : State :=
  { s with
    lock := none
    connects := Function.update s.connects i (some ⟨c, ws, .raised⟩) }

/-- The body of `disconnect`. -/
def disconnectSection (s : State) (i : CallId) (c : CampaignId) (ws : WebSocket) : State :=
  let s := { s with
    disconnects := Function.update s.disconnects i (some ⟨c, ws, .returned⟩) }
  match s.connections c with
  | none => s
  | some conns =>
    if conns.erase ws = ∅ then
      { s with
        connections := Function.update s.connections c none
        log := .left c ws :: s.log }.scheduleShutdown c
    else
      { s with
        connections := Function.update s.connections c (some (conns.erase ws))
        log := .left c ws :: s.log }

/-- `task.cancel()`. -/
def cancelTask (s : State) (k : TaskId) : State :=
  { s with subs := fun j =>
      if j = k then (s.subs j).map fun sub => { sub with cancelled := true } else s.subs j }

/-- `campaign_id in self._connections and self._connections[campaign_id]`. -/
def hasClient (s : State) (c : CampaignId) : Bool :=
  match s.connections c with
  | none => false
  | some conns => conns ≠ ∅

/-- The lock section of `_maybe_stop_subscriber(c)` run by timer `t`, with the
`task.cancel()` that follows it without an await. What is left of the
coroutine only waits for the task. -/
def maybeStopSubscriber (s : State) (t : TimerId) (c : CampaignId) : State :=
  let s := { s with
    handles := Function.update s.handles c none
    timers := Function.update s.timers t (some ⟨c, .stopped⟩) }
  if s.hasClient c then s
  else
    match s.tasks c with
    | none => s
    | some k =>
      { s.cancelTask k with
        tasks := Function.update s.tasks c none
        log := .stopped c t k :: s.log }

/-- A frame reaches every pub/sub connection subscribed to the channel. -/
def publish (s : State) (channel : String) (f : Frame) : State :=
  { s with
    subs := fun k => (s.subs k).map fun sub =>
      if channelFor sub.campaign = channel then { sub with queue := sub.queue ++ [f] } else sub
    log := .published channel f :: s.log }

def setSub (s : State) (k : TaskId) (sub : Subscriber) : State :=
  { s with subs := Function.update s.subs k (some sub) }

/-- `fan_out(c, message)` starts: `targets` is its snapshot of the clients. -/
def startFanOut (s : State) (k : TaskId) (sub : Subscriber) (message : String)
    (targets : List WebSocket) : State :=
  { s.setSub k { sub with pc := if targets = [] then .listening else .sending message targets }
    with log := .started sub.campaign k message :: s.log }

/-- The awaited `send_text` of `ws` ended, and the loop goes on. -/
def sendReturned (s : State) (k : TaskId) (sub : Subscriber) (message : String)
    (ws : WebSocket) (rest : List WebSocket) (ok : Bool) : State :=
  let s := s.setSub k { sub with pc := if rest = [] then .listening else .sending message rest }
  if ok then { s with inbox := Function.update s.inbox ws (s.inbox ws ++ [message]) }
  else { s with log := .sendFailed ws :: s.log }

/-- The tasks in `_tasks`. -/
def recordedTasks (s : State) : List TaskId :=
  (List.range s.nextTask).filter fun k =>
    match s.subs k with
    | none => false
    | some sub => s.tasks sub.campaign = some k

/-- `shutdown()` up to its first await. It does not take the lock. -/
def shutdownSection (s : State) : State :=
  { s with
    timers := fun t => (s.timers t).map fun tm =>
      if s.handles tm.campaign = some t then tm.cancel else tm
    handles := fun _ => none
    tasks := fun _ => none
    subs := fun k => (s.subs k).map fun sub =>
      if s.tasks sub.campaign = some k then { sub with cancelled := true } else sub
    shutdown := some s.recordedTasks }

end State

/-! ## What the lock sections change and what they leave alone -/

section Frame

variable (s : State) (i : CallId) (t : TimerId) (c : CampaignId) (ws : WebSocket)

@[simp] theorem connectSection_connections : (s.connectSection i c ws).connections =
    Function.update s.connections c (some (insert ws ((s.connections c).getD ∅))) := by
  unfold State.connectSection
  simp only
  split <;> rfl

@[simp] theorem connectSection_handles :
    (s.connectSection i c ws).handles = Function.update s.handles c none := by
  unfold State.connectSection
  simp only
  split <;> rfl

@[simp] theorem connectSection_tasks : (s.connectSection i c ws).tasks = s.tasks := by
  unfold State.connectSection
  simp only
  split <;> rfl

@[simp] theorem connectSection_subs : (s.connectSection i c ws).subs = s.subs := by
  unfold State.connectSection
  simp only
  split <;> rfl

@[simp] theorem connectSection_shutdown :
    (s.connectSection i c ws).shutdown = s.shutdown := by
  unfold State.connectSection
  simp only
  split <;> rfl

@[simp] theorem connectSection_inbox : (s.connectSection i c ws).inbox = s.inbox := by
  unfold State.connectSection
  simp only
  split <;> rfl

@[simp] theorem connectSection_log :
    (s.connectSection i c ws).log = .joined c ws :: s.log := by
  unfold State.connectSection
  simp only
  split <;> rfl

@[simp] theorem scheduleShutdown_connects : (s.scheduleShutdown c).connects = s.connects := by
  unfold State.scheduleShutdown
  split <;> rfl

@[simp] theorem scheduleShutdown_disconnects :
    (s.scheduleShutdown c).disconnects = s.disconnects := by
  unfold State.scheduleShutdown
  split <;> rfl

@[simp] theorem scheduleShutdown_subs : (s.scheduleShutdown c).subs = s.subs := by
  unfold State.scheduleShutdown
  split <;> rfl

@[simp] theorem scheduleShutdown_shutdown :
    (s.scheduleShutdown c).shutdown = s.shutdown := by
  unfold State.scheduleShutdown
  split <;> rfl

@[simp] theorem disconnectSection_connects :
    (s.disconnectSection i c ws).connects = s.connects := by
  unfold State.disconnectSection
  simp only
  split
  · rfl
  · split <;> simp

@[simp] theorem disconnectSection_disconnects : (s.disconnectSection i c ws).disconnects =
    Function.update s.disconnects i (some ⟨c, ws, .returned⟩) := by
  unfold State.disconnectSection
  simp only
  split
  · rfl
  · split <;> simp

@[simp] theorem disconnectSection_subs : (s.disconnectSection i c ws).subs = s.subs := by
  unfold State.disconnectSection
  simp only
  split
  · rfl
  · split <;> simp

@[simp] theorem disconnectSection_shutdown :
    (s.disconnectSection i c ws).shutdown = s.shutdown := by
  unfold State.disconnectSection
  simp only
  split
  · rfl
  · split <;> simp

@[simp] theorem maybeStopSubscriber_connections :
    (s.maybeStopSubscriber t c).connections = s.connections := by
  unfold State.maybeStopSubscriber
  simp only
  split
  · rfl
  · split <;> rfl

@[simp] theorem maybeStopSubscriber_connects :
    (s.maybeStopSubscriber t c).connects = s.connects := by
  unfold State.maybeStopSubscriber
  simp only
  split
  · rfl
  · split <;> rfl

@[simp] theorem maybeStopSubscriber_disconnects :
    (s.maybeStopSubscriber t c).disconnects = s.disconnects := by
  unfold State.maybeStopSubscriber
  simp only
  split
  · rfl
  · split <;> rfl

@[simp] theorem maybeStopSubscriber_shutdown :
    (s.maybeStopSubscriber t c).shutdown = s.shutdown := by
  unfold State.maybeStopSubscriber
  simp only
  split
  · rfl
  · split <;> rfl

end Frame

/-- `ws` is in `_connections[c]`. -/
def Registered (s : State) (c : CampaignId) (ws : WebSocket) : Prop :=
  ∃ conns, s.connections c = some conns ∧ ws ∈ conns

inductive Action where
  | callConnect (i : CallId) (c : CampaignId) (ws : WebSocket)
  | callDisconnect (i : CallId) (c : CampaignId) (ws : WebSocket)
  | enter (i : CallId)           -- `connect` call `i` gets the lock
  | factoryReturns (i : CallId) (backlog : List Frame)
  | factoryRaises (i : CallId)
  | cancelConnect (i : CallId)   -- the task that runs the suspended `connect` is cancelled
  | leave (i : CallId)           -- `disconnect` call `i` gets the lock
  | cancelDisconnect (i : CallId)
  | fire (t : TimerId)
  | stop (t : TimerId)           -- the stop coroutine of timer `t` gets the lock
  | publish (channel : String) (f : Frame)
  | read (k : TaskId) (targets : List WebSocket)  -- task `k` takes its next frame
  | send (k : TaskId) (ok : Bool)
  | die (k : TaskId)             -- `listen()` of task `k` raises or ends
  | unwind (k : TaskId)          -- `CancelledError` has gone through task `k`
  | shutdown
  | awaitTask                    -- the task `shutdown` waits for has finished

/-- One step of the event loop. -/
def step (s : State) : Action → Option State
  | .callConnect i c ws =>
    match s.connects i with
    | none => some { s with connects := Function.update s.connects i (some ⟨c, ws, .waiting⟩) }
    | some _ => none
  | .callDisconnect i c ws =>
    match s.disconnects i with
    | none =>
      some { s with disconnects := Function.update s.disconnects i (some ⟨c, ws, .waiting⟩) }
    | some _ => none
  | .enter i =>
    match s.lock, s.connects i with
    | none, some ⟨c, ws, .waiting⟩ => some (s.connectSection i c ws)
    | _, _ => none
  | .factoryReturns i backlog =>
    match s.connects i with
    | some ⟨c, ws, .inFactory⟩ => some (s.factoryReturned i c ws backlog)
    | _ => none
  | .factoryRaises i =>
    match s.connects i with
    | some ⟨c, ws, .inFactory⟩ => some (s.factoryRaised i c ws)
    | _ => none
  | .cancelConnect i =>
    match s.connects i with
    | some ⟨c, ws, .inFactory⟩ => some (s.factoryRaised i c ws)
    | some ⟨c, ws, .waiting⟩ =>
      some { s with connects := Function.update s.connects i (some ⟨c, ws, .raised⟩) }
    | _ => none
  | .leave i =>
    match s.lock, s.disconnects i with
    | none, some ⟨c, ws, .waiting⟩ => some (s.disconnectSection i c ws)
    | _, _ => none
  | .cancelDisconnect i =>
    match s.disconnects i with
    | some ⟨c, ws, .waiting⟩ =>
      some { s with disconnects := Function.update s.disconnects i (some ⟨c, ws, .raised⟩) }
    | _ => none
  | .fire t =>
    match s.timers t with
    | some ⟨c, .armed⟩ =>
      some { s with timers := Function.update s.timers t (some ⟨c, .fired⟩) }
    | _ => none
  | .stop t =>
    match s.lock, s.timers t with
    | none, some ⟨c, .fired⟩ => some (s.maybeStopSubscriber t c)
    | _, _ => none
  | .publish channel f => some (s.publish channel f)
  | .read k targets =>
    match s.subs k with
    | some ⟨c, false, .listening, f :: queue⟩ =>
      if f.type ≠ "message" then some (s.setSub k ⟨c, false, .listening, queue⟩)
      else
        match f.data.raw with
        -- the exception is logged by `_run`, which ends
        | none => some (s.setSub k ⟨c, false, .finished, queue⟩)
        | some message =>
          if targets.Nodup ∧ targets.toFinset = (s.connections c).getD ∅ then
            some (s.startFanOut k ⟨c, false, .listening, queue⟩ message targets)
          else none
    | _ => none
  | .send k ok =>
    match s.subs k with
    | some ⟨c, false, .sending message (ws :: rest), queue⟩ =>
      some (s.sendReturned k ⟨c, false, .listening, queue⟩ message ws rest ok)
    | _ => none
  | .die k =>
    match s.subs k with
    | some ⟨c, false, .listening, queue⟩ => some (s.setSub k ⟨c, false, .finished, queue⟩)
    | _ => none
  | .unwind k =>
    match s.subs k with
    | some ⟨_, _, .finished, _⟩ => none
    | some ⟨c, true, _, queue⟩ => some (s.setSub k ⟨c, true, .finished, queue⟩)
    | _ => none
  | .shutdown =>
    match s.shutdown with
    | none => some s.shutdownSection
    | some _ => none
  | .awaitTask =>
    match s.shutdown with
    | some (k :: ks) =>
      match s.subs k with
      | some ⟨_, _, .finished, _⟩ => some { s with shutdown := some ks }
      | _ => none
    | _ => none

/-! ## What each action can do -/

section Inversion

variable {s s' : State}

theorem step_callConnect {i : CallId} {c : CampaignId} {ws : WebSocket} :
    step s (.callConnect i c ws) = some s' ↔
      s.connects i = none ∧
        { s with connects := Function.update s.connects i (some ⟨c, ws, .waiting⟩) } = s' := by
  simp only [step]
  split <;> simp_all

theorem step_callDisconnect {i : CallId} {c : CampaignId} {ws : WebSocket} :
    step s (.callDisconnect i c ws) = some s' ↔
      s.disconnects i = none ∧
        { s with
          disconnects := Function.update s.disconnects i (some ⟨c, ws, .waiting⟩) } = s' := by
  simp only [step]
  split <;> simp_all

theorem step_enter {i : CallId} :
    step s (.enter i) = some s' ↔
      ∃ c ws, s.lock = none ∧ s.connects i = some ⟨c, ws, .waiting⟩ ∧
        s.connectSection i c ws = s' := by
  simp only [step]
  split <;> simp_all

theorem step_factoryReturns {i : CallId} {backlog : List Frame} :
    step s (.factoryReturns i backlog) = some s' ↔
      ∃ c ws, s.connects i = some ⟨c, ws, .inFactory⟩ ∧
        s.factoryReturned i c ws backlog = s' := by
  simp only [step]
  split <;> simp_all

theorem step_factoryRaises {i : CallId} :
    step s (.factoryRaises i) = some s' ↔
      ∃ c ws, s.connects i = some ⟨c, ws, .inFactory⟩ ∧ s.factoryRaised i c ws = s' := by
  simp only [step]
  split <;> simp_all

theorem step_cancelConnect {i : CallId} :
    step s (.cancelConnect i) = some s' ↔
      (∃ c ws, s.connects i = some ⟨c, ws, .inFactory⟩ ∧ s.factoryRaised i c ws = s') ∨
      (∃ c ws, s.connects i = some ⟨c, ws, .waiting⟩ ∧
        { s with connects := Function.update s.connects i (some ⟨c, ws, .raised⟩) } = s') := by
  simp only [step]
  split <;> simp_all

theorem step_leave {i : CallId} :
    step s (.leave i) = some s' ↔
      ∃ c ws, s.lock = none ∧ s.disconnects i = some ⟨c, ws, .waiting⟩ ∧
        s.disconnectSection i c ws = s' := by
  simp only [step]
  split <;> simp_all

theorem step_cancelDisconnect {i : CallId} :
    step s (.cancelDisconnect i) = some s' ↔
      ∃ c ws, s.disconnects i = some ⟨c, ws, .waiting⟩ ∧
        { s with
          disconnects := Function.update s.disconnects i (some ⟨c, ws, .raised⟩) } = s' := by
  simp only [step]
  split <;> simp_all

theorem step_fire {t : TimerId} :
    step s (.fire t) = some s' ↔
      ∃ c, s.timers t = some ⟨c, .armed⟩ ∧
        { s with timers := Function.update s.timers t (some ⟨c, .fired⟩) } = s' := by
  simp only [step]
  split <;> simp_all

theorem step_stop {t : TimerId} :
    step s (.stop t) = some s' ↔
      ∃ c, s.lock = none ∧ s.timers t = some ⟨c, .fired⟩ ∧
        s.maybeStopSubscriber t c = s' := by
  simp only [step]
  split <;> simp_all

theorem step_read {k : TaskId} {targets : List WebSocket} :
    step s (.read k targets) = some s' ↔
      ∃ c f queue, s.subs k = some ⟨c, false, .listening, f :: queue⟩ ∧
        ((f.type ≠ "message" ∧ s.setSub k ⟨c, false, .listening, queue⟩ = s') ∨
         (f.type = "message" ∧ f.data.raw = none ∧
            s.setSub k ⟨c, false, .finished, queue⟩ = s') ∨
         (∃ message, f.type = "message" ∧ f.data.raw = some message ∧ targets.Nodup ∧
            targets.toFinset = (s.connections c).getD ∅ ∧
            s.startFanOut k ⟨c, false, .listening, queue⟩ message targets = s')) := by
  simp only [step]
  split
  · split
    · simp_all
    · split
      · simp_all
      · split <;> simp_all
  · simp_all

theorem step_send {k : TaskId} {ok : Bool} :
    step s (.send k ok) = some s' ↔
      ∃ c message ws rest queue,
        s.subs k = some ⟨c, false, .sending message (ws :: rest), queue⟩ ∧
        s.sendReturned k ⟨c, false, .listening, queue⟩ message ws rest ok = s' := by
  simp only [step]
  split <;> simp_all

theorem step_die {k : TaskId} :
    step s (.die k) = some s' ↔
      ∃ c queue, s.subs k = some ⟨c, false, .listening, queue⟩ ∧
        s.setSub k ⟨c, false, .finished, queue⟩ = s' := by
  simp only [step]
  split <;> simp_all

theorem step_unwind {k : TaskId} :
    step s (.unwind k) = some s' ↔
      ∃ c pc queue, s.subs k = some ⟨c, true, pc, queue⟩ ∧ pc ≠ .finished ∧
        s.setSub k ⟨c, true, .finished, queue⟩ = s' := by
  simp only [step]
  split <;> simp_all

theorem step_shutdown :
    step s .shutdown = some s' ↔ s.shutdown = none ∧ s.shutdownSection = s' := by
  simp only [step]
  split <;> simp_all

theorem step_awaitTask :
    step s .awaitTask = some s' ↔
      ∃ k ks sub, s.shutdown = some (k :: ks) ∧ s.subs k = some sub ∧
        sub.pc = .finished ∧ { s with shutdown := some ks } = s' := by
  simp only [step]
  split
  · rename_i k ks hks
    split
    · simp_all
    · rename_i hother
      constructor
      · intro h
        cases h
      · rintro ⟨j, js, ⟨c, b, pc, queue⟩, hjs, hj, rfl, _⟩
        rw [hks] at hjs
        cases hjs
        exact absurd hj (hother c b queue)
  · simp_all

end Inversion

end IsalesApi.Ws
