import IsalesApi.Foundation.Settling
import IsalesApi.Ws.Handlers
import IsalesApi.Ws.Stream

/-!
# The manager comes to rest

Calls, published frames, cancellations, failures of a subscription and
`shutdown()` come from outside. Everything else the event loop does by itself: it
hands the lock on, resumes coroutines, fires timers and runs the tasks, and Redis
answers a `subscribe` or refuses it. From every reachable state these steps end,
in any order, and where they end nothing is stuck: no coroutine waits, no
`shutdown()` hangs, and a subscriber is left only where there is a client.
-/

namespace IsalesApi.Ws

open Foundation

/-- The steps the event loop takes by itself. -/
def Action.own : Action → Bool
  | .enter _ | .factoryReturns .. | .factoryRaises _ | .leave _ | .fire _ | .stop _ | .read ..
  | .send .. | .unwind _ | .awaitTask => true
  | _ => false

/-! ## The work that is left -/

/-- How often a `connect` goes on. -/
def ConnectCall.turns (call : ConnectCall) : ℕ :=
  match call.pc with
  | .waiting => 2
  | .inFactory => 1
  | _ => 0

def DisconnectCall.turns (call : DisconnectCall) : ℕ :=
  if call.pc = .waiting then 1 else 0

def Timer.turns (tm : Timer) : ℕ :=
  match tm.pc with
  | .armed => 2
  | .fired => 1
  | _ => 0

/-- The sends of a fan-out and the end of the task. -/
def Subscriber.turns (sub : Subscriber) : ℕ :=
  match sub.pc with
  | .listening => 1
  | .sending _ targets => targets.length + 1
  | .finished => 0

/-- The turns of the calls below `n`. -/
def calls (n : ℕ) (s : State) : ℕ :=
  load ConnectCall.turns s.connects n + load DisconnectCall.turns s.disconnects n

def timerTurns (s : State) : ℕ := load Timer.turns s.timers s.nextTimer

def queued (s : State) : ℕ := load (fun sub => sub.queue.length) s.subs s.nextTask

def taskTurns (s : State) : ℕ :=
  load Subscriber.turns s.subs s.nextTask + (s.shutdown.map List.length).getD 0

/-- A call may arm a timer or start a task, a timer may only stop a task, and a
frame that is read may start a fan-out. -/
def work (n : ℕ) (s : State) : ℕ ×ₗ ℕ ×ₗ ℕ ×ₗ ℕ :=
  toLex (calls n s, toLex (timerTurns s, toLex (queued s, taskTurns s)))

section Work

variable {n : ℕ} {s s' : State}

theorem work_lt_of_calls (h : calls n s' < calls n s) : work n s' < work n s :=
  Prod.Lex.toLex_lt_toLex.mpr (Or.inl h)

theorem work_lt_of_timers (hcalls : calls n s' = calls n s) (h : timerTurns s' < timerTurns s) :
    work n s' < work n s :=
  Prod.Lex.toLex_lt_toLex.mpr (Or.inr ⟨hcalls, Prod.Lex.toLex_lt_toLex.mpr (Or.inl h)⟩)

theorem work_lt_of_tasks (hcalls : calls n s' = calls n s) (htimers : timerTurns s' = timerTurns s)
    (h : queued s' < queued s ∨ queued s' = queued s ∧ taskTurns s' < taskTurns s) :
    work n s' < work n s :=
  Prod.Lex.toLex_lt_toLex.mpr (Or.inr ⟨hcalls,
    Prod.Lex.toLex_lt_toLex.mpr (Or.inr ⟨htimers, Prod.Lex.toLex_lt_toLex.mpr h⟩)⟩)

/-- The calls that have been made are those below `n`. -/
structure Called (n : ℕ) (s : State) : Prop where
  connects : ∀ i call, s.connects i = some call → i < n
  disconnects : ∀ i call, s.disconnects i = some call → i < n

theorem Called.connect_lt (h : Called n s) {i : CallId} {x y : ConnectCall}
    (hi : s.connects i = some x) (hlt : y.turns < x.turns)
    (hcon : s'.connects = Function.update s.connects i (some y))
    (hdis : s'.disconnects = s.disconnects) : calls n s' < calls n s := by
  unfold calls
  rw [hcon, hdis]
  exact Nat.add_lt_add_right (load_update_lt hi (h.connects i x hi) hlt) _

theorem Called.disconnect_lt (h : Called n s) {i : CallId} {x y : DisconnectCall}
    (hi : s.disconnects i = some x) (hlt : y.turns < x.turns)
    (hcon : s'.connects = s.connects)
    (hdis : s'.disconnects = Function.update s.disconnects i (some y)) :
    calls n s' < calls n s := by
  unfold calls
  rw [hcon, hdis]
  exact Nat.add_lt_add_left (load_update_lt hi (h.disconnects i x hi) hlt) _

/-- A step of one task leaves a queue shorter, or the task closer to its end. -/
theorem work_lt_setSub (hcoh : Coherent s) {k : TaskId} {old new : Subscriber}
    (hk : s.subs k = some old) (hcon : s'.connects = s.connects)
    (hdis : s'.disconnects = s.disconnects) (htimers : s'.timers = s.timers)
    (hnext : s'.nextTimer = s.nextTimer) (hsubs : s'.subs = Function.update s.subs k (some new))
    (htask : s'.nextTask = s.nextTask) (hshut : s'.shutdown = s.shutdown)
    (hless : new.queue.length < old.queue.length ∨
      new.queue = old.queue ∧ new.turns < old.turns) : work n s' < work n s := by
  have hbound := hcoh.taskBound k old hk
  refine work_lt_of_tasks (by simp [calls, hcon, hdis]) (by simp [timerTurns, htimers, hnext]) ?_
  rcases hless with hqueue | ⟨hqueue, hturns⟩
  · refine Or.inl ?_
    unfold queued
    rw [hsubs, htask]
    exact load_update_lt hk hbound hqueue
  · refine Or.inr ⟨?_, ?_⟩
    · unfold queued
      rw [hsubs, htask]
      exact load_update_eq hk (by rw [hqueue])
    · unfold taskTurns
      rw [hsubs, htask, hshut]
      exact Nat.add_lt_add_right (load_update_lt hk hbound hturns) _

theorem connectSection_connects (s : State) (i : CallId) (c : CampaignId) (ws : WebSocket) :
    ∃ pc, (s.connectSection i c ws).connects = Function.update s.connects i (some ⟨c, ws, pc⟩) ∧
      ConnectCall.turns ⟨c, ws, pc⟩ < 2 := by
  unfold State.connectSection
  simp only
  split
  · exact ⟨.returned, rfl, Nat.zero_lt_two⟩
  · exact ⟨.inFactory, rfl, Nat.one_lt_two⟩

@[simp] theorem connectSection_disconnects {i : CallId} {c : CampaignId} {ws : WebSocket} :
    (s.connectSection i c ws).disconnects = s.disconnects := by
  unfold State.connectSection
  simp only
  split <;> rfl

@[simp] theorem maybeStopSubscriber_timers {t : TimerId} {c : CampaignId} :
    (s.maybeStopSubscriber t c).timers = Function.update s.timers t (some ⟨c, .stopped⟩) := by
  unfold State.maybeStopSubscriber
  simp only
  split
  · rfl
  · split <;> rfl

@[simp] theorem maybeStopSubscriber_nextTimer {t : TimerId} {c : CampaignId} :
    (s.maybeStopSubscriber t c).nextTimer = s.nextTimer := by
  unfold State.maybeStopSubscriber
  simp only
  split
  · rfl
  · split <;> rfl

/-- Every step of its own leaves the event loop less work. -/
theorem Called.work_lt (h : Called n s) (hcoh : Coherent s) {a : Action} (ha : a.own)
    (hs : step s a = some s') : work n s' < work n s := by
  cases a with
  | enter i =>
    obtain ⟨c, ws, _, hi, rfl⟩ := step_enter.mp hs
    obtain ⟨pc, hcon, hlt⟩ := connectSection_connects s i c ws
    exact work_lt_of_calls (h.connect_lt hi hlt hcon connectSection_disconnects)
  | factoryReturns i backlog =>
    obtain ⟨c, ws, hi, rfl⟩ := step_factoryReturns.mp hs
    refine work_lt_of_calls (h.connect_lt hi (y := ⟨c, ws, .returned⟩) ?_ rfl rfl)
    exact Nat.zero_lt_one
  | factoryRaises i =>
    obtain ⟨c, ws, hi, rfl⟩ := step_factoryRaises.mp hs
    refine work_lt_of_calls (h.connect_lt hi (y := ⟨c, ws, .raised⟩) ?_ rfl rfl)
    exact Nat.zero_lt_one
  | leave i =>
    obtain ⟨c, ws, _, hi, rfl⟩ := step_leave.mp hs
    refine work_lt_of_calls (h.disconnect_lt hi (y := ⟨c, ws, .returned⟩) ?_
      (disconnectSection_connects ..) (disconnectSection_disconnects ..))
    exact Nat.zero_lt_one
  | fire t =>
    obtain ⟨c, ht, rfl⟩ := step_fire.mp hs
    refine work_lt_of_timers rfl (load_update_lt ht (hcoh.timerBound t _ ht) ?_)
    exact Nat.one_lt_two
  | stop t =>
    obtain ⟨c, _, ht, rfl⟩ := step_stop.mp hs
    refine work_lt_of_timers (by simp [calls]) ?_
    unfold timerTurns
    rw [maybeStopSubscriber_timers, maybeStopSubscriber_nextTimer]
    exact load_update_lt ht (hcoh.timerBound t _ ht) Nat.zero_lt_one
  | read k targets =>
    obtain ⟨c, f, queue, hk, hcase⟩ := step_read.mp hs
    have hshorter : queue.length < (f :: queue).length := Nat.lt_succ_self _
    -- the frame leaves the queue, whatever it makes the task do
    rcases hcase with ⟨_, rfl⟩ | ⟨_, _, rfl⟩ | ⟨message, _, _, _, _, rfl⟩
    · exact work_lt_setSub hcoh hk rfl rfl rfl rfl rfl rfl rfl (Or.inl hshorter)
    · exact work_lt_setSub hcoh hk rfl rfl rfl rfl rfl rfl rfl (Or.inl hshorter)
    · exact work_lt_setSub hcoh hk rfl rfl rfl rfl rfl rfl rfl (Or.inl hshorter)
  | send k ok =>
    obtain ⟨c, message, ws, rest, queue, hk, rfl⟩ := step_send.mp hs
    have hcloser : Subscriber.turns
        ⟨c, false, if rest = [] then .listening else .sending message rest, queue⟩ <
        Subscriber.turns ⟨c, false, .sending message (ws :: rest), queue⟩ := by
      by_cases hrest : rest = []
      · simp [Subscriber.turns, hrest]
      · simp [Subscriber.turns, hrest]
    -- the receiver counts as served, also when the send has failed
    cases ok with
    | false => exact work_lt_setSub hcoh hk rfl rfl rfl rfl rfl rfl rfl (Or.inr ⟨rfl, hcloser⟩)
    | true => exact work_lt_setSub hcoh hk rfl rfl rfl rfl rfl rfl rfl (Or.inr ⟨rfl, hcloser⟩)
  | unwind k =>
    obtain ⟨c, pc, queue, hk, hpc, rfl⟩ := step_unwind.mp hs
    -- a cancelled task ends from wherever it was
    have hcloser : Subscriber.turns ⟨c, true, .finished, queue⟩ <
        Subscriber.turns ⟨c, true, pc, queue⟩ := by
      cases pc with
      | finished => exact absurd rfl hpc
      | listening => exact Nat.zero_lt_one
      | sending message targets => exact Nat.zero_lt_succ _
    exact work_lt_setSub hcoh hk rfl rfl rfl rfl rfl rfl rfl (Or.inr ⟨rfl, hcloser⟩)
  | awaitTask =>
    obtain ⟨k, ks, sub, hks, _, _, rfl⟩ := step_awaitTask.mp hs
    refine work_lt_of_tasks rfl rfl (Or.inr ⟨rfl, ?_⟩)
    simp [taskTurns, hks]
  | _ => cases ha

theorem Called.mono {m : ℕ} (h : Called n s) (hnm : n ≤ m) : Called m s where
  connects := fun i call hi => (h.connects i call hi).trans_le hnm
  disconnects := fun i call hi => (h.disconnects i call hi).trans_le hnm

/-- Calls come from outside. -/
theorem Called.step (h : Called n s) {a : Action} (ha : a.call = false)
    (hs : step s a = some s') : Called n s' where
  connects := by
    intro i call hi
    obtain ⟨old, hold, _⟩ := (clientStep ha hs).connects hi
    exact h.connects i old hold
  disconnects := by
    intro i call hi
    obtain ⟨old, hold, _⟩ := (clientStep ha hs).disconnects hi
    exact h.disconnects i old hold

theorem exists_called_step {a : Action} (h : ∃ n, Called n s) (hs : step s a = some s') :
    ∃ n, Called n s' := by
  obtain ⟨n, h⟩ := h
  cases a with
  | callConnect i c ws =>
    obtain ⟨_, rfl⟩ := step_callConnect.mp hs
    have hmore := h.mono (Nat.le_max_left n (i + 1))
    refine ⟨max n (i + 1), fun j call hj => ?_, hmore.disconnects⟩
    rcases update_eq_some.mp hj with ⟨rfl, _⟩ | ⟨_, hj⟩
    · exact Nat.lt_of_succ_le (Nat.le_max_right n (j + 1))
    · exact hmore.connects j call hj
  | callDisconnect i c ws =>
    obtain ⟨_, rfl⟩ := step_callDisconnect.mp hs
    have hmore := h.mono (Nat.le_max_left n (i + 1))
    refine ⟨max n (i + 1), hmore.connects, fun j call hj => ?_⟩
    rcases update_eq_some.mp hj with ⟨rfl, _⟩ | ⟨_, hj⟩
    · exact Nat.lt_of_succ_le (Nat.le_max_right n (j + 1))
    · exact hmore.disconnects j call hj
  | _ => exact ⟨n, h.step rfl hs⟩

end Work

/-! ## Where the manager can rest -/

/-- The task was asked to stop, or has come to its end. -/
def Ending (s : State) (k : TaskId) : Prop :=
  ∃ sub, s.subs k = some sub ∧ (sub.cancelled = true ∨ sub.pc = .finished)

/-- A fan-out awaits a send, and `shutdown()` only tasks that will end. -/
structure Tended (s : State) : Prop where
  targets : ∀ k sub message, s.subs k = some sub → sub.pc ≠ .sending message []
  awaited : ∀ ks, s.shutdown = some ks → ∀ k ∈ ks, Ending s k

section Rest

variable {s s' : State} {a : Action}

theorem SubStep.targets (hs : SubStep s a s')
    (h : ∀ k sub message, s.subs k = some sub → sub.pc ≠ .sending message []) :
    ∀ k sub message, s'.subs k = some sub → sub.pc ≠ .sending message [] := by
  have hset : ∀ {j : TaskId} {new : Subscriber}, s'.subs = Function.update s.subs j (some new) →
      (∀ message, new.pc ≠ .sending message []) →
      ∀ k sub message, s'.subs k = some sub → sub.pc ≠ .sending message [] := by
    intro j new hsubs hnew k sub message hk
    rw [hsubs] at hk
    rcases update_eq_some.mp hk with ⟨_, heq⟩ | ⟨_, hk⟩
    · cases heq
      exact hnew message
    · exact h k sub message hk
  cases hs with
  | same es hsubs => exact hsubs ▸ h
  | cancelled p es hsubs =>
    intro k sub message hk
    rw [hsubs] at hk
    obtain ⟨old, hold, rfl⟩ := Option.map_eq_some_iff.mp hk
    split <;> exact h k old message hold
  | created i c ws backlog hi heq =>
    subst heq
    exact hset rfl (by simp)
  | published channel f heq =>
    subst heq
    intro k sub message hk
    obtain ⟨old, hold, rfl⟩ := Option.map_eq_some_iff.mp hk
    split <;> exact h k old message hold
  | skipped k c f queue pc hk hf hpc heq =>
    subst heq
    rcases hpc with rfl | rfl <;> exact hset rfl (by simp)
  | ended k sub hk hsub heq =>
    subst heq
    exact hset rfl (by simp)
  | started k c f queue message targets hk hf hnodup htargets heq =>
    subst heq
    -- a loop over no receivers is left at once
    refine hset rfl fun message' => ?_
    by_cases hempty : targets = []
    · simp [hempty]
    · simp [hempty]
  | sent k c message ws rest queue ok ha hk heq =>
    subst heq
    have hpc : ∀ message', (if rest = [] then RunPc.listening else .sending message rest) ≠
        .sending message' [] := by
      intro message'
      by_cases hempty : rest = []
      · simp [hempty]
      · simp [hempty]
    cases ok <;> exact hset rfl hpc

theorem SubStep.ending (hs : SubStep s a s') (hcoh : Coherent s) {k : TaskId}
    (h : Ending s k) : Ending s' k := by
  obtain ⟨sub, hk, hend⟩ := h
  -- a task that is listening or sending on is not cancelled
  have hset : ∀ {j : TaskId} {old new : Subscriber}, s.subs j = some old →
      s'.subs = Function.update s.subs j (some new) →
      (old.cancelled = true ∨ old.pc = .finished → new.cancelled = true ∨ new.pc = .finished) →
      Ending s' k := by
    intro j old new hj hsubs hnew
    unfold Ending
    rw [hsubs]
    by_cases hkj : k = j
    · subst hkj
      rw [hk] at hj
      cases hj
      exact ⟨new, Function.update_self _ _ _, hnew hend⟩
    · exact ⟨sub, by rwa [Function.update_of_ne hkj], hend⟩
  cases hs with
  | same es hsubs => exact ⟨sub, hsubs ▸ hk, hend⟩
  | cancelled p es hsubs =>
    refine ⟨_, by rw [hsubs, hk, Option.map_some], ?_⟩
    split
    · exact Or.inl rfl
    · exact hend
  | created i c ws backlog hi heq =>
    subst heq
    refine ⟨sub, ?_, hend⟩
    show Function.update s.subs s.nextTask _ k = some sub
    rwa [Function.update_of_ne (Nat.ne_of_lt (hcoh.taskBound k sub hk))]
  | published channel f heq =>
    subst heq
    refine ⟨_, by simp [State.publish, hk]; rfl, ?_⟩
    split <;> exact hend
  | skipped j c f queue pc hj hf hpc heq =>
    subst heq
    exact hset hj rfl (by simp)
  | ended j old hj hsub heq =>
    subst heq
    exact hset hj rfl fun _ => Or.inr rfl
  | started j c f queue message targets hj hf hnodup htargets heq =>
    subst heq
    exact hset hj rfl (by simp)
  | sent j c message ws rest queue ok ha hj heq =>
    subst heq
    cases ok <;> exact hset hj rfl (by simp)

theorem shutdown_cases (hs : step s a = some s') : s'.shutdown = s.shutdown ∨
    s' = s.shutdownSection ∨ ∃ k ks, s.shutdown = some (k :: ks) ∧ s'.shutdown = some ks := by
  cases a with
  | callConnect i c ws =>
    obtain ⟨_, rfl⟩ := step_callConnect.mp hs
    exact Or.inl rfl
  | callDisconnect i c ws =>
    obtain ⟨_, rfl⟩ := step_callDisconnect.mp hs
    exact Or.inl rfl
  | enter i =>
    obtain ⟨c, ws, _, _, rfl⟩ := step_enter.mp hs
    exact Or.inl (connectSection_shutdown ..)
  | factoryReturns i backlog =>
    obtain ⟨c, ws, _, rfl⟩ := step_factoryReturns.mp hs
    exact Or.inl rfl
  | factoryRaises i =>
    obtain ⟨c, ws, _, rfl⟩ := step_factoryRaises.mp hs
    exact Or.inl rfl
  | cancelConnect i =>
    rcases step_cancelConnect.mp hs with ⟨c, ws, _, rfl⟩ | ⟨c, ws, _, rfl⟩ <;> exact Or.inl rfl
  | leave i =>
    obtain ⟨c, ws, _, _, rfl⟩ := step_leave.mp hs
    exact Or.inl (disconnectSection_shutdown ..)
  | cancelDisconnect i =>
    obtain ⟨c, ws, _, rfl⟩ := step_cancelDisconnect.mp hs
    exact Or.inl rfl
  | fire t =>
    obtain ⟨c, _, rfl⟩ := step_fire.mp hs
    exact Or.inl rfl
  | stop t =>
    obtain ⟨c, _, _, rfl⟩ := step_stop.mp hs
    exact Or.inl (maybeStopSubscriber_shutdown ..)
  | publish channel f =>
    cases hs
    exact Or.inl rfl
  | read k targets =>
    obtain ⟨c, f, queue, _, hcase⟩ := step_read.mp hs
    rcases hcase with ⟨_, rfl⟩ | ⟨_, _, rfl⟩ | ⟨message, _, _, _, _, rfl⟩ <;> exact Or.inl rfl
  | send k ok =>
    obtain ⟨c, message, ws, rest, queue, _, rfl⟩ := step_send.mp hs
    cases ok <;> exact Or.inl rfl
  | die k =>
    obtain ⟨c, queue, _, rfl⟩ := step_die.mp hs
    exact Or.inl rfl
  | unwind k =>
    obtain ⟨c, pc, queue, _, _, rfl⟩ := step_unwind.mp hs
    exact Or.inl rfl
  | shutdown =>
    obtain ⟨_, rfl⟩ := step_shutdown.mp hs
    exact Or.inr (Or.inl rfl)
  | awaitTask =>
    obtain ⟨k, ks, sub, hks, _, _, rfl⟩ := step_awaitTask.mp hs
    exact Or.inr (Or.inr ⟨k, ks, hks, rfl⟩)

/-- `shutdown()` has cancelled the tasks it waits for. -/
theorem ending_of_recorded {k : TaskId} (hk : k ∈ s.recordedTasks) :
    Ending s.shutdownSection k := by
  obtain ⟨_, hk⟩ := List.mem_filter.mp hk
  cases hsub : s.subs k with
  | none => simp [hsub] at hk
  | some sub =>
    have hrecorded : s.tasks sub.campaign = some k := by simpa [hsub] using hk
    refine ⟨{ sub with cancelled := true }, ?_, Or.inl rfl⟩
    simp [State.shutdownSection, hsub, hrecorded]

theorem tended_init : Tended State.init := by
  constructor <;> simp [State.init]

theorem Tended.step (h : Tended s) (hcoh : Coherent s) (hs : step s a = some s') : Tended s' where
  targets := (subStep hcoh hs).targets h.targets
  awaited := by
    have hkeep := fun k (hk : Ending s k) => (subStep hcoh hs).ending hcoh hk
    intro ks hks k hk
    rcases shutdown_cases hs with heq | rfl | ⟨j, js, hjs, hjs'⟩
    · exact hkeep k (h.awaited ks (heq ▸ hks) k hk)
    · cases hks
      exact ending_of_recorded hk
    · rw [hjs'] at hks
      cases hks
      exact hkeep k (h.awaited _ hjs k (List.mem_cons_of_mem j hk))

/-- Nothing is stuck, and a subscriber is left only for a campaign with a client. -/
structure Settled (s : State) : Prop where
  lock : s.lock = none
  connects : ∀ i call, s.connects i = some call → call.finished
  disconnects : ∀ i call, s.disconnects i = some call → call.pc ≠ .waiting
  timers : ∀ t tm, s.timers t = some tm → ¬ tm.live
  handles : ∀ c, s.handles c = none
  recorded : ∀ c k, s.tasks c = some k → ∃ ws, Registered s c ws
  running : ∀ k sub, s.subs k = some sub → sub.pc ≠ .finished →
    s.tasks sub.campaign = some k ∧ sub.pc = .listening ∧ sub.queue = []
  shutdown : ∀ ks, s.shutdown = some ks → ks = []

/-- A task that has not finished can go on, unless it waits for a frame. -/
theorem Tended.task_moves (h : Tended s) {k : TaskId} {sub : Subscriber}
    (hk : s.subs k = some sub) (hpc : sub.pc ≠ .finished) :
    (∃ (b : Action) (t : State), b.own ∧ Ws.step s b = some t) ∨
      sub.cancelled = false ∧ sub.pc = .listening ∧ sub.queue = [] := by
  obtain ⟨c, cancelled, pc, queue⟩ := sub
  cases cancelled with
  | true =>
    exact Or.inl ⟨.unwind k, _, rfl, step_unwind.mpr ⟨c, pc, queue, hk, hpc, rfl⟩⟩
  | false =>
    cases pc with
    | finished => exact absurd rfl hpc
    | sending message targets =>
      cases targets with
      | nil => exact absurd rfl (h.targets k _ message hk)
      | cons ws rest =>
        exact Or.inl ⟨.send k true, _, rfl,
          step_send.mpr ⟨c, message, ws, rest, queue, hk, rfl⟩⟩
    | listening =>
      cases queue with
      | nil => exact Or.inr ⟨rfl, rfl, rfl⟩
      | cons f queue =>
        have hread : ∃ t, Ws.step s (.read k ((s.connections c).getD ∅).toList) = some t := by
          by_cases htype : f.type = "message"
          · cases hraw : f.data.raw with
            | none =>
              exact ⟨_, step_read.mpr ⟨c, f, queue, hk, Or.inr (Or.inl ⟨htype, hraw, rfl⟩)⟩⟩
            | some message =>
              exact ⟨_, step_read.mpr ⟨c, f, queue, hk, Or.inr (Or.inr ⟨message, htype, hraw,
                Finset.nodup_toList _, Finset.toList_toFinset _, rfl⟩)⟩⟩
          · exact ⟨_, step_read.mpr ⟨c, f, queue, hk, Or.inl ⟨htype, rfl⟩⟩⟩
        obtain ⟨t, ht⟩ := hread
        exact Or.inl ⟨_, t, rfl, ht⟩

/-- **No deadlock.** The event loop stops only in a settled state. -/
theorem Tended.settled (h : Tended s) (hcoh : Coherent s)
    (hrest : AtRest Ws.step (fun a => a.own = true) s) : Settled s := by
  have hstuck : ∀ {a : Action} {s' : State}, a.own = true → Ws.step s a ≠ some s' := by
    intro a s' ha hs
    rw [hrest a ha] at hs
    cases hs
  -- a factory call can always end, if only by raising
  have hfactory : ∀ i c ws, s.connects i ≠ some ⟨c, ws, .inFactory⟩ := by
    intro i c ws hi
    exact hstuck (a := .factoryRaises i) rfl (step_factoryRaises.mpr ⟨c, ws, hi, rfl⟩)
  have hfree : s.lock = none := by
    cases hlock : s.lock with
    | none => rfl
    | some i =>
      obtain ⟨c, ws, hi⟩ := hcoh.holder i hlock
      exact absurd hi (hfactory i c ws)
  -- with the lock free, a timer can fire and stop its task
  have htimers : ∀ t tm, s.timers t = some tm → ¬ tm.live := by
    rintro t ⟨c, pc⟩ ht (hlive | hlive)
    · obtain rfl : pc = .armed := hlive
      exact hstuck (a := .fire t) rfl (step_fire.mpr ⟨c, ht, rfl⟩)
    · obtain rfl : pc = .fired := hlive
      exact hstuck (a := .stop t) rfl (step_stop.mpr ⟨c, hfree, ht, rfl⟩)
  have hrunning : ∀ k sub, s.subs k = some sub → sub.pc ≠ .finished →
      sub.cancelled = false ∧ sub.pc = .listening ∧ sub.queue = [] := by
    intro k sub hk hpc
    rcases h.task_moves hk hpc with ⟨b, t, hb, hmoves⟩ | hidle
    · exact absurd hmoves (hstuck hb)
    · exact hidle
  refine ⟨hfree, ?_, ?_, htimers, ?_, ?_, ?_, ?_⟩
  · rintro i ⟨c, ws, pc⟩ hi
    cases pc with
    | waiting =>
      exact absurd (step_enter.mpr ⟨c, ws, hfree, hi, rfl⟩) (hstuck (a := .enter i) rfl)
    | inFactory => exact absurd hi (hfactory i c ws)
    | returned => exact Or.inl rfl
    | raised => exact Or.inr rfl
  · rintro i ⟨c, ws, pc⟩ hi hwaiting
    obtain rfl : pc = .waiting := hwaiting
    exact hstuck (a := .leave i) rfl (step_leave.mpr ⟨c, ws, hfree, hi, rfl⟩)
  · intro c
    cases hc : s.handles c with
    | none => rfl
    | some t =>
      obtain ⟨tm, htm, _, hlive⟩ := hcoh.handle c t hc
      exact absurd hlive (htimers t tm htm)
  · intro c k hk
    cases hc : s.connections c with
    | none =>
      -- the timer that would stop the task is gone
      obtain ⟨t, tm, htm, _, hlive⟩ := hcoh.stoppable c (by simp [hk]) hc
      exact absurd hlive (htimers t tm htm)
    | some conns =>
      obtain ⟨ws, hws⟩ := Finset.nonempty_iff_ne_empty.mpr (hcoh.nonempty c conns hc)
      exact ⟨ws, conns, hc, hws⟩
  · intro k sub hk hpc
    obtain ⟨hcan, hidle⟩ := hrunning k sub hk hpc
    exact ⟨hcoh.owned k sub hk hcan, hidle⟩
  · intro ks hks
    cases ks with
    | nil => rfl
    | cons k ks =>
      obtain ⟨sub, hk, hend⟩ := h.awaited _ hks k List.mem_cons_self
      -- a task that is waited for was cancelled, so it could go on
      have hfinished : sub.pc = .finished := by
        by_contra hpc
        have hcan := (hrunning k sub hk hpc).1
        rcases hend with hcan' | hfin
        · rw [hcan] at hcan'
          cases hcan'
        · exact hpc hfin
      exact absurd (step_awaitTask.mpr ⟨k, ks, sub, hks, hk, hfinished, rfl⟩)
        (hstuck (a := .awaitTask) rfl)

end Rest

/-! ## Left alone -/

/-- What holds of the manager whatever is done to it. -/
structure Underway (s : State) : Prop where
  coherent : Coherent s
  tended : Tended s
  called : ∃ n, Called n s

theorem underway_init : Underway State.init where
  coherent := coherent_init
  tended := tended_init
  called := ⟨0, by simp [State.init], by simp [State.init]⟩

theorem Underway.step {s s' : State} {a : Action} (h : Underway s) (hs : step s a = some s') :
    Underway s' where
  coherent := h.coherent.step hs
  tended := h.tended.step h.coherent hs
  called := exists_called_step h.called hs

theorem Action.call_of_own {a : Action} (ha : a.own = true) : a.call = false := by
  cases a with
  | callConnect => cases ha
  | callDisconnect => cases ha
  | _ => rfl

theorem Underway.settles {s : State} (h : Underway s) :
    Settles Ws.step (fun a => a.own = true) Settled s := by
  obtain ⟨n, hn⟩ := h.called
  refine settles_of_work (I := fun s => Underway s ∧ Called n s) (work n) ?_ ?_ ?_ ⟨h, hn⟩
  · rintro s a s' ⟨h, hn⟩ ha hs
    exact ⟨h.step hs, hn.step (Action.call_of_own ha) hs⟩
  · rintro s a s' ⟨h, hn⟩ ha hs
    exact hn.work_lt h.coherent ha hs
  · rintro s ⟨h, _⟩ hrest
    exact h.tended.settled h.coherent hrest

/-- **The manager settles.** From every reachable state the steps of the event
loop come to an end in any order, and only in a settled state; and some of them
lead there. -/
theorem manager_settles {as : List Action} {s : State} (h : exec step State.init as = some s) :
    Settles step (fun a => a.own = true) Settled s ∧
      ∃ t, Reached step (fun a => a.own = true) s t ∧ Settled t := by
  have hsettles : Settles step (fun a => a.own = true) Settled s :=
    (exec_of_step (I := Underway) (fun _ _ _ hi hs => hi.step hs) underway_init h).settles
  exact ⟨hsettles, hsettles.exists_rest⟩

/-- The only client leaves while another one awaits the subscription. -/
def leavesInFactory : List Action :=
  [.callConnect 0 1 10, .enter 0, .callConnect 1 2 11, .factoryReturns 0 [], .callDisconnect 0 1 10,
    .enter 1]

theorem manager_settles_leavesInFactory : ∃ s, exec step State.init leavesInFactory = some s ∧
    Settles step (fun a => a.own = true) Settled s ∧
      ∃ t, Reached step (fun a => a.own = true) s t ∧ Settled t :=
  ⟨_, rfl, @manager_settles leavesInFactory _ rfl⟩

/-! ## After the last client -/

def RouteAction.own : RouteAction → Bool
  | .manager a => a.own
  | _ => false

/-- Every WebSocket has been closed. -/
def Leaving (s : Route) : Prop :=
  ∀ ws h, s.handlers ws = some h → h.pc = .disconnecting ∨ h.pc = .finished

/-- No handler runs, and nothing is held for any campaign. -/
structure Released (s : Route) : Prop where
  handlers : ∀ ws h, s.handlers ws = some h → h.pc = .finished
  connections : ∀ c, s.manager.connections c = none
  tasks : ∀ c, s.manager.tasks c = none
  handles : ∀ c, s.manager.handles c = none
  timers : ∀ t tm, s.manager.timers t = some tm → ¬ tm.live
  subs : ∀ k sub, s.manager.subs k = some sub → sub.pc = .finished

theorem underway_route {s s' : Route} {a : RouteAction} (h : Underway s.manager)
    (hs : s.step a = some s') : Underway s'.manager := by
  cases a with
  | arrive ws c admission =>
    obtain ⟨_, ⟨code, rfl⟩ | ⟨m, hm, rfl⟩⟩ := step_arrive hs
    · exact h
    · exact h.step hm
  | hangup ws =>
    obtain ⟨c, code, m, _, hm, rfl⟩ := step_hangup hs
    exact h.step hm
  | manager a =>
    obtain ⟨m, _, hm, rfl⟩ := step_manager hs
    exact h.step hm

/-- The app with the clients on their way out. -/
structure Closing (s : Route) : Prop where
  routed : Routed s
  attended : Attended s
  leaving : Leaving s
  underway : Underway s.manager

/-- No `connect` is left that could fail. -/
theorem Closing.not_fails {s : Route} (h : Closing s) {a : Action} (ha : a.own = true) :
    ¬ Fails s.manager a := by
  cases a with
  | factoryRaises i =>
    rintro ⟨c, ws, hi⟩
    obtain ⟨_, g, hg, _⟩ := h.routed.connects i _ hi
    have hmatches := h.routed.handler i g hg
    unfold Handler.Matches at hmatches
    rcases h.leaving i g hg with hpc | hpc
    · rw [hpc] at hmatches
      rw [hi] at hmatches
      cases hmatches.2.1
    · rw [hpc] at hmatches
      rcases hmatches.1 _ hi with hcall | hcall <;> cases hcall
  | cancelConnect => cases ha
  | cancelDisconnect => cases ha
  | _ => exact id

theorem Handler.resume_leaving {m : State} {ws : WebSocket} {h : Handler}
    (hpc : h.pc = .disconnecting ∨ h.pc = .finished) :
    (h.resume m ws).pc = .disconnecting ∨ (h.resume m ws).pc = .finished := by
  unfold Handler.resume
  rcases hpc with hpc | hpc
  · rw [hpc]
    simp only
    split
    · exact Or.inl hpc
    · exact Or.inr rfl
  · rw [hpc]
    exact Or.inr hpc

theorem Closing.step {s s' : Route} {a : RouteAction} (h : Closing s) (ha : a.own = true)
    (hs : s.step a = some s') : Closing s' := by
  cases a with
  | manager a =>
    refine ⟨h.routed.step hs, ?_, ?_, underway_route h.underway hs⟩
    · exact (attended_step_iff h.routed h.attended hs).mpr (h.not_fails ha)
    · obtain ⟨m, _, _, rfl⟩ := step_manager hs
      intro ws g hg
      obtain ⟨old, hold, rfl⟩ := Option.map_eq_some_iff.mp hg
      exact Handler.resume_leaving (h.leaving ws old hold)
  | _ => cases ha

theorem Closing.released {s : Route} (h : Closing s)
    (hrest : AtRest Route.step (fun a => a.own = true) s) : Released s := by
  have hmanager : AtRest Ws.step (fun a => a.own = true) s.manager := by
    intro a ha
    have hnone := hrest (.manager a) ha
    simp only [Route.step, Action.call_of_own ha, Bool.false_eq_true, if_false,
      Option.map_eq_none_iff] at hnone
    exact hnone
  have hsettled := h.underway.tended.settled h.underway.coherent hmanager
  have hfinished : ∀ ws g, s.handlers ws = some g → g.pc = .finished := by
    intro ws g hg
    rcases h.leaving ws g hg with hpc | hpc
    · have hmatches := h.routed.handler ws g hg
      unfold Handler.Matches at hmatches
      rw [hpc] at hmatches
      exact absurd rfl (hsettled.disconnects ws _ hmatches.1)
    · exact hpc
  -- a registered client has a handler that has not finished
  have hempty : ∀ c ws, ¬ Registered s.manager c ws := by
    intro c ws hr
    obtain ⟨g, hg, _, hpc⟩ := h.attended c ws hr
    exact hpc (hfinished ws g hg)
  have htasks : ∀ c, s.manager.tasks c = none := by
    intro c
    cases hc : s.manager.tasks c with
    | none => rfl
    | some k =>
      obtain ⟨ws, hr⟩ := hsettled.recorded c k hc
      exact absurd hr (hempty c ws)
  refine ⟨hfinished, ?_, htasks, hsettled.handles, hsettled.timers, ?_⟩
  · intro c
    cases hc : s.manager.connections c with
    | none => rfl
    | some conns =>
      have hne := h.underway.coherent.nonempty c conns hc
      obtain ⟨ws, hws⟩ := Finset.nonempty_iff_ne_empty.mpr hne
      exact absurd ⟨conns, hc, hws⟩ (hempty c ws)
  · intro k sub hk
    by_contra hpc
    have hown := (hsettled.running k sub hk hpc).1
    rw [htasks] at hown
    cases hown

/-- **Nothing is left behind.** After a run in which no call of a registered
client ended by an exception, once every WebSocket is closed the app comes to
rest in any order of its steps, and only with all handlers finished, the dicts
empty and the subscriber tasks ended. -/
theorem released_after_close {as : List RouteAction} {s : Route}
    (h : exec Route.step Route.init as = some s) (hrel : Along Route.step Reliable Route.init as)
    (hleaving : Leaving s) : Settles Route.step (fun a => a.own = true) Released s := by
  have hinv : (Routed s ∧ Attended s) ∧ Underway s.manager := by
    refine exec_of_along (P := Reliable)
      (I := fun s => (Routed s ∧ Attended s) ∧ Underway s.manager) ?_
      ⟨⟨routed_init, ?_⟩, underway_init⟩ hrel h
    · rintro s a s' ⟨⟨hr, hq⟩, hu⟩ ha hs
      exact ⟨⟨hr.step hs, (attended_step_iff hr hq hs).mpr ha⟩, underway_route hu hs⟩
    · rintro c ws ⟨conns, hconns, _⟩
      cases hconns
  -- no arrivals any more, so the number of calls is bounded from here on
  obtain ⟨n, hn⟩ := hinv.2.called
  refine settles_of_work (I := fun s => Closing s ∧ Called n s.manager)
    (fun s => work n s.manager) ?_ ?_ ?_ ⟨⟨hinv.1.1, hinv.1.2, hleaving, hinv.2⟩, hn⟩
  · rintro s a s' ⟨h, hn⟩ ha hs
    refine ⟨h.step ha hs, ?_⟩
    cases a with
    | manager a =>
      obtain ⟨m, hcall, hm, rfl⟩ := step_manager hs
      exact hn.step hcall hm
    | _ => cases ha
  · rintro s a s' ⟨h, hn⟩ ha hs
    cases a with
    | manager a =>
      obtain ⟨m, _, hm, rfl⟩ := step_manager hs
      exact hn.work_lt h.underway.coherent ha hm
    | _ => cases ha
  · rintro s ⟨h, _⟩ hrest
    exact h.released hrest

/-- One client is refused, the other one is gone again. -/
def bothHangUp : List RouteAction :=
  [.arrive 10 1 .admitted, .arrive 11 2 .unauthorized, .manager (.enter 10),
    .manager (.factoryReturns 10 []), .hangup 10]

theorem leaving_bothHangUp {s : Route} (h : exec Route.step Route.init bothHangUp = some s) :
    Leaving s := by
  cases h
  intro ws g hg
  by_cases hfirst : ws = 10
  · subst hfirst
    cases hg
    exact Or.inl rfl
  · by_cases hsecond : ws = 11
    · subst hsecond
      cases hg
      exact Or.inr rfl
    · simp [Route.init, hfirst, hsecond] at hg

theorem released_after_close_bothHangUp :
    ∃ s, exec Route.step Route.init bothHangUp = some s ∧
      Settles Route.step (fun a => a.own = true) Released s :=
  ⟨_, rfl, @released_after_close bothHangUp _ rfl
    (Along.of_mem (by simp [bothHangUp, Reliable, Fails]) _) (leaving_bothHangUp rfl)⟩

end IsalesApi.Ws
