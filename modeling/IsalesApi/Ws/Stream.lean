import IsalesApi.Ws.Coherence

/-!
# Subscriber tasks and their streams

What one step of the manager can do to the subscriber tasks (`SubStep`), and
what a task has made of the frames Redis sent it: the texts it fanned out and
the payloads still queued are, in order, the payloads of its stream
(`Streamed`).
-/

namespace IsalesApi.Ws

open Foundation

/-- Events that say nothing of subscriptions, frames and fan-outs. -/
def Event.silent : Event → Bool
  | .subscribed .. | .published .. | .started .. => false
  | _ => true

/-- The effect of a step of the manager on the subscriber tasks. -/
inductive SubStep (m : State) (a : Action) (m' : State) : Prop
  | same (es : List Event) (hsubs : m'.subs = m.subs) (htasks : m'.tasks = m.tasks)
      (hnext : m'.nextTask = m.nextTask) (hinbox : m'.inbox = m.inbox)
      (hlog : m'.log = es ++ m.log) (hes : ∀ e ∈ es, e.silent)
  | cancelled (p : TaskId → Bool) (es : List Event)
      (hsubs : ∀ k, m'.subs k = (m.subs k).map fun sub =>
        if p k then { sub with cancelled := true } else sub)
      (htasks : ∀ c, m'.tasks c = m.tasks c ∨
        m'.tasks c = none ∧ (m.connections c = none ∨ a = .shutdown))
      (hnext : m'.nextTask = m.nextTask) (hinbox : m'.inbox = m.inbox)
      (hlog : m'.log = es ++ m.log) (hes : ∀ e ∈ es, e.silent)
  | created (i : CallId) (c : CampaignId) (ws : WebSocket) (backlog : List Frame)
      (hi : m.connects i = some ⟨c, ws, .inFactory⟩)
      (heq : m' = m.factoryReturned i c ws backlog)
  | published (channel : String) (f : Frame) (heq : m' = m.publish channel f)
  | skipped (k : TaskId) (c : CampaignId) (f : Frame) (queue : List Frame) (pc : RunPc)
      (hk : m.subs k = some ⟨c, false, .listening, f :: queue⟩) (hf : f.payload = none)
      (hpc : pc = .listening ∨ pc = .finished) (heq : m' = m.setSub k ⟨c, false, pc, queue⟩)
  | ended (k : TaskId) (sub : Subscriber) (hk : m.subs k = some sub)
      (hsub : sub.cancelled = true ∨ sub.pc = .listening)
      (heq : m' = m.setSub k { sub with pc := .finished })
  | started (k : TaskId) (c : CampaignId) (f : Frame) (queue : List Frame) (message : String)
      (targets : List WebSocket) (hk : m.subs k = some ⟨c, false, .listening, f :: queue⟩)
      (hf : f.payload = some message) (hnodup : targets.Nodup)
      (htargets : targets.toFinset = (m.connections c).getD ∅)
      (heq : m' = m.startFanOut k ⟨c, false, .listening, queue⟩ message targets)
  | sent (k : TaskId) (c : CampaignId) (message : String) (ws : WebSocket)
      (rest : List WebSocket) (queue : List Frame) (ok : Bool) (ha : a = .send k ok)
      (hk : m.subs k = some ⟨c, false, .sending message (ws :: rest), queue⟩)
      (heq : m' = m.sendReturned k ⟨c, false, .listening, queue⟩ message ws rest ok)

theorem subStep {m m' : State} {a : Action} (hcoh : Coherent m) (hs : step m a = some m') :
    SubStep m a m' := by
  cases a with
  | callConnect i c ws =>
    obtain ⟨_, rfl⟩ := step_callConnect.mp hs
    exact .same [] rfl rfl rfl rfl rfl (by simp)
  | callDisconnect i c ws =>
    obtain ⟨_, rfl⟩ := step_callDisconnect.mp hs
    exact .same [] rfl rfl rfl rfl rfl (by simp)
  | enter i =>
    obtain ⟨c, ws, _, _, rfl⟩ := step_enter.mp hs
    unfold State.connectSection
    simp only
    split
    · exact .same [.joined c ws] rfl rfl rfl rfl rfl (by simp [Event.silent])
    · exact .same [.joined c ws] rfl rfl rfl rfl rfl (by simp [Event.silent])
  | factoryReturns i backlog =>
    obtain ⟨c, ws, hi, rfl⟩ := step_factoryReturns.mp hs
    exact .created i c ws backlog hi rfl
  | factoryRaises i =>
    obtain ⟨c, ws, _, rfl⟩ := step_factoryRaises.mp hs
    exact .same [] rfl rfl rfl rfl rfl (by simp)
  | cancelConnect i =>
    rcases step_cancelConnect.mp hs with ⟨c, ws, _, rfl⟩ | ⟨c, ws, _, rfl⟩
    · exact .same [] rfl rfl rfl rfl rfl (by simp)
    · exact .same [] rfl rfl rfl rfl rfl (by simp)
  | leave i =>
    obtain ⟨c, ws, _, _, rfl⟩ := step_leave.mp hs
    unfold State.disconnectSection State.scheduleShutdown
    simp only
    split
    · exact .same [] rfl rfl rfl rfl rfl (by simp)
    · split
      · split
        · exact .same [.left c ws] rfl rfl rfl rfl rfl (by simp [Event.silent])
        · exact .same [.armed c m.nextTimer, .left c ws] rfl rfl rfl rfl rfl
            (by simp [Event.silent])
      · exact .same [.left c ws] rfl rfl rfl rfl rfl (by simp [Event.silent])
  | cancelDisconnect i =>
    obtain ⟨c, ws, _, rfl⟩ := step_cancelDisconnect.mp hs
    exact .same [] rfl rfl rfl rfl rfl (by simp)
  | fire t =>
    obtain ⟨c, _, rfl⟩ := step_fire.mp hs
    exact .same [] rfl rfl rfl rfl rfl (by simp)
  | stop t =>
    obtain ⟨c, _, _, rfl⟩ := step_stop.mp hs
    unfold State.maybeStopSubscriber
    simp only
    split
    · exact .same [] rfl rfl rfl rfl rfl (by simp)
    · rename_i hclient
      cases htask : m.tasks c with
      | none => exact .same [] rfl rfl rfl rfl rfl (by simp)
      | some k =>
        -- an empty set is never kept, so `c` has no entry
        have hnone : m.connections c = none := by
          by_contra hne
          exact hclient (hcoh.hasClient.mpr hne)
        refine .cancelled (fun j => j = k) [.stopped c t k] ?_ ?_ rfl rfl rfl
          (by simp [Event.silent])
        · intro j
          simp only [State.cancelTask]
          split <;> simp_all
        · intro d
          by_cases hdc : d = c
          · subst hdc
            exact Or.inr ⟨Function.update_self _ _ _, Or.inl hnone⟩
          · exact Or.inl (Function.update_of_ne hdc _ _)
  | publish channel f =>
    cases hs
    exact .published channel f rfl
  | read k targets =>
    obtain ⟨c, f, queue, hk, hcase⟩ := step_read.mp hs
    rcases hcase with ⟨htype, rfl⟩ | ⟨htype, hraw, rfl⟩ | ⟨message, htype, hraw, hnd, htg, rfl⟩
    · exact .skipped k c f queue .listening hk (by simp [Frame.payload, htype]) (Or.inl rfl) rfl
    · exact .skipped k c f queue .finished hk (by simp [Frame.payload, hraw]) (Or.inr rfl) rfl
    · exact .started k c f queue message targets hk (by simp [Frame.payload, htype, hraw]) hnd
        htg rfl
  | send k ok =>
    obtain ⟨c, message, ws, rest, queue, hk, rfl⟩ := step_send.mp hs
    exact .sent k c message ws rest queue ok rfl hk rfl
  | die k =>
    obtain ⟨c, queue, hk, rfl⟩ := step_die.mp hs
    exact .ended k _ hk (Or.inr rfl) rfl
  | unwind k =>
    obtain ⟨c, pc, queue, hk, _, rfl⟩ := step_unwind.mp hs
    exact .ended k _ hk (Or.inl rfl) rfl
  | shutdown =>
    obtain ⟨_, rfl⟩ := step_shutdown.mp hs
    refine .cancelled (fun k => ∃ sub, m.subs k = some sub ∧ m.tasks sub.campaign = some k) []
      ?_ (fun c => Or.inr ⟨rfl, Or.inr rfl⟩) rfl rfl rfl (by simp)
    intro k
    simp only [State.shutdownSection]
    cases hk : m.subs k with
    | none => rfl
    | some sub => simp
  | awaitTask =>
    obtain ⟨k, ks, sub, _, _, _, rfl⟩ := step_awaitTask.mp hs
    exact .same [] rfl rfl rfl rfl rfl (by simp)

/-! ## Stream and fan-outs in the history -/

/-- The frames Redis has sent to task `k` of campaign `c`: what came before the
task began, then everything published on its channel. -/
def stream (c : CampaignId) (k : TaskId) : List Event → Option (List Frame)
  | [] => none
  | .subscribed d j backlog :: log =>
    if d = c ∧ j = k then some backlog else stream c k log
  | .published channel f :: log =>
    (stream c k log).map fun fs => if channelFor c = channel then fs ++ [f] else fs
  | _ :: log => stream c k log

/-- The texts whose fan-out by task `k` of campaign `c` started, in order. -/
def startedBy (c : CampaignId) (k : TaskId) : List Event → List String
  | [] => []
  | .started d j message :: log =>
    startedBy c k log ++ if d = c ∧ j = k then [message] else []
  | _ :: log => startedBy c k log

/-- The texts whose fan-out on campaign `c` started, in order. -/
def startedTexts (c : CampaignId) : List Event → List String
  | [] => []
  | .started d _ message :: log =>
    startedTexts c log ++ if d = c then [message] else []
  | _ :: log => startedTexts c log

/-- The payloads of the frames of type `message`, in order. -/
def payloads (fs : List Frame) : List String :=
  fs.filterMap Frame.payload

@[simp] theorem payloads_append (fs gs : List Frame) :
    payloads (fs ++ gs) = payloads fs ++ payloads gs :=
  List.filterMap_append

theorem payloads_cons_none {f : Frame} (hf : f.payload = none) (fs : List Frame) :
    payloads (f :: fs) = payloads fs :=
  List.filterMap_cons_none hf

theorem payloads_cons_some {f : Frame} {message : String} (hf : f.payload = some message)
    (fs : List Frame) : payloads (f :: fs) = message :: payloads fs :=
  List.filterMap_cons_some hf

theorem silent_append {es : List Event} (hes : ∀ e ∈ es, e.silent) (log : List Event)
    (c : CampaignId) (k : TaskId) : stream c k (es ++ log) = stream c k log ∧
      startedBy c k (es ++ log) = startedBy c k log ∧
      startedTexts c (es ++ log) = startedTexts c log := by
  induction es with
  | nil => exact ⟨rfl, rfl, rfl⟩
  | cons e es ih =>
    have ih := ih fun e he => hes e (List.mem_cons_of_mem _ he)
    have he := hes e List.mem_cons_self
    cases e <;> first | exact ih | cases he

/-! ## The invariant -/

structure Streamed (s : State) : Prop where
  coherent : Coherent s
  /-- A task has fanned out what it took from its stream, the rest is queued. -/
  taken : ∀ k sub, s.subs k = some sub → ∃ fs, stream sub.campaign k s.log = some fs ∧
    payloads fs = startedBy sub.campaign k s.log ++ payloads sub.queue
  fresh : ∀ c k, s.nextTask ≤ k → stream c k s.log = none ∧ startedBy c k s.log = []

theorem streamed_init : Streamed State.init :=
  ⟨coherent_init, by simp [State.init], by simp [State.init, stream, startedBy]⟩

/-- A step of task `k` that tells the history nothing. -/
theorem Streamed.setSub {s : State} (h : Streamed s) {k : TaskId} {old sub : Subscriber}
    {inbox : WebSocket → List String} (es : List Event) (hcoh : Coherent s)
    (hk : s.subs k = some old) (hes : ∀ e ∈ es, e.silent)
    (hcamp : sub.campaign = old.campaign) (hcan : sub.cancelled = old.cancelled)
    (hqueue : payloads sub.queue = payloads old.queue) :
    Streamed { s.setSub k sub with inbox := inbox, log := es ++ s.log } where
  coherent := hcoh.setSub hk hcamp hcan
  taken := by
    intro j sub' hj
    obtain ⟨hstream, hstarted, _⟩ := silent_append hes s.log sub'.campaign j
    show ∃ fs, stream sub'.campaign j (es ++ s.log) = some fs ∧
      payloads fs = startedBy sub'.campaign j (es ++ s.log) ++ payloads sub'.queue
    rw [hstream, hstarted]
    rcases update_eq_some.mp hj with ⟨rfl, heq⟩ | ⟨_, hj⟩
    · cases heq
      rw [hcamp, hqueue]
      exact h.taken j old hk
    · exact h.taken j sub' hj
  fresh := by
    intro c j hj
    obtain ⟨hstream, hstarted, _⟩ := silent_append hes s.log c j
    show stream c j (es ++ s.log) = none ∧ startedBy c j (es ++ s.log) = []
    rw [hstream, hstarted]
    exact h.fresh c j hj

/-- A step that tells the history nothing and keeps campaigns and queues. -/
theorem Streamed.silent {s s' : State} {es : List Event} (h : Streamed s) (hcoh : Coherent s')
    (hes : ∀ e ∈ es, e.silent) (hlog : s'.log = es ++ s.log) (hnext : s'.nextTask = s.nextTask)
    (hback : ∀ k sub, s'.subs k = some sub → ∃ old, s.subs k = some old ∧
      sub.campaign = old.campaign ∧ sub.queue = old.queue) : Streamed s' where
  coherent := hcoh
  taken := by
    intro k sub hk
    obtain ⟨old, hold, hcamp, hqueue⟩ := hback k sub hk
    obtain ⟨hstream, hstarted, _⟩ := silent_append hes s.log old.campaign k
    rw [hcamp, hqueue, hlog, hstream, hstarted]
    exact h.taken k old hold
  fresh := by
    intro c k hk
    obtain ⟨hstream, hstarted, _⟩ := silent_append hes s.log c k
    rw [hlog, hstream, hstarted]
    exact h.fresh c k (hnext ▸ hk)

/-- A new task begins with its backlog. -/
theorem Streamed.factoryReturned {s : State} (h : Streamed s) {i : CallId} {c : CampaignId}
    {ws : WebSocket} (hi : s.connects i = some ⟨c, ws, .inFactory⟩) (backlog : List Frame) :
    Streamed (s.factoryReturned i c ws backlog) where
  coherent := h.coherent.factoryReturned hi backlog
  taken := by
    intro k sub hk
    rcases update_eq_some.mp hk with ⟨rfl, heq⟩ | ⟨hne, hk⟩
    · cases heq
      have hnone := (h.fresh c s.nextTask (Nat.le_refl _)).2
      refine ⟨backlog, by simp [State.factoryReturned, stream], ?_⟩
      simp [State.factoryReturned, startedBy, hnone]
    · obtain ⟨fs, hfs, hpay⟩ := h.taken k sub hk
      refine ⟨fs, ?_, hpay⟩
      simp [State.factoryReturned, stream, Ne.symm hne, hfs]
  fresh := by
    intro d k hk
    change s.nextTask + 1 ≤ k at hk
    obtain ⟨hstream, hstarted⟩ := h.fresh d k (Nat.le_of_succ_le hk)
    have hne : s.nextTask ≠ k := Nat.ne_of_lt hk
    exact ⟨by simp [State.factoryReturned, stream, hne, hstream], hstarted⟩

theorem Streamed.publish {s : State} (h : Streamed s) {channel : String} {f : Frame}
    (hcoh : Coherent (s.publish channel f)) : Streamed (s.publish channel f) where
  coherent := hcoh
  taken := by
    intro k sub hk
    obtain ⟨old, hold, rfl⟩ := Option.map_eq_some_iff.mp hk
    obtain ⟨fs, hfs, hpay⟩ := h.taken k old hold
    split
    · rename_i hchan
      refine ⟨fs ++ [f], by simp [State.publish, stream, hfs, hchan], ?_⟩
      simp [State.publish, startedBy, hpay]
    · rename_i hchan
      exact ⟨fs, by simp [State.publish, stream, hfs, hchan], hpay⟩
  fresh := by
    intro c k hk
    obtain ⟨hstream, hstarted⟩ := h.fresh c k hk
    exact ⟨by simp [State.publish, stream, hstream], hstarted⟩

/-- A payload moves from the queue of its task to the texts fanned out. -/
theorem Streamed.startFanOut {s : State} (h : Streamed s) {k : TaskId} {c : CampaignId}
    {f : Frame} {queue : List Frame} {message : String} {targets : List WebSocket}
    (hcoh : Coherent (s.startFanOut k ⟨c, false, .listening, queue⟩ message targets))
    (hk : s.subs k = some ⟨c, false, .listening, f :: queue⟩) (hf : f.payload = some message) :
    Streamed (s.startFanOut k ⟨c, false, .listening, queue⟩ message targets) where
  coherent := hcoh
  taken := by
    intro j sub hj
    rcases update_eq_some.mp hj with ⟨rfl, heq⟩ | ⟨hne, hj⟩
    · cases heq
      obtain ⟨fs, hfs, hpay⟩ := h.taken j _ hk
      refine ⟨fs, hfs, ?_⟩
      rw [hpay, payloads_cons_some hf]
      simp [State.startFanOut, startedBy]
    · obtain ⟨fs, hfs, hpay⟩ := h.taken j sub hj
      refine ⟨fs, hfs, ?_⟩
      simpa [State.startFanOut, startedBy, Ne.symm hne] using hpay
  fresh := by
    intro d j hj
    obtain ⟨hstream, hstarted⟩ := h.fresh d j hj
    have hlt := h.coherent.taskBound k _ hk
    have hne : k ≠ j := Nat.ne_of_lt (Nat.lt_of_lt_of_le hlt hj)
    exact ⟨hstream, by simp [State.startFanOut, startedBy, hne, hstarted]⟩

theorem Streamed.step {s s' : State} {a : Action} (h : Streamed s) (hs : step s a = some s') :
    Streamed s' := by
  have hcoh := h.coherent.step hs
  cases subStep h.coherent hs with
  | same es hsubs htasks hnext hinbox hlog hes =>
    exact h.silent hcoh hes hlog hnext fun k sub hk => ⟨sub, hsubs ▸ hk, rfl, rfl⟩
  | cancelled p es hsubs htasks hnext hinbox hlog hes =>
    refine h.silent hcoh hes hlog hnext ?_
    intro k sub hk
    rw [hsubs] at hk
    obtain ⟨old, hold, rfl⟩ := Option.map_eq_some_iff.mp hk
    refine ⟨old, hold, ?_, ?_⟩
    · split <;> rfl
    · split <;> rfl
  | created i c ws backlog hi heq =>
    subst heq
    exact h.factoryReturned hi backlog
  | published channel f heq =>
    subst heq
    exact h.publish hcoh
  | skipped k c f queue pc hk hf hpc heq =>
    subst heq
    exact h.setSub [] h.coherent hk (by simp) rfl rfl (payloads_cons_none hf queue).symm
  | ended k sub hk hsub heq =>
    subst heq
    exact h.setSub [] h.coherent hk (by simp) rfl rfl rfl
  | started k c f queue message targets hk hf hnodup htargets heq =>
    subst heq
    exact h.startFanOut hcoh hk hf
  | sent k c message ws rest queue ok ha hk heq =>
    subst heq
    cases ok with
    | true => exact h.setSub [] h.coherent hk (by simp) rfl rfl rfl
    | false =>
      exact h.setSub [.sendFailed ws] h.coherent hk (by simp [Event.silent]) rfl rfl rfl

end IsalesApi.Ws
