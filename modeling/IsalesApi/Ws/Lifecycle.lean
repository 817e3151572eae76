import IsalesApi.Ws.Coherence

/-!
# One subscriber per campaign with clients

`Quiet` singles out the runs in which the environment does its part: the
factory succeeds, subscribers do not end by themselves and `shutdown()` is not
called. In these a campaign with clients has exactly one subscriber task, the
one recorded in `_tasks` (`subscriber_lifecycle`).

Without the second condition a task that has ended stays recorded, and
`connect`, which only looks whether a task is recorded, then returns without a
subscriber (`connect_forwards_iff`).
-/

namespace IsalesApi.Ws

open Foundation

/-- `k` is a subscriber task of `c` on which `cancel()` was not called. -/
def Uncancelled (s : State) (c : CampaignId) (k : TaskId) : Prop :=
  ∃ sub, s.subs k = some sub ∧ sub.campaign = c ∧ sub.cancelled = false

/-- `k` is a subscriber task of `c` that runs on. -/
def LiveFor (s : State) (c : CampaignId) (k : TaskId) : Prop :=
  ∃ sub, s.subs k = some sub ∧ sub.campaign = c ∧ sub.live

/-- The factory succeeds, subscriber tasks do not end by themselves, and
`shutdown()` is not called. -/
def Quiet (s : State) : Action → Prop
  | .factoryRaises _ => False
  | .cancelConnect i => ∀ c ws, s.connects i ≠ some ⟨c, ws, .inFactory⟩
  | .die _ => False
  | .read k _ => ∀ sub f queue, s.subs k = some sub → sub.queue = f :: queue → f.readable
  | .shutdown => False
  | _ => True

/-- What quiet runs add to `Coherent`. -/
structure Served (s : State) : Prop where
  coherent : Coherent s
  served : ∀ c, s.connections c ≠ none →
    s.tasks c ≠ none ∨ ∃ i ws, s.connects i = some ⟨c, ws, .inFactory⟩
  running : ∀ k sub, s.subs k = some sub → sub.cancelled = false → sub.pc ≠ .finished

theorem served_init : Served State.init :=
  ⟨coherent_init, by simp [State.init], by simp [State.init]⟩

/-- A step that keeps clients, tasks and waiting factories keeps them served. -/
theorem Served.of_same {s s' : State} (h : Served s) (hc : Coherent s')
    (hconn : ∀ c, s'.connections c ≠ none → s.connections c ≠ none)
    (htasks : ∀ c, s.tasks c ≠ none → s'.tasks c ≠ none)
    (hcalls : ∀ i c ws, s.connects i = some ⟨c, ws, .inFactory⟩ →
      s'.connects i = some ⟨c, ws, .inFactory⟩)
    (hsubs : ∀ k sub, s'.subs k = some sub → sub.cancelled = false → sub.pc ≠ .finished) :
    Served s' where
  coherent := hc
  served := by
    intro c hc'
    rcases h.served c (hconn c hc') with htask | ⟨i, ws, hi⟩
    · exact Or.inl (htasks c htask)
    · exact Or.inr ⟨i, ws, hcalls i c ws hi⟩
  running := hsubs

theorem Served.setConnect {s : State} (h : Served s) {i : CallId} {call : ConnectCall}
    (hold : ∀ c ws, s.connects i ≠ some ⟨c, ws, .inFactory⟩) (hpc : call.pc ≠ .inFactory) :
    Served { s with connects := Function.update s.connects i (some call) } := by
  refine h.of_same (h.coherent.setConnect hold hpc) (fun c hc => hc) (fun c hc => hc) ?_
    h.running
  intro j c ws hj
  have hji : j ≠ i := by
    rintro rfl
    exact hold c ws hj
  show Function.update s.connects i (some call) j = _
  rw [Function.update_of_ne hji]
  exact hj

theorem Served.connectSection {s : State} (h : Served s) (hfree : s.lock = none)
    {i : CallId} {c : CampaignId} {ws : WebSocket}
    (hi : s.connects i = some ⟨c, ws, .waiting⟩) : Served (s.connectSection i c ws) := by
  have hc := h.coherent.connectSection hfree hi
  have hothers : ∀ d, d ≠ c → s.connections d ≠ none → s.tasks d ≠ none := by
    intro d _ hd
    rcases h.served d hd with htask | ⟨j, w, hj⟩
    · exact htask
    · exact absurd hj (h.coherent.notInFactory hfree j d w)
  unfold State.connectSection at hc ⊢
  cases htask : s.tasks c with
  | some k =>
    simp only [State.addClient, State.cancelPendingShutdown, htask] at hc ⊢
    refine ⟨hc, ?_, h.running⟩
    intro d hd
    rcases update_some_ne_none.mp hd with rfl | hd
    · exact Or.inl (by simp [htask])
    · by_cases hdc : d = c
      · subst hdc
        exact Or.inl (by simp [htask])
      · exact Or.inl (hothers d hdc hd)
  | none =>
    -- the new client is served by the factory it waits for
    simp only [State.addClient, State.cancelPendingShutdown, htask] at hc ⊢
    refine ⟨hc, ?_, h.running⟩
    intro d hd
    by_cases hdc : d = c
    · subst hdc
      exact Or.inr ⟨i, ws, by simp⟩
    · rcases update_some_ne_none.mp hd with heq | hd
      · exact absurd heq hdc
      · exact Or.inl (hothers d hdc hd)

theorem Served.factoryReturned {s : State} (h : Served s) {i : CallId} {c : CampaignId}
    {ws : WebSocket} (hi : s.connects i = some ⟨c, ws, .inFactory⟩) (backlog : List Frame) :
    Served (s.factoryReturned i c ws backlog) := by
  refine ⟨h.coherent.factoryReturned hi backlog, ?_, ?_⟩
  · intro d hd
    by_cases hdc : d = c
    · subst hdc
      exact Or.inl (by simp [State.factoryReturned])
    · rcases h.served d hd with htask | ⟨j, w, hj⟩
      · exact Or.inl (by simpa [State.factoryReturned, hdc] using htask)
      · obtain rfl := h.coherent.onlyHolder hi hj
        rw [hi] at hj
        cases hj
        exact absurd rfl hdc
  · intro k sub hk hcan
    rcases update_eq_some.mp hk with ⟨_, heq⟩ | ⟨_, hk⟩
    · cases heq
      simp
    · exact h.running k sub hk hcan

theorem Served.disconnectSection {s : State} (h : Served s) (hfree : s.lock = none)
    (i : CallId) (c : CampaignId) (ws : WebSocket) : Served (s.disconnectSection i c ws) := by
  have hc := h.coherent.disconnectSection hfree i c ws
  unfold State.disconnectSection State.scheduleShutdown at hc ⊢
  cases hconn : s.connections c with
  | none =>
    simp only [hconn] at hc ⊢
    exact h.of_same hc (fun d hd => hd) (fun d hd => hd) (fun j d w hj => hj) h.running
  | some conns =>
    have hhandle := h.coherent.noHandle c (by simp [hconn])
    simp only [hconn, hhandle] at hc ⊢
    split at hc
    · rename_i hempty
      rw [if_pos hempty]
      refine h.of_same hc ?_ (fun d hd => hd) (fun j d w hj => hj) h.running
      exact fun d hd => (update_none_ne_none.mp hd).2
    · rename_i hrest
      rw [if_neg hrest]
      refine h.of_same hc ?_ (fun d hd => hd) (fun j d w hj => hj) h.running
      intro d hd
      rcases update_some_ne_none.mp hd with rfl | hd
      · simp [hconn]
      · exact hd

theorem Served.maybeStopSubscriber {s : State} (h : Served s) (hfree : s.lock = none)
    {t : TimerId} {c : CampaignId} (ht : s.timers t = some ⟨c, .fired⟩) :
    Served (s.maybeStopSubscriber t c) := by
  have hc := h.coherent.maybeStopSubscriber hfree ht
  unfold State.maybeStopSubscriber at hc ⊢
  simp only at hc ⊢
  split at hc
  · rename_i hclient
    rw [if_pos hclient]
    exact h.of_same hc (fun d hd => hd) (fun d hd => hd) (fun j d w hj => hj) h.running
  · rename_i hclient
    rw [if_neg hclient]
    have hnone : s.connections c = none := by
      by_contra hne
      exact hclient (h.coherent.hasClient.mpr hne)
    cases htask : s.tasks c with
    | none =>
      simp only [htask] at hc ⊢
      exact h.of_same hc (fun d hd => hd) (fun d hd => hd) (fun j d w hj => hj) h.running
    | some k =>
      simp only [htask] at hc ⊢
      refine ⟨hc, ?_, ?_⟩
      · intro d hd
        have hdc : d ≠ c := by
          rintro rfl
          exact hd hnone
        rcases h.served d hd with htask' | hfactory
        · exact Or.inl (update_none_ne_none.mpr ⟨hdc, htask'⟩)
        · exact Or.inr hfactory
      · intro j sub hj hcan
        simp only [State.cancelTask] at hj
        split at hj
        · obtain ⟨_, _, rfl⟩ := Option.map_eq_some_iff.mp hj
          cases hcan
        · exact h.running j sub hj hcan

theorem Served.setSub {s : State} (h : Served s) {k : TaskId} {old sub : Subscriber}
    {inbox : WebSocket → List String} {log : List Event} (hk : s.subs k = some old)
    (hcamp : sub.campaign = old.campaign) (hcan : sub.cancelled = old.cancelled)
    (hpc : sub.cancelled = false → sub.pc ≠ .finished) :
    Served { s.setSub k sub with inbox := inbox, log := log } := by
  refine h.of_same (h.coherent.setSub hk hcamp hcan) (fun d hd => hd) (fun d hd => hd)
    (fun j d w hj => hj) ?_
  intro j sub' hj hlive
  rcases update_eq_some.mp hj with ⟨_, heq⟩ | ⟨_, hj⟩
  · cases heq
    exact hpc hlive
  · exact h.running j sub' hj hlive

theorem Served.step {s s' : State} {a : Action} (h : Served s) (hq : Quiet s a)
    (hs : step s a = some s') : Served s' := by
  have hc := h.coherent.step hs
  cases a with
  | callConnect i c ws =>
    obtain ⟨hi, rfl⟩ := step_callConnect.mp hs
    exact h.setConnect (by simp [hi]) (by simp)
  | callDisconnect i c ws =>
    obtain ⟨_, rfl⟩ := step_callDisconnect.mp hs
    exact h.of_same hc (fun d hd => hd) (fun d hd => hd) (fun j d w hj => hj) h.running
  | enter i =>
    obtain ⟨c, ws, hfree, hi, rfl⟩ := step_enter.mp hs
    exact h.connectSection hfree hi
  | factoryReturns i backlog =>
    obtain ⟨c, ws, hi, rfl⟩ := step_factoryReturns.mp hs
    exact h.factoryReturned hi backlog
  | factoryRaises i => exact hq.elim
  | cancelConnect i =>
    rcases step_cancelConnect.mp hs with ⟨c, ws, hi, rfl⟩ | ⟨c, ws, hi, rfl⟩
    · exact absurd hi (hq c ws)
    · exact h.setConnect (by simp [hi]) (by simp)
  | leave i =>
    obtain ⟨c, ws, hfree, _, rfl⟩ := step_leave.mp hs
    exact h.disconnectSection hfree i c ws
  | cancelDisconnect i =>
    obtain ⟨c, ws, _, rfl⟩ := step_cancelDisconnect.mp hs
    exact h.of_same hc (fun d hd => hd) (fun d hd => hd) (fun j d w hj => hj) h.running
  | fire t =>
    obtain ⟨c, _, rfl⟩ := step_fire.mp hs
    exact h.of_same hc (fun d hd => hd) (fun d hd => hd) (fun j d w hj => hj) h.running
  | stop t =>
    obtain ⟨c, hfree, ht, rfl⟩ := step_stop.mp hs
    exact h.maybeStopSubscriber hfree ht
  | publish channel f =>
    cases hs
    refine h.of_same hc (fun d hd => hd) (fun d hd => hd) (fun j d w hj => hj) ?_
    intro k sub hk hcan
    obtain ⟨old, hold, rfl⟩ := Option.map_eq_some_iff.mp hk
    have hold' : old.cancelled = false := by split at hcan <;> exact hcan
    have hpc := h.running k old hold hold'
    split <;> exact hpc
  | read k targets =>
    obtain ⟨c, f, queue, hk, hcase⟩ := step_read.mp hs
    rcases hcase with ⟨_, rfl⟩ | ⟨hmsg, hraw, rfl⟩ | ⟨message, _, _, _, _, rfl⟩
    · exact h.setSub hk rfl rfl (by simp)
    · exact absurd hraw (hq _ f queue hk rfl hmsg)
    · refine h.setSub hk rfl rfl (fun _ => ?_)
      simp only
      split <;> simp
  | send k ok =>
    obtain ⟨c, message, ws, rest, queue, hk, rfl⟩ := step_send.mp hs
    cases ok <;>
      · refine h.setSub hk rfl rfl (fun _ => ?_)
        simp only
        split <;> simp
  | die k => exact hq.elim
  | unwind k =>
    obtain ⟨c, pc, queue, hk, _, rfl⟩ := step_unwind.mp hs
    exact h.setSub hk rfl rfl (by simp)
  | shutdown => exact hq.elim
  | awaitTask =>
    obtain ⟨k, ks, sub, _, _, _, rfl⟩ := step_awaitTask.mp hs
    exact h.of_same hc (fun d hd => hd) (fun d hd => hd) (fun j d w hj => hj) h.running

theorem Coherent.uncancelled_recorded {s : State} (h : Coherent s) {c : CampaignId}
    {k : TaskId} (hk : Uncancelled s c k) : s.tasks c = some k := by
  obtain ⟨sub, hsub, rfl, hcan⟩ := hk
  exact h.owned k sub hsub hcan

theorem Coherent.recorded_uncancelled {s : State} (h : Coherent s) {c : CampaignId}
    {k : TaskId} (hk : s.tasks c = some k) : Uncancelled s c k :=
  h.recorded c k hk

/-- While the lock is free, a campaign with clients has a recorded task. -/
theorem Served.task_of_client {s : State} (h : Served s) (hfree : s.lock = none)
    {c : CampaignId} (hc : s.connections c ≠ none) : ∃ k, s.tasks c = some k := by
  rcases h.served c hc with htask | ⟨i, ws, hi⟩
  · exact Option.ne_none_iff_exists'.mp htask
  · exact absurd hi (h.coherent.notInFactory hfree i c ws)

/-- **Subscriber lifecycle.** After any quiet run that leaves the lock free,
for every campaign: with a client there is exactly one uncancelled subscriber
task, it is the recorded one and it runs; every uncancelled task is the
recorded one; a recorded task without clients has a timer or a fired stop that
will end it; and no empty client set is kept. -/
theorem subscriber_lifecycle {as : List Action} {s : State}
    (hrun : exec step State.init as = some s) (hquiet : Along step Quiet State.init as)
    (hfree : s.lock = none) (c : CampaignId) :
    ((∃ ws, Registered s c ws) →
      ∃ k, s.tasks c = some k ∧ LiveFor s c k ∧ ∀ j, Uncancelled s c j ↔ j = k) ∧
    (∀ k, Uncancelled s c k → s.tasks c = some k) ∧
    (s.tasks c ≠ none → (∀ ws, ¬ Registered s c ws) →
      ∃ t tm, s.timers t = some tm ∧ tm.campaign = c ∧ tm.live) ∧
    (∀ conns, s.connections c = some conns → conns ≠ ∅) := by
  have h : Served s :=
    exec_of_along (I := Served) (fun _ _ _ hi hq hs => hi.step hq hs) served_init hquiet hrun
  have hcoh := h.coherent
  refine ⟨?_, fun k hk => hcoh.uncancelled_recorded hk, ?_, hcoh.nonempty c⟩
  · rintro ⟨ws, conns, hconns, _⟩
    obtain ⟨k, hk⟩ := h.task_of_client hfree (c := c) (by simp [hconns])
    obtain ⟨sub, hsub, hcamp, hcan⟩ := hcoh.recorded c k hk
    refine ⟨k, hk, ⟨sub, hsub, hcamp, hcan, h.running k sub hsub hcan⟩, ?_⟩
    intro j
    constructor
    · intro hj
      have hj' := hcoh.uncancelled_recorded hj
      rw [hk] at hj'
      exact (Option.some.inj hj').symm
    · rintro rfl
      exact hcoh.recorded_uncancelled hk
  · intro htask hnobody
    apply hcoh.stoppable c htask
    by_contra hne
    obtain ⟨conns, hconns⟩ := Option.ne_none_iff_exists'.mp hne
    obtain ⟨ws, hws⟩ := Finset.nonempty_iff_ne_empty.mpr (hcoh.nonempty c conns hconns)
    exact hnobody ws ⟨conns, hconns, hws⟩

/-- Two clients of campaign 7 come, the first goes. -/
def twoClients : List Action :=
  [.callConnect 0 7 10, .enter 0, .factoryReturns 0 [], .callConnect 1 7 11, .enter 1,
    .callDisconnect 0 7 10, .leave 0]

theorem subscriber_lifecycle_twoClients :
    ∃ s, exec step State.init twoClients = some s ∧ Registered s 7 11 ∧
      ∃ k, s.tasks 7 = some k ∧ LiveFor s 7 k ∧ ∀ j, Uncancelled s 7 j ↔ j = k := by
  have hquiet : Along step Quiet State.init twoClients :=
    Along.of_mem (by simp [twoClients, Quiet]) _
  refine ⟨_, rfl, ⟨_, rfl, by decide⟩, ?_⟩
  apply (@subscriber_lifecycle twoClients _ rfl hquiet rfl 7).1
  exact ⟨11, _, rfl, by decide⟩

/-! ## `connect` and a subscriber that has ended -/

end IsalesApi.Ws
