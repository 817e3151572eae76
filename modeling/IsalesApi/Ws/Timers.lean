import IsalesApi.Ws.Coherence

/-!
# Which timer stops a subscriber

A timer is armed when the last client of a campaign leaves and must not end a
subscriber once somebody has reconnected: the next disconnect starts a new
delay. `connect` cancels the recorded timer, but a timer that has fired cannot
be cancelled, and `_maybe_stop_subscriber` looks only for clients that are
there when it gets the lock. A connect and a disconnect that both come in
between go unnoticed, and the handle it then drops is that of the new timer.

A stop is in order exactly when the handle it drops is its own
(`stops_fresh_iff_ownHandle`).
-/

namespace IsalesApi.Ws

open Foundation

/-- Of all joins to `c` and all timers armed for `c` in the history, the last
is the arming of `t`. -/
def Fresh (c : CampaignId) (t : TimerId) : List Event → Prop
  | [] => False
  | .armed d u :: log => if d = c then u = t else Fresh c t log
  | .joined d _ :: log => d ≠ c ∧ Fresh c t log
  | _ :: log => Fresh c t log

/-- Whenever a subscriber was stopped, nobody had connected to its campaign
since the timer behind that stop was armed. -/
def StopsFresh (log : List Event) : Prop :=
  ∀ c t k before, .stopped c t k :: before <:+ log → Fresh c t before

theorem stopsFresh_cons {e : Event} {log : List Event} :
    StopsFresh (e :: log) ↔ StopsFresh log ∧ ∀ c t k, e = .stopped c t k → Fresh c t log := by
  constructor
  · intro h
    refine ⟨fun c t k before hb => h c t k before (hb.trans (List.suffix_cons e log)), ?_⟩
    rintro c t k rfl
    exact h c t k log List.suffix_rfl
  · rintro ⟨hlog, he⟩ c t k before hb
    rcases List.suffix_cons_iff.mp hb with heq | hb
    · cases heq
      exact he c t k rfl
    · exact hlog c t k before hb

/-- A stop of timer `t` that ends a subscriber drops the handle of `t`. -/
def OwnHandle (s : State) : Action → Prop
  | .stop t => ∀ c, s.timers t = some ⟨c, .fired⟩ → s.connections c = none →
      s.tasks c ≠ none → s.handles c = some t
  | _ => True

/-! ## The recorded handle and the history -/

/-- The handle map against the history: a recorded handle is the fresh timer,
a fresh timer of a running subscriber is recorded, and where there are clients
no timer is fresh. -/
structure Timely (s : State) : Prop where
  coherent : Coherent s
  fresh : ∀ c t, s.handles c = some t → Fresh c t s.log
  recorded : ∀ c t, Fresh c t s.log → s.tasks c ≠ none → s.handles c = some t
  joined : ∀ c t, s.connections c ≠ none → ¬ Fresh c t s.log

theorem timely_init : Timely State.init :=
  ⟨coherent_init, by simp [State.init], by simp [State.init], by simp [State.init]⟩

/-- A step that touches none of the three dicts and tells of no join and no
timer. -/
theorem Timely.of_same {s s' : State} (h : Timely s) (hc : Coherent s')
    (hhandles : s'.handles = s.handles) (htasks : s'.tasks = s.tasks)
    (hconns : s'.connections = s.connections)
    (hlog : ∀ c t, Fresh c t s'.log ↔ Fresh c t s.log) : Timely s' where
  coherent := hc
  fresh c t hc' := (hlog c t).mpr (h.fresh c t (hhandles ▸ hc'))
  recorded c t hf htask := by
    rw [hhandles]
    exact h.recorded c t ((hlog c t).mp hf) (htasks ▸ htask)
  joined c t hc' hf := h.joined c t (hconns ▸ hc') ((hlog c t).mp hf)

theorem Timely.connectSection {s : State} (h : Timely s) {i : CallId} {c : CampaignId}
    {ws : WebSocket} (hc : Coherent (s.connectSection i c ws)) :
    Timely (s.connectSection i c ws) := by
  refine ⟨hc, ?_, ?_, ?_⟩
  · intro d t hd
    rw [connectSection_handles] at hd
    rw [connectSection_log]
    rcases update_eq_some.mp hd with ⟨_, hd⟩ | ⟨hdc, hd⟩
    · cases hd
    · exact ⟨Ne.symm hdc, h.fresh d t hd⟩
  · intro d t hf htask
    rw [connectSection_log] at hf
    rw [connectSection_tasks] at htask
    obtain ⟨hcd, hf⟩ := hf
    rw [connectSection_handles, Function.update_of_ne (Ne.symm hcd)]
    exact h.recorded d t hf htask
  · intro d t hd hf
    rw [connectSection_log] at hf
    obtain ⟨hcd, hf⟩ := hf
    rw [connectSection_connections, Function.update_of_ne (Ne.symm hcd)] at hd
    exact h.joined d t hd hf

theorem Timely.factoryReturned {s : State} (h : Timely s) {i : CallId} {c : CampaignId}
    {ws : WebSocket} {backlog : List Frame} (hi : s.connects i = some ⟨c, ws, .inFactory⟩) :
    Timely (s.factoryReturned i c ws backlog) := by
  refine ⟨h.coherent.factoryReturned hi backlog, h.fresh, ?_, h.joined⟩
  intro d t hf htask
  change Fresh d t s.log at hf
  rcases update_some_ne_none.mp htask with rfl | htask
  · -- the client that waited for the factory is registered
    obtain ⟨_, _, conns, hconns, _⟩ := h.coherent.inFactory i d ws hi
    exact absurd hf (h.joined d t (by simp [hconns]))
  · exact h.recorded d t hf htask

theorem Timely.disconnectSection {s : State} (h : Timely s) {i : CallId} {c : CampaignId}
    {ws : WebSocket} (hc : Coherent (s.disconnectSection i c ws)) :
    Timely (s.disconnectSection i c ws) := by
  unfold State.disconnectSection at hc ⊢
  cases hconn : s.connections c with
  | none =>
    simp only [hconn] at hc ⊢
    exact h.of_same hc rfl rfl rfl (fun _ _ => Iff.rfl)
  | some conns =>
    have hne : s.connections c ≠ none := by simp [hconn]
    have hnone := h.coherent.noHandle c hne
    simp only [hconn, State.scheduleShutdown, hnone] at hc ⊢
    split at hc
    · -- the last client of `c` goes: the timer is armed now, so it is fresh
      rename_i hlast
      rw [if_pos hlast]
      refine ⟨hc, ?_, ?_, ?_⟩
      · intro d t hd
        rcases update_eq_some.mp hd with ⟨rfl, heq⟩ | ⟨hdc, hd⟩
        · cases heq
          simp [Fresh]
        · simpa [Fresh, Ne.symm hdc] using h.fresh d t hd
      · intro d t hf htask
        by_cases hdc : d = c
        · subst hdc
          obtain rfl : s.nextTimer = t := by simpa [Fresh] using hf
          exact Function.update_self _ _ _
        · have hf' : Fresh d t s.log := by simpa [Fresh, Ne.symm hdc] using hf
          simpa [hdc] using h.recorded d t hf' htask
      · intro d t hd hf
        obtain ⟨hdc, hd⟩ := update_none_ne_none.mp hd
        have hf' : Fresh d t s.log := by simpa [Fresh, Ne.symm hdc] using hf
        exact h.joined d t hd hf'
    · rename_i hrest
      rw [if_neg hrest]
      refine ⟨hc, h.fresh, h.recorded, ?_⟩
      intro d t hd
      rcases update_some_ne_none.mp hd with rfl | hd
      · exact h.joined d t hne
      · exact h.joined d t hd

theorem Timely.maybeStopSubscriber {s : State} (h : Timely s) {t : TimerId} {c : CampaignId}
    (hc : Coherent (s.maybeStopSubscriber t c)) : Timely (s.maybeStopSubscriber t c) := by
  have hfresh : ∀ d u, Function.update s.handles c none d = some u → Fresh d u s.log := by
    intro d u hd
    rcases update_eq_some.mp hd with ⟨_, hd⟩ | ⟨_, hd⟩
    · cases hd
    · exact h.fresh d u hd
  have hother : ∀ d u, d ≠ c → Fresh d u s.log → s.tasks d ≠ none →
      Function.update s.handles c none d = some u := by
    intro d u hdc hf htask
    rw [Function.update_of_ne hdc]
    exact h.recorded d u hf htask
  unfold State.maybeStopSubscriber at hc ⊢
  simp only at hc ⊢
  split at hc
  · rename_i hclient
    rw [if_pos hclient]
    refine ⟨hc, hfresh, ?_, h.joined⟩
    intro d u hf htask
    by_cases hdc : d = c
    · -- where there are clients no timer is fresh
      subst hdc
      exact absurd hf (h.joined d u (h.coherent.hasClient.mp hclient))
    · exact hother d u hdc hf htask
  · rename_i hclient
    rw [if_neg hclient]
    cases htask : s.tasks c with
    | none =>
      simp only [htask] at hc ⊢
      refine ⟨hc, hfresh, ?_, h.joined⟩
      intro d u hf htask'
      refine hother d u ?_ hf htask'
      rintro rfl
      exact htask' htask
    | some k =>
      simp only [htask] at hc ⊢
      refine ⟨hc, hfresh, ?_, h.joined⟩
      intro d u hf htask'
      obtain ⟨hdc, htask'⟩ := update_none_ne_none.mp htask'
      exact hother d u hdc hf htask'

theorem Timely.step {s s' : State} {a : Action} (h : Timely s) (hs : step s a = some s') :
    Timely s' := by
  have hc := h.coherent.step hs
  cases a with
  | callConnect i c ws =>
    obtain ⟨_, rfl⟩ := step_callConnect.mp hs
    exact h.of_same hc rfl rfl rfl (fun _ _ => Iff.rfl)
  | callDisconnect i c ws =>
    obtain ⟨_, rfl⟩ := step_callDisconnect.mp hs
    exact h.of_same hc rfl rfl rfl (fun _ _ => Iff.rfl)
  | enter i =>
    obtain ⟨c, ws, _, _, rfl⟩ := step_enter.mp hs
    exact h.connectSection hc
  | factoryReturns i backlog =>
    obtain ⟨c, ws, hi, rfl⟩ := step_factoryReturns.mp hs
    exact h.factoryReturned hi
  | factoryRaises i =>
    obtain ⟨c, ws, _, rfl⟩ := step_factoryRaises.mp hs
    exact h.of_same hc rfl rfl rfl (fun _ _ => Iff.rfl)
  | cancelConnect i =>
    rcases step_cancelConnect.mp hs with ⟨c, ws, _, rfl⟩ | ⟨c, ws, _, rfl⟩
    · exact h.of_same hc rfl rfl rfl (fun _ _ => Iff.rfl)
    · exact h.of_same hc rfl rfl rfl (fun _ _ => Iff.rfl)
  | leave i =>
    obtain ⟨c, ws, _, _, rfl⟩ := step_leave.mp hs
    exact h.disconnectSection hc
  | cancelDisconnect i =>
    obtain ⟨c, ws, _, rfl⟩ := step_cancelDisconnect.mp hs
    exact h.of_same hc rfl rfl rfl (fun _ _ => Iff.rfl)
  | fire t =>
    obtain ⟨c, _, rfl⟩ := step_fire.mp hs
    exact h.of_same hc rfl rfl rfl (fun _ _ => Iff.rfl)
  | stop t =>
    obtain ⟨c, _, _, rfl⟩ := step_stop.mp hs
    exact h.maybeStopSubscriber hc
  | publish channel f =>
    cases hs
    exact h.of_same hc rfl rfl rfl (fun _ _ => Iff.rfl)
  | read k targets =>
    obtain ⟨c, f, queue, _, hcase⟩ := step_read.mp hs
    rcases hcase with ⟨_, rfl⟩ | ⟨_, _, rfl⟩ | ⟨message, _, _, _, _, rfl⟩
    · exact h.of_same hc rfl rfl rfl (fun _ _ => Iff.rfl)
    · exact h.of_same hc rfl rfl rfl (fun _ _ => Iff.rfl)
    · exact h.of_same hc rfl rfl rfl (fun _ _ => Iff.rfl)
  | send k ok =>
    obtain ⟨c, message, ws, rest, queue, _, rfl⟩ := step_send.mp hs
    cases ok with
    | false => exact h.of_same hc rfl rfl rfl (fun _ _ => Iff.rfl)
    | true => exact h.of_same hc rfl rfl rfl (fun _ _ => Iff.rfl)
  | die k =>
    obtain ⟨c, queue, _, rfl⟩ := step_die.mp hs
    exact h.of_same hc rfl rfl rfl (fun _ _ => Iff.rfl)
  | unwind k =>
    obtain ⟨c, pc, queue, _, _, rfl⟩ := step_unwind.mp hs
    exact h.of_same hc rfl rfl rfl (fun _ _ => Iff.rfl)
  | shutdown =>
    obtain ⟨_, rfl⟩ := step_shutdown.mp hs
    refine ⟨hc, ?_, ?_, h.joined⟩
    · intro c t ht
      cases ht
    · intro c t _ htask
      exact absurd rfl htask
  | awaitTask =>
    obtain ⟨k, ks, sub, _, _, _, rfl⟩ := step_awaitTask.mp hs
    exact h.of_same hc rfl rfl rfl (fun _ _ => Iff.rfl)

/-! ## When stops are in order -/

theorem Timely.fresh_iff {s : State} (h : Timely s) {c : CampaignId} {t : TimerId}
    (htask : s.tasks c ≠ none) : Fresh c t s.log ↔ s.handles c = some t :=
  ⟨fun hf => h.recorded c t hf htask, h.fresh c t⟩

/-- Every other step adds no stop to the history. -/
theorem stopsFresh_of_step {s s' : State} {a : Action} (hs : step s a = some s')
    (ha : ∀ t, a ≠ .stop t) : StopsFresh s'.log ↔ StopsFresh s.log := by
  have hcons : ∀ e, (∀ c t k, e ≠ .stopped c t k) →
      (StopsFresh (e :: s.log) ↔ StopsFresh s.log) := by
    intro e he
    rw [stopsFresh_cons]
    exact and_iff_left fun c t k heq => absurd heq (he c t k)
  cases a with
  | callConnect i c ws =>
    obtain ⟨_, rfl⟩ := step_callConnect.mp hs
    exact Iff.rfl
  | callDisconnect i c ws =>
    obtain ⟨_, rfl⟩ := step_callDisconnect.mp hs
    exact Iff.rfl
  | enter i =>
    obtain ⟨c, ws, _, _, rfl⟩ := step_enter.mp hs
    rw [connectSection_log]
    exact hcons _ (by simp)
  | factoryReturns i backlog =>
    obtain ⟨c, ws, _, rfl⟩ := step_factoryReturns.mp hs
    exact hcons _ (by simp)
  | factoryRaises i =>
    obtain ⟨c, ws, _, rfl⟩ := step_factoryRaises.mp hs
    exact Iff.rfl
  | cancelConnect i =>
    rcases step_cancelConnect.mp hs with ⟨c, ws, _, rfl⟩ | ⟨c, ws, _, rfl⟩
    · exact Iff.rfl
    · exact Iff.rfl
  | leave i =>
    obtain ⟨c, ws, _, _, rfl⟩ := step_leave.mp hs
    unfold State.disconnectSection State.scheduleShutdown
    simp only
    split
    · exact Iff.rfl
    · split
      · split
        · exact hcons _ (by simp)
        · rw [stopsFresh_cons]
          exact (and_iff_left (by simp)).trans (hcons _ (by simp))
      · exact hcons _ (by simp)
  | cancelDisconnect i =>
    obtain ⟨c, ws, _, rfl⟩ := step_cancelDisconnect.mp hs
    exact Iff.rfl
  | fire t =>
    obtain ⟨c, _, rfl⟩ := step_fire.mp hs
    exact Iff.rfl
  | stop t => exact absurd rfl (ha t)
  | publish channel f =>
    cases hs
    exact hcons _ (by simp)
  | read k targets =>
    obtain ⟨c, f, queue, _, hcase⟩ := step_read.mp hs
    rcases hcase with ⟨_, rfl⟩ | ⟨_, _, rfl⟩ | ⟨message, _, _, _, _, rfl⟩
    · exact Iff.rfl
    · exact Iff.rfl
    · exact hcons _ (by simp)
  | send k ok =>
    obtain ⟨c, message, ws, rest, queue, _, rfl⟩ := step_send.mp hs
    cases ok with
    | false => exact hcons _ (by simp)
    | true => exact Iff.rfl
  | die k =>
    obtain ⟨c, queue, _, rfl⟩ := step_die.mp hs
    exact Iff.rfl
  | unwind k =>
    obtain ⟨c, pc, queue, _, _, rfl⟩ := step_unwind.mp hs
    exact Iff.rfl
  | shutdown =>
    obtain ⟨_, rfl⟩ := step_shutdown.mp hs
    exact Iff.rfl
  | awaitTask =>
    obtain ⟨k, ks, sub, _, _, _, rfl⟩ := step_awaitTask.mp hs
    exact Iff.rfl

/-- What a stop adds to the history. -/
theorem Timely.stopsFresh_stop {s s' : State} (h : Timely s) {t : TimerId}
    (hs : Ws.step s (.stop t) = some s') (hq : StopsFresh s.log) :
    StopsFresh s'.log ↔ OwnHandle s (.stop t) := by
  obtain ⟨c, _, ht, rfl⟩ := step_stop.mp hs
  have hown : OwnHandle s (.stop t) ↔
      (s.connections c = none → s.tasks c ≠ none → s.handles c = some t) := by
    constructor
    · exact fun ho => ho c ht
    · intro ho d hd
      rw [ht] at hd
      cases hd
      exact ho
  rw [hown]
  unfold State.maybeStopSubscriber
  simp only
  split
  · rename_i hclient
    exact iff_of_true hq fun hnone => absurd hnone (h.coherent.hasClient.mp hclient)
  · rename_i hclient
    have hnone : s.connections c = none := by
      by_contra hne
      exact hclient (h.coherent.hasClient.mpr hne)
    cases htask : s.tasks c with
    | none => exact iff_of_true hq (fun _ hne => absurd rfl hne)
    | some k =>
      have htask' : s.tasks c ≠ none := by simp [htask]
      show StopsFresh (.stopped c t k :: s.log) ↔ _
      rw [stopsFresh_cons, ← h.fresh_iff htask']
      constructor
      · exact fun hstop _ _ => hstop.2 c t k rfl
      · intro hf
        refine ⟨hq, ?_⟩
        intro d u j heq
        cases heq
        exact hf hnone (by simp)

/-- **Stale timers.** In every run, every stop is caused by the timer of the
disconnect that last emptied the campaign if and only if every stop that ends a
subscriber drops its own handle. -/
theorem stops_fresh_iff_ownHandle (as : List Action) :
    Always step (fun s => StopsFresh s.log) State.init as ↔
      Along step OwnHandle State.init as := by
  refine always_iff_along (I := Timely) (fun _ _ _ hi hs => hi.step hs) ?_ timely_init ?_
  · intro s a s' hi hq hs
    by_cases ha : ∃ t, a = .stop t
    · obtain ⟨t, rfl⟩ := ha
      exact hi.stopsFresh_stop hs hq
    · have hother : ∀ t, a ≠ .stop t := fun t heq => ha ⟨t, heq⟩
      have hown : OwnHandle s a := by
        cases a with
        | stop t => exact absurd rfl (hother t)
        | _ => exact trivial
      exact iff_of_true ((stopsFresh_of_step hs hother).mpr hq) hown
  · intro c t k before hb
    exact absurd (List.suffix_nil.mp hb) (by simp)

/-- Timer 0 has fired, and before its stop runs client 11 comes and goes. -/
def staleTimer : List Action :=
  [.callConnect 0 1 10, .enter 0, .factoryReturns 0 [], .callDisconnect 0 1 10, .leave 0,
    .fire 0, .callConnect 1 1 11, .enter 1, .callDisconnect 1 1 11, .leave 1, .stop 0]

/-- The subscriber is stopped by timer 0 while timer 1 has just been armed. -/
theorem stale_timer_stops : ¬ Always step (fun s => StopsFresh s.log) State.init staleTimer := by
  intro h
  have hlast := h.last (t := _) rfl
  have hf : Fresh 1 0 [.armed 1 1, .left 1 11, .joined 1 11, .armed 1 0, .left 1 10,
      .subscribed 1 0 [], .joined 1 10] := hlast 1 0 0 _ List.suffix_rfl
  simp [Fresh] at hf

end IsalesApi.Ws
