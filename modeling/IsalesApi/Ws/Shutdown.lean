import IsalesApi.Ws.Coherence

/-!
# `shutdown()` and the factory

`shutdown()` reads and clears `_tasks` without taking the lock. What is
recorded then is every task nobody has cancelled (`Coherent.owned`), so at that
point no subscriber is left alive. A `connect` that holds the lock and waits for
the factory is not stopped by it, though, and stores its task afterwards.

The subscribers stay ended from the call of `shutdown()` on exactly when no
factory call completes from then on (`ended_iff_inTime`).
-/

namespace IsalesApi.Ws

open Foundation

/-- No subscriber task exists that is neither finished nor cancelled. -/
def AllEnded (s : State) : Prop :=
  ∀ k sub, s.subs k = some sub → sub.cancelled = true ∨ sub.pc = .finished

/-- No factory call completes once `shutdown()` was called. -/
def InTime (s : State) : Action → Prop
  | .factoryReturns _ _ => s.shutdown = none
  | _ => True

/-- What `shutdown()`, called in `s`, promises of a later state `t`: once it has
returned and the connects started before it have finished, nothing runs. -/
def ShutDown (s t : State) : Prop :=
  t.shutdown = some [] →
    (∀ i call, s.connects i = some call → ∃ call', t.connects i = some call' ∧ call'.finished) →
    AllEnded t

theorem AllEnded.setSub {s : State} (h : AllEnded s) {k : TaskId} {sub : Subscriber}
    (hsub : sub.cancelled = true ∨ sub.pc = .finished) : AllEnded (s.setSub k sub) := by
  intro j sub' hj
  rcases update_eq_some.mp hj with ⟨_, heq⟩ | ⟨_, hj⟩
  · cases heq
    exact hsub
  · exact h j sub' hj

theorem AllEnded.not_live {s : State} (h : AllEnded s) {k : TaskId} {c : CampaignId}
    {pc : RunPc} {queue : List Frame} (hk : s.subs k = some ⟨c, false, pc, queue⟩)
    (hpc : pc ≠ .finished) : False := by
  rcases h k _ hk with hcan | hfin
  · cases hcan
  · exact hpc hfin

theorem Coherent.allEnded_shutdownSection {s : State} (h : Coherent s) :
    AllEnded s.shutdownSection := by
  intro k sub hk
  by_contra hlive
  push Not at hlive
  have hcan : sub.cancelled = false := by simpa using hlive.1
  -- the dict is empty now, and an uncancelled task would be recorded in it
  have hown := h.shutdownSection.owned k sub hk hcan
  cases hown

/-- Only the factory brings a subscriber to life. -/
theorem AllEnded.step {s s' : State} {a : Action} (h : AllEnded s)
    (hs : step s a = some s') (ha : ∀ i backlog, a ≠ .factoryReturns i backlog) :
    AllEnded s' := by
  cases a with
  | callConnect i c ws =>
    obtain ⟨_, rfl⟩ := step_callConnect.mp hs
    exact h
  | callDisconnect i c ws =>
    obtain ⟨_, rfl⟩ := step_callDisconnect.mp hs
    exact h
  | enter i =>
    obtain ⟨c, ws, _, _, rfl⟩ := step_enter.mp hs
    simpa [AllEnded] using h
  | factoryReturns i backlog => exact absurd rfl (ha i backlog)
  | factoryRaises i =>
    obtain ⟨c, ws, _, rfl⟩ := step_factoryRaises.mp hs
    exact h
  | cancelConnect i =>
    rcases step_cancelConnect.mp hs with ⟨c, ws, _, rfl⟩ | ⟨c, ws, _, rfl⟩ <;> exact h
  | leave i =>
    obtain ⟨c, ws, _, _, rfl⟩ := step_leave.mp hs
    simpa [AllEnded] using h
  | cancelDisconnect i =>
    obtain ⟨c, ws, _, rfl⟩ := step_cancelDisconnect.mp hs
    exact h
  | fire t =>
    obtain ⟨c, _, rfl⟩ := step_fire.mp hs
    exact h
  | stop t =>
    obtain ⟨c, _, _, rfl⟩ := step_stop.mp hs
    unfold State.maybeStopSubscriber
    simp only
    split
    · exact h
    · split
      · exact h
      · intro k sub hk
        simp only [State.cancelTask] at hk
        split at hk
        · obtain ⟨old, _, rfl⟩ := Option.map_eq_some_iff.mp hk
          exact Or.inl rfl
        · exact h k sub hk
  | publish channel f =>
    cases hs
    intro k sub hk
    obtain ⟨old, hold, rfl⟩ := Option.map_eq_some_iff.mp hk
    have hended := h k old hold
    split <;> exact hended
  | read k targets =>
    -- only a live task reads, sends or dies
    obtain ⟨c, f, queue, hk, _⟩ := step_read.mp hs
    exact (h.not_live hk (by simp)).elim
  | send k ok =>
    obtain ⟨c, message, ws, rest, queue, hk, _⟩ := step_send.mp hs
    exact (h.not_live hk (by simp)).elim
  | die k =>
    obtain ⟨c, queue, hk, _⟩ := step_die.mp hs
    exact (h.not_live hk (by simp)).elim
  | unwind k =>
    obtain ⟨c, pc, queue, _, _, rfl⟩ := step_unwind.mp hs
    exact h.setSub (Or.inl rfl)
  | shutdown =>
    obtain ⟨_, rfl⟩ := step_shutdown.mp hs
    intro k sub hk
    obtain ⟨old, hold, rfl⟩ := Option.map_eq_some_iff.mp hk
    split
    · exact Or.inl rfl
    · exact h k old hold
  | awaitTask =>
    obtain ⟨k, ks, sub, _, _, _, rfl⟩ := step_awaitTask.mp hs
    exact h

/-- The call of `shutdown()` is the only step that changes whether it was
called. -/
theorem shutdown_of_step {s s' : State} {a : Action} (hs : step s a = some s')
    (ha : a ≠ .shutdown) : s'.shutdown = none ↔ s.shutdown = none := by
  cases a with
  | callConnect i c ws =>
    obtain ⟨_, rfl⟩ := step_callConnect.mp hs
    exact Iff.rfl
  | callDisconnect i c ws =>
    obtain ⟨_, rfl⟩ := step_callDisconnect.mp hs
    exact Iff.rfl
  | enter i =>
    obtain ⟨c, ws, _, _, rfl⟩ := step_enter.mp hs
    rw [connectSection_shutdown]
  | factoryReturns i backlog =>
    obtain ⟨c, ws, _, rfl⟩ := step_factoryReturns.mp hs
    exact Iff.rfl
  | factoryRaises i =>
    obtain ⟨c, ws, _, rfl⟩ := step_factoryRaises.mp hs
    exact Iff.rfl
  | cancelConnect i =>
    rcases step_cancelConnect.mp hs with ⟨c, ws, _, rfl⟩ | ⟨c, ws, _, rfl⟩ <;> exact Iff.rfl
  | leave i =>
    obtain ⟨c, ws, _, _, rfl⟩ := step_leave.mp hs
    rw [disconnectSection_shutdown]
  | cancelDisconnect i =>
    obtain ⟨c, ws, _, rfl⟩ := step_cancelDisconnect.mp hs
    exact Iff.rfl
  | fire t =>
    obtain ⟨c, _, rfl⟩ := step_fire.mp hs
    exact Iff.rfl
  | stop t =>
    obtain ⟨c, _, _, rfl⟩ := step_stop.mp hs
    rw [maybeStopSubscriber_shutdown]
  | publish channel f =>
    cases hs
    exact Iff.rfl
  | read k targets =>
    obtain ⟨c, f, queue, _, hcase⟩ := step_read.mp hs
    rcases hcase with ⟨_, rfl⟩ | ⟨_, _, rfl⟩ | ⟨message, _, _, _, _, rfl⟩ <;> exact Iff.rfl
  | send k ok =>
    obtain ⟨c, message, ws, rest, queue, _, rfl⟩ := step_send.mp hs
    cases ok <;> exact Iff.rfl
  | die k =>
    obtain ⟨c, queue, _, rfl⟩ := step_die.mp hs
    exact Iff.rfl
  | unwind k =>
    obtain ⟨c, pc, queue, _, _, rfl⟩ := step_unwind.mp hs
    exact Iff.rfl
  | shutdown => exact absurd rfl ha
  | awaitTask =>
    obtain ⟨k, ks, sub, hks, _, _, rfl⟩ := step_awaitTask.mp hs
    simp [hks]

/-- One step after the call of `shutdown()`. -/
theorem ended_step_iff {s s' : State} {a : Action} (h : Coherent s)
    (hq : s.shutdown ≠ none → AllEnded s) (hs : step s a = some s') :
    (s'.shutdown ≠ none → AllEnded s') ↔ InTime s a := by
  by_cases hshut : a = .shutdown
  · subst hshut
    obtain ⟨_, rfl⟩ := step_shutdown.mp hs
    exact iff_of_true (fun _ => h.allEnded_shutdownSection) trivial
  · have hcalled := shutdown_of_step hs hshut
    by_cases hfac : ∃ i backlog, a = .factoryReturns i backlog
    · obtain ⟨i, backlog, rfl⟩ := hfac
      obtain ⟨c, ws, _, rfl⟩ := step_factoryReturns.mp hs
      constructor
      · intro hended
        show s.shutdown = none
        by_contra hne
        -- the task just created is alive
        have hnew := hended hne s.nextTask ⟨c, false, .listening, backlog⟩
          (by simp [State.factoryReturned])
        simp at hnew
      · exact fun hnone hne => absurd hnone hne
    · have hother : ∀ i backlog, a ≠ .factoryReturns i backlog :=
        fun i backlog heq => hfac ⟨i, backlog, heq⟩
      have hin : InTime s a := by
        cases a with
        | factoryReturns i backlog => exact absurd rfl (hother i backlog)
        | _ => exact trivial
      refine iff_of_true (fun hne => ?_) hin
      exact (hq (fun hnone => hne (hcalled.mpr hnone))).step hs hother

/-- In every run, no subscriber lives once `shutdown()` was called if and only
if no factory call completes from then on. -/
theorem ended_iff_inTime (as : List Action) :
    Always step (fun s => s.shutdown ≠ none → AllEnded s) State.init as ↔
      Along step InTime State.init as :=
  always_iff_along (I := Coherent) (fun _ _ _ hi hs => hi.step hs)
    (fun _ _ _ hi hq hs => ended_step_iff hi hq hs) coherent_init (by simp [State.init])

/-- **Shutdown is complete** in every run in which no factory call completes
after `shutdown()` was called. -/
theorem shutdown_complete {before after : List Action} {s m t : State}
    (hbefore : exec step State.init before = some s) (hshut : step s .shutdown = some m)
    (hafter : exec step m after = some t) (htime : Along step InTime m after) :
    ShutDown s t := by
  have hs : Coherent s := coherent_of_exec hbefore
  have hm : m.shutdown ≠ none → AllEnded m := (ended_step_iff hs (fun hne => by
    obtain ⟨hnone, _⟩ := step_shutdown.mp hshut
    exact absurd hnone hne) hshut).mpr trivial
  have halways : Always step (fun s => s.shutdown ≠ none → AllEnded s) m after :=
    (always_iff_along (I := Coherent) (fun _ _ _ hi hs => hi.step hs)
      (fun _ _ _ hi hq hs => ended_step_iff hi hq hs) (hs.step hshut) hm).mpr htime
  intro hreturned _
  exact halways.last hafter (by simp [hreturned])

theorem shutdown_complete_oneClient :
    ∃ s m t, exec step State.init [.callConnect 0 1 10, .enter 0, .factoryReturns 0 []] = some s ∧
      step s .shutdown = some m ∧ exec step m [.unwind 0, .awaitTask] = some t ∧
      t.shutdown = some [] ∧ ShutDown s t := by
  refine ⟨_, _, _, rfl, rfl, rfl, rfl, ?_⟩
  have htime : ∀ a ∈ [Action.unwind 0, .awaitTask], ∀ s, InTime s a := by simp [InTime]
  exact @shutdown_complete [.callConnect 0 1 10, .enter 0, .factoryReturns 0 []]
    [.unwind 0, .awaitTask] _ _ _ rfl rfl rfl (Along.of_mem htime _)

/-- `shutdown()` returns while a connect waits for the factory, which then
succeeds: the new subscriber runs on. -/
theorem late_factory_outlives_shutdown :
    ∃ s m t, exec step State.init [.callConnect 0 1 10, .enter 0] = some s ∧
      step s .shutdown = some m ∧ exec step m [.factoryReturns 0 []] = some t ∧
      ¬ ShutDown s t := by
  refine ⟨_, _, _, rfl, rfl, rfl, ?_⟩
  intro h
  have hended := h rfl ?_
  · rcases hended 0 ⟨1, false, .listening, []⟩ rfl with hcan | hfin
    · cases hcan
    · cases hfin
  · intro i call hi
    rcases update_eq_some.mp hi with ⟨rfl, _⟩ | ⟨hne, hi⟩
    · exact ⟨_, rfl, Or.inl rfl⟩
    · rcases update_eq_some.mp hi with ⟨rfl, _⟩ | ⟨_, hi⟩
      · exact absurd rfl hne
      · cases hi

end IsalesApi.Ws
