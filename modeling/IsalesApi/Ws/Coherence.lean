import IsalesApi.Ws.Manager

/-!
# The invariant of the connection manager

`Coherent` ties the three dicts to the coroutines, the timers and the
subscriber tasks. It holds after every action, failures of the factory,
cancelled callers and `shutdown()` included; the results about runs in which
these do not happen add what they need on top of it.
-/

namespace IsalesApi.Ws

open Foundation

structure Coherent (s : State) : Prop where
  holder : ∀ i, s.lock = some i → ∃ c ws, s.connects i = some ⟨c, ws, .inFactory⟩
  inFactory : ∀ i c ws, s.connects i = some ⟨c, ws, .inFactory⟩ →
    s.lock = some i ∧ s.tasks c = none ∧ ∃ conns, s.connections c = some conns ∧ ws ∈ conns
  nonempty : ∀ c conns, s.connections c = some conns → conns ≠ ∅
  recorded : ∀ c k, s.tasks c = some k →
    ∃ sub, s.subs k = some sub ∧ sub.campaign = c ∧ sub.cancelled = false
  owned : ∀ k sub, s.subs k = some sub → sub.cancelled = false →
    s.tasks sub.campaign = some k
  handle : ∀ c t, s.handles c = some t →
    ∃ tm, s.timers t = some tm ∧ tm.campaign = c ∧ tm.live
  noHandle : ∀ c, s.connections c ≠ none → s.handles c = none
  stoppable : ∀ c, s.tasks c ≠ none → s.connections c = none →
    ∃ t tm, s.timers t = some tm ∧ tm.campaign = c ∧ tm.live
  taskBound : ∀ k sub, s.subs k = some sub → k < s.nextTask
  timerBound : ∀ t tm, s.timers t = some tm → t < s.nextTimer

theorem coherent_init : Coherent State.init := by
  constructor <;> simp [State.init]

/-! ## Reading the updated dicts -/

theorem update_eq_some {κ α : Type} [DecidableEq κ] {f : κ → Option α} {a x : κ}
    {v : Option α} {b : α} :
    Function.update f a v x = some b ↔ x = a ∧ v = some b ∨ x ≠ a ∧ f x = some b := by
  rw [Function.update_apply]
  by_cases h : x = a <;> simp [h]

theorem update_some_ne_none {κ α : Type} [DecidableEq κ] {f : κ → Option α} {a x : κ}
    {b : α} : Function.update f a (some b) x ≠ none ↔ x = a ∨ f x ≠ none := by
  rw [Function.update_apply]
  by_cases h : x = a <;> simp [h]

theorem update_none_ne_none {κ α : Type} [DecidableEq κ] {f : κ → Option α} {a x : κ} :
    Function.update f a none x ≠ none ↔ x ≠ a ∧ f x ≠ none := by
  rw [Function.update_apply]
  by_cases h : x = a <;> simp [h]

theorem Coherent.hasClient {s : State} (h : Coherent s) {c : CampaignId} :
    s.hasClient c = true ↔ s.connections c ≠ none := by
  unfold State.hasClient
  cases hc : s.connections c with
  | none => simp
  | some conns => simpa using h.nonempty c conns hc

/-- While the lock is free, no `connect` awaits the factory. -/
theorem Coherent.notInFactory {s : State} (h : Coherent s) (hfree : s.lock = none)
    (i : CallId) (c : CampaignId) (ws : WebSocket) :
    s.connects i ≠ some ⟨c, ws, .inFactory⟩ := by
  intro hi
  have hlock := (h.inFactory i c ws hi).1
  rw [hfree] at hlock
  cases hlock

/-- At most one `connect` awaits the factory. -/
theorem Coherent.onlyHolder {s : State} (h : Coherent s) {i j : CallId} {c d : CampaignId}
    {ws w : WebSocket} (hi : s.connects i = some ⟨c, ws, .inFactory⟩)
    (hj : s.connects j = some ⟨d, w, .inFactory⟩) : j = i := by
  have hlock := (h.inFactory j d w hj).1
  rw [(h.inFactory i c ws hi).1] at hlock
  exact (Option.some.inj hlock).symm

theorem Timer.cancel_campaign (tm : Timer) : tm.cancel.campaign = tm.campaign := by
  unfold Timer.cancel
  split <;> rfl

theorem Timer.cancel_of_live {tm : Timer} (h : tm.cancel.live) : tm.cancel = tm := by
  unfold Timer.cancel at h ⊢
  split
  · rename_i harmed
    simp [harmed, Timer.live] at h
  · rfl

/-! ## Steps that leave the dicts alone -/

/-- A call or the end of a call that does not hold the lock. -/
theorem Coherent.setConnect {s : State} (h : Coherent s) {i : CallId} {call : ConnectCall}
    (hold : ∀ c ws, s.connects i ≠ some ⟨c, ws, .inFactory⟩) (hpc : call.pc ≠ .inFactory) :
    Coherent { s with connects := Function.update s.connects i (some call) } :=
  { h with
    holder := by
      intro j hj
      obtain ⟨c, ws, hcall⟩ := h.holder j hj
      have hji : j ≠ i := fun e => hold c ws (e ▸ hcall)
      exact ⟨c, ws, by simpa [hji] using hcall⟩
    inFactory := by
      intro j c ws hj
      rcases update_eq_some.mp hj with ⟨_, hcall⟩ | ⟨_, hcall⟩
      · cases hcall
        exact absurd rfl hpc
      · exact h.inFactory j c ws hcall }

/-- A step of subscribers that leaves their campaigns and cancellations alone. -/
theorem Coherent.setSubs {s : State} (h : Coherent s) {subs : TaskId → Option Subscriber}
    {inbox : WebSocket → List String} {log : List Event}
    (hsubs : ∀ k, (subs k).map (fun sub => (sub.campaign, sub.cancelled)) =
      (s.subs k).map (fun sub => (sub.campaign, sub.cancelled))) :
    Coherent { s with subs := subs, inbox := inbox, log := log } := by
  have hback : ∀ k sub, subs k = some sub →
      ∃ sub', s.subs k = some sub' ∧ sub'.campaign = sub.campaign ∧
        sub'.cancelled = sub.cancelled := by
    intro k sub hk
    have hsame := (hsubs k).symm
    rw [hk] at hsame
    obtain ⟨sub', hsub', heq⟩ := Option.map_eq_some_iff.mp hsame
    exact ⟨sub', hsub', congrArg Prod.fst heq, congrArg Prod.snd heq⟩
  exact { h with
    recorded := by
      intro c k hk
      obtain ⟨sub, hsub, hcamp, hlive⟩ := h.recorded c k hk
      have hsame := hsubs k
      rw [hsub] at hsame
      obtain ⟨sub', hsub', heq⟩ := Option.map_eq_some_iff.mp hsame
      exact ⟨sub', hsub', (congrArg Prod.fst heq).trans hcamp,
        (congrArg Prod.snd heq).trans hlive⟩
    owned := by
      intro k sub hk hlive
      obtain ⟨sub', hsub', hcamp, hcan⟩ := hback k sub hk
      rw [← hcamp]
      exact h.owned k sub' hsub' (hcan.trans hlive)
    taskBound := by
      intro k sub hk
      obtain ⟨sub', hsub', _⟩ := hback k sub hk
      exact h.taskBound k sub' hsub' }

theorem Coherent.setSub {s : State} (h : Coherent s) {k : TaskId} {old sub : Subscriber}
    {inbox : WebSocket → List String} {log : List Event} (hk : s.subs k = some old)
    (hcamp : sub.campaign = old.campaign) (hcan : sub.cancelled = old.cancelled) :
    Coherent { s.setSub k sub with inbox := inbox, log := log } := by
  apply h.setSubs
  intro j
  simp only [State.setSub, Function.update_apply]
  split
  · rename_i hj
    rw [hj, hk]
    simp [hcamp, hcan]
  · rfl

/-! ## The lock sections -/

theorem Coherent.cancelPendingShutdown {s : State} (h : Coherent s) (c : CampaignId) :
    (∀ t tm, s.timers t = some tm → tm.campaign ≠ c →
      (s.cancelPendingShutdown c).timers t = some tm) ∧
    (∀ t tm, (s.cancelPendingShutdown c).timers t = some tm →
      ∃ tm', s.timers t = some tm' ∧ tm.campaign = tm'.campaign ∧ (tm.live → tm = tm')) := by
  constructor
  · intro t tm ht hne
    have hother : s.handles c ≠ some t := by
      intro hc
      obtain ⟨tm', htm', hcamp, _⟩ := h.handle c t hc
      rw [ht] at htm'
      cases htm'
      exact hne hcamp
    simp [State.cancelPendingShutdown, hother, ht]
  · intro t tm ht
    simp only [State.cancelPendingShutdown] at ht
    split at ht
    · obtain ⟨tm', htm', rfl⟩ := Option.map_eq_some_iff.mp ht
      exact ⟨tm', htm', tm'.cancel_campaign, Timer.cancel_of_live⟩
    · exact ⟨tm, ht, rfl, fun _ => rfl⟩

/-- `connect` up to the check of `_tasks`: the client is in, no stop of a
recorded timer is due. -/
theorem Coherent.join {s : State} (h : Coherent s) (hfree : s.lock = none)
    (c : CampaignId) (ws : WebSocket) :
    Coherent ((s.cancelPendingShutdown c).addClient c ws) := by
  obtain ⟨hkeep, hback⟩ := h.cancelPendingShutdown c
  exact { h with
    inFactory := fun i d w hi => absurd hi (h.notInFactory hfree i d w)
    nonempty := by
      intro d conns hd
      rcases update_eq_some.mp hd with ⟨_, hd⟩ | ⟨_, hd⟩
      · cases hd
        exact Finset.insert_ne_empty _ _
      · exact h.nonempty d conns hd
    handle := by
      intro d t hd
      rcases update_eq_some.mp hd with ⟨_, hd⟩ | ⟨hne, hd⟩
      · cases hd
      · obtain ⟨tm, htm, hcamp, hlive⟩ := h.handle d t hd
        exact ⟨tm, hkeep t tm htm (hcamp ▸ hne), hcamp, hlive⟩
    noHandle := by
      intro d hd
      show Function.update s.handles c none d = none
      rw [Function.update_apply]
      split
      · rfl
      · rename_i hne
        rcases update_some_ne_none.mp hd with heq | hd
        · exact absurd heq hne
        · exact h.noHandle d hd
    stoppable := by
      intro d hd hnone
      have hne : d ≠ c := by
        rintro rfl
        simp [State.addClient] at hnone
      have hd' : s.connections d = none := by
        simpa [State.addClient, State.cancelPendingShutdown, hne] using hnone
      obtain ⟨t, tm, htm, hcamp, hlive⟩ := h.stoppable d hd hd'
      exact ⟨t, tm, hkeep t tm htm (hcamp ▸ hne), hcamp, hlive⟩
    timerBound := by
      intro t tm ht
      obtain ⟨tm', htm', _⟩ := hback t tm ht
      exact h.timerBound t tm' htm' }

theorem Coherent.connectSection {s : State} (h : Coherent s) (hfree : s.lock = none)
    {i : CallId} {c : CampaignId} {ws : WebSocket}
    (hi : s.connects i = some ⟨c, ws, .waiting⟩) : Coherent (s.connectSection i c ws) := by
  have hj := h.join hfree c ws
  have hnot : ∀ d w, ((s.cancelPendingShutdown c).addClient c ws).connects i ≠
      some ⟨d, w, .inFactory⟩ := by
    intro d w he
    change s.connects i = _ at he
    rw [hi] at he
    simp at he
  unfold State.connectSection
  cases htask : s.tasks c with
  | some k =>
    simp only [State.addClient, State.cancelPendingShutdown, htask]
    exact hj.setConnect hnot (by simp)
  | none =>
    simp only [State.addClient, State.cancelPendingShutdown, htask]
    exact { hj with
      holder := by
        intro j hlock
        cases hlock
        exact ⟨c, ws, by simp⟩
      inFactory := by
        intro j d w hcall
        rcases update_eq_some.mp hcall with ⟨rfl, heq⟩ | ⟨_, hcall⟩
        · cases heq
          exact ⟨rfl, htask, insert ws ((s.connections c).getD ∅), by simp, by simp⟩
        · exact absurd hcall (h.notInFactory hfree j d w) }

theorem Coherent.factoryReturned {s : State} (h : Coherent s) {i : CallId} {c : CampaignId}
    {ws : WebSocket} (hi : s.connects i = some ⟨c, ws, .inFactory⟩) (backlog : List Frame) :
    Coherent (s.factoryReturned i c ws backlog) := by
  obtain ⟨_, htask, conns, hconns, _⟩ := h.inFactory i c ws hi
  have hfresh : ∀ k sub, s.subs k = some sub → k ≠ s.nextTask :=
    fun k sub hk => Nat.ne_of_lt (h.taskBound k sub hk)
  exact { h with
    holder := by
      intro j hj
      cases hj
    inFactory := by
      intro j d w hj
      rcases update_eq_some.mp hj with ⟨_, hj⟩ | ⟨hne, hj⟩
      · cases hj
      · exact absurd (h.onlyHolder hi hj) hne
    recorded := by
      intro d k hd
      rcases update_eq_some.mp hd with ⟨rfl, heq⟩ | ⟨_, hd⟩
      · cases heq
        exact ⟨⟨d, false, .listening, backlog⟩, by simp [State.factoryReturned], rfl, rfl⟩
      · obtain ⟨sub, hsub, hcamp, hcan⟩ := h.recorded d k hd
        refine ⟨sub, ?_, hcamp, hcan⟩
        simpa [State.factoryReturned, hfresh k sub hsub] using hsub
    owned := by
      intro k sub hk hcan
      rcases update_eq_some.mp hk with ⟨rfl, heq⟩ | ⟨_, hk⟩
      · cases heq
        simp [State.factoryReturned]
      · have hown := h.owned k sub hk hcan
        -- nothing was recorded for `c` until now
        have hne : sub.campaign ≠ c := by
          rintro rfl
          rw [htask] at hown
          cases hown
        simpa [State.factoryReturned, hne] using hown
    stoppable := by
      intro d hd hnone
      rcases update_some_ne_none.mp hd with rfl | hd
      · change s.connections d = none at hnone
        rw [hconns] at hnone
        cases hnone
      · exact h.stoppable d hd hnone
    taskBound := by
      intro k sub hk
      rcases update_eq_some.mp hk with ⟨rfl, _⟩ | ⟨_, hk⟩
      · exact Nat.lt_succ_self _
      · exact Nat.lt_succ_of_lt (h.taskBound k sub hk) }

theorem Coherent.factoryRaised {s : State} (h : Coherent s) {i : CallId} {c : CampaignId}
    {ws : WebSocket} (hi : s.connects i = some ⟨c, ws, .inFactory⟩) :
    Coherent (s.factoryRaised i c ws) :=
  { h with
    holder := by
      intro j hj
      cases hj
    inFactory := by
      intro j d w hj
      rcases update_eq_some.mp hj with ⟨_, hj⟩ | ⟨hne, hj⟩
      · cases hj
      · exact absurd (h.onlyHolder hi hj) hne }

/-- Arming the timer of a campaign whose last client has left. -/
theorem Coherent.scheduleShutdown {s : State} (h : Coherent s) (c : CampaignId)
    (hfree : s.lock = none) (hhandle : s.handles c = none) (log : List Event) :
    Coherent ({ s with connections := Function.update s.connections c none
                       log := log }.scheduleShutdown c) := by
  have hfresh : ∀ t tm, s.timers t = some tm → t ≠ s.nextTimer :=
    fun t tm ht => Nat.ne_of_lt (h.timerBound t tm ht)
  have hkeep : ∀ t tm, s.timers t = some tm →
      Function.update s.timers s.nextTimer (some ⟨c, .armed⟩) t = some tm := by
    intro t tm ht
    rw [Function.update_of_ne (hfresh t tm ht)]
    exact ht
  unfold State.scheduleShutdown
  simp only [hhandle]
  exact { h with
    inFactory := fun i d w hi => absurd hi (h.notInFactory hfree i d w)
    nonempty := by
      intro d conns hd
      rcases update_eq_some.mp hd with ⟨_, hd⟩ | ⟨_, hd⟩
      · cases hd
      · exact h.nonempty d conns hd
    handle := by
      intro d t hd
      rcases update_eq_some.mp hd with ⟨rfl, heq⟩ | ⟨_, hd⟩
      · cases heq
        exact ⟨⟨d, .armed⟩, by simp, rfl, Or.inl rfl⟩
      · obtain ⟨tm, htm, hcamp, hlive⟩ := h.handle d t hd
        exact ⟨tm, hkeep t tm htm, hcamp, hlive⟩
    noHandle := by
      intro d hd
      obtain ⟨hne, hd⟩ := update_none_ne_none.mp hd
      show Function.update s.handles c _ d = none
      rw [Function.update_of_ne hne]
      exact h.noHandle d hd
    stoppable := by
      intro d hd hnone
      by_cases hdc : d = c
      · exact ⟨s.nextTimer, ⟨c, .armed⟩, by simp, hdc.symm, Or.inl rfl⟩
      · have hnone' : s.connections d = none := by
          simpa [hdc] using hnone
        obtain ⟨t, tm, htm, hcamp, hlive⟩ := h.stoppable d hd hnone'
        exact ⟨t, tm, hkeep t tm htm, hcamp, hlive⟩
    timerBound := by
      intro t tm ht
      rcases update_eq_some.mp ht with ⟨rfl, _⟩ | ⟨_, ht⟩
      · exact Nat.lt_succ_self _
      · exact Nat.lt_succ_of_lt (h.timerBound t tm ht) }

theorem Coherent.disconnectSection {s : State} (h : Coherent s) (hfree : s.lock = none)
    (i : CallId) (c : CampaignId) (ws : WebSocket) :
    Coherent (s.disconnectSection i c ws) := by
  have hd : Coherent { s with
      disconnects := Function.update s.disconnects i (some ⟨c, ws, .returned⟩) } := { h with }
  unfold State.disconnectSection
  cases hc : s.connections c with
  | none =>
    simp only [hc]
    exact hd
  | some conns =>
    simp only [hc]
    split
    · exact hd.scheduleShutdown c hfree (h.noHandle c (by simp [hc])) _
    · rename_i hrest
      have hsame : ∀ d, Function.update s.connections c (some (conns.erase ws)) d = none ↔
          s.connections d = none := by
        intro d
        rw [Function.update_apply]
        split
        · rename_i hdc
          simp [hdc, hc]
        · rfl
      exact { hd with
        inFactory := fun j d w hj => absurd hj (h.notInFactory hfree j d w)
        nonempty := by
          intro d conns' hd'
          rcases update_eq_some.mp hd' with ⟨_, hd'⟩ | ⟨_, hd'⟩
          · cases hd'
            exact hrest
          · exact h.nonempty d conns' hd'
        noHandle := fun d hd' => h.noHandle d (fun e => hd' ((hsame d).mpr e))
        stoppable := fun d hd' hnone => h.stoppable d hd' ((hsame d).mp hnone) }

theorem Coherent.fire {s : State} (h : Coherent s) {t : TimerId} {c : CampaignId}
    (ht : s.timers t = some ⟨c, .armed⟩) :
    Coherent { s with timers := Function.update s.timers t (some ⟨c, .fired⟩) } := by
  -- a timer that fires stays live: its stop is pending
  have hlive : ∀ u tm, s.timers u = some tm → tm.live → ∃ tm',
      Function.update s.timers t (some ⟨c, .fired⟩) u = some tm' ∧
        tm'.campaign = tm.campaign ∧ tm'.live := by
    intro u tm hu hl
    by_cases hut : u = t
    · subst hut
      rw [ht] at hu
      cases hu
      exact ⟨⟨c, .fired⟩, by simp, rfl, Or.inr rfl⟩
    · exact ⟨tm, by simpa [hut] using hu, rfl, hl⟩
  exact { h with
    handle := by
      intro d u hd
      obtain ⟨tm, htm, hcamp, hl⟩ := h.handle d u hd
      obtain ⟨tm', htm', hcamp', hl'⟩ := hlive u tm htm hl
      exact ⟨tm', htm', hcamp'.trans hcamp, hl'⟩
    stoppable := by
      intro d hd hnone
      obtain ⟨u, tm, htm, hcamp, hl⟩ := h.stoppable d hd hnone
      obtain ⟨tm', htm', hcamp', hl'⟩ := hlive u tm htm hl
      exact ⟨u, tm', htm', hcamp'.trans hcamp, hl'⟩
    timerBound := by
      intro u tm hu
      rcases update_eq_some.mp hu with ⟨rfl, _⟩ | ⟨_, hu⟩
      · exact h.timerBound u _ ht
      · exact h.timerBound u tm hu }

/-- The fired stop of `t` drops whatever handle is recorded for the campaign,
which has a client or no task. -/
theorem Coherent.endTimer {s : State} (h : Coherent s) {t : TimerId} {c : CampaignId}
    (ht : s.timers t = some ⟨c, .fired⟩) (hidle : s.tasks c = none ∨ s.connections c ≠ none) :
    Coherent { s with
      handles := Function.update s.handles c none
      timers := Function.update s.timers t (some ⟨c, .stopped⟩) } := by
  have hkeep : ∀ u tm, s.timers u = some tm → tm.campaign ≠ c →
      Function.update s.timers t (some ⟨c, .stopped⟩) u = some tm := by
    intro u tm hu hne
    have hut : u ≠ t := by
      rintro rfl
      rw [ht] at hu
      cases hu
      exact hne rfl
    rw [Function.update_of_ne hut]
    exact hu
  exact { h with
    handle := by
      intro d u hd
      rcases update_eq_some.mp hd with ⟨_, hd⟩ | ⟨hne, hd⟩
      · cases hd
      · obtain ⟨tm, htm, hcamp, hlive⟩ := h.handle d u hd
        exact ⟨tm, hkeep u tm htm (hcamp ▸ hne), hcamp, hlive⟩
    noHandle := by
      intro d hd
      show Function.update s.handles c none d = none
      rw [Function.update_apply]
      split
      · rfl
      · exact h.noHandle d hd
    stoppable := by
      intro d hd hnone
      have hne : d ≠ c := by
        rintro rfl
        rcases hidle with htask | hconn
        · exact hd htask
        · exact hconn hnone
      obtain ⟨u, tm, htm, hcamp, hlive⟩ := h.stoppable d hd hnone
      exact ⟨u, tm, hkeep u tm htm (hcamp ▸ hne), hcamp, hlive⟩
    timerBound := by
      intro u tm hu
      rcases update_eq_some.mp hu with ⟨rfl, _⟩ | ⟨_, hu⟩
      · exact h.timerBound u _ ht
      · exact h.timerBound u tm hu }

/-- `self._tasks.pop(c)` and `task.cancel()`. -/
theorem Coherent.dropTask {s : State} (h : Coherent s) (hfree : s.lock = none)
    {c : CampaignId} {k : TaskId} (htask : s.tasks c = some k) (log : List Event) :
    Coherent { s.cancelTask k with
      tasks := Function.update s.tasks c none
      log := log } := by
  obtain ⟨sub, hsub, hcamp, hcan⟩ := h.recorded c k htask
  exact { h with
    inFactory := fun i d ws hi => absurd hi (h.notInFactory hfree i d ws)
    recorded := by
      intro d j hd
      obtain ⟨hne, hd⟩ : d ≠ c ∧ s.tasks d = some j := by
        rcases update_eq_some.mp hd with ⟨_, hd⟩ | hd
        · cases hd
        · exact hd
      obtain ⟨sub', hsub', hcamp', hcan'⟩ := h.recorded d j hd
      -- `k` is recorded for `c` alone
      have hjk : j ≠ k := by
        rintro rfl
        rw [hsub] at hsub'
        cases hsub'
        exact hne (hcamp'.symm.trans hcamp)
      exact ⟨sub', by simpa [State.cancelTask, hjk] using hsub', hcamp', hcan'⟩
    owned := by
      intro j sub' hj hcan'
      simp only [State.cancelTask] at hj
      split at hj
      · obtain ⟨_, _, rfl⟩ := Option.map_eq_some_iff.mp hj
        cases hcan'
      · rename_i hjk
        have hown := h.owned j sub' hj hcan'
        have hne : sub'.campaign ≠ c := by
          rintro heq
          rw [heq, htask] at hown
          exact hjk (Option.some.inj hown).symm
        show Function.update s.tasks c none sub'.campaign = some j
        rw [Function.update_of_ne hne]
        exact hown
    stoppable := by
      intro d hd hnone
      exact h.stoppable d (update_none_ne_none.mp hd).2 hnone
    taskBound := by
      intro j sub' hj
      simp only [State.cancelTask] at hj
      split at hj
      · obtain ⟨old, hold, _⟩ := Option.map_eq_some_iff.mp hj
        exact h.taskBound j old hold
      · exact h.taskBound j sub' hj }

theorem Coherent.maybeStopSubscriber {s : State} (h : Coherent s) (hfree : s.lock = none)
    {t : TimerId} {c : CampaignId} (ht : s.timers t = some ⟨c, .fired⟩) :
    Coherent (s.maybeStopSubscriber t c) := by
  unfold State.maybeStopSubscriber
  simp only
  split
  · rename_i hclient
    exact h.endTimer ht (Or.inr (h.hasClient.mp hclient))
  · cases htask : s.tasks c with
    | none => exact h.endTimer ht (Or.inl htask)
    | some k =>
      have hdrop := h.dropTask hfree htask (.stopped c t k :: s.log)
      exact hdrop.endTimer ht (Or.inl (Function.update_self _ _ _))

theorem Coherent.shutdownSection {s : State} (h : Coherent s) :
    Coherent s.shutdownSection :=
  { h with
    inFactory := by
      intro i c ws hi
      obtain ⟨hlock, _, hconn⟩ := h.inFactory i c ws hi
      exact ⟨hlock, rfl, hconn⟩
    recorded := by
      intro c k hk
      cases hk
    owned := by
      intro k sub hk hcan
      obtain ⟨old, hold, rfl⟩ := Option.map_eq_some_iff.mp hk
      split at hcan
      · cases hcan
      · rename_i hnot
        exact absurd (h.owned k old hold hcan) hnot
    handle := by
      intro c t ht
      cases ht
    noHandle := fun _ _ => rfl
    stoppable := fun c hc _ => absurd rfl hc
    taskBound := by
      intro k sub hk
      obtain ⟨old, hold, _⟩ := Option.map_eq_some_iff.mp hk
      exact h.taskBound k old hold
    timerBound := by
      intro t tm ht
      obtain ⟨old, hold, _⟩ := Option.map_eq_some_iff.mp ht
      exact h.timerBound t old hold }

/-! ## Every action -/

theorem Coherent.step {s s' : State} {a : Action} (h : Coherent s)
    (hs : step s a = some s') : Coherent s' := by
  cases a with
  | callConnect i c ws =>
    obtain ⟨hi, rfl⟩ := step_callConnect.mp hs
    exact h.setConnect (by simp [hi]) (by simp)
  | callDisconnect i c ws =>
    obtain ⟨_, rfl⟩ := step_callDisconnect.mp hs
    exact { h with }
  | enter i =>
    obtain ⟨c, ws, hfree, hi, rfl⟩ := step_enter.mp hs
    exact h.connectSection hfree hi
  | factoryReturns i backlog =>
    obtain ⟨c, ws, hi, rfl⟩ := step_factoryReturns.mp hs
    exact h.factoryReturned hi backlog
  | factoryRaises i =>
    obtain ⟨c, ws, hi, rfl⟩ := step_factoryRaises.mp hs
    exact h.factoryRaised hi
  | cancelConnect i =>
    rcases step_cancelConnect.mp hs with ⟨c, ws, hi, rfl⟩ | ⟨c, ws, hi, rfl⟩
    · exact h.factoryRaised hi
    · exact h.setConnect (by simp [hi]) (by simp)
  | leave i =>
    obtain ⟨c, ws, hfree, _, rfl⟩ := step_leave.mp hs
    exact h.disconnectSection hfree i c ws
  | cancelDisconnect i =>
    obtain ⟨c, ws, _, rfl⟩ := step_cancelDisconnect.mp hs
    exact { h with }
  | fire t =>
    obtain ⟨c, ht, rfl⟩ := step_fire.mp hs
    exact h.fire ht
  | stop t =>
    obtain ⟨c, hfree, ht, rfl⟩ := step_stop.mp hs
    exact h.maybeStopSubscriber hfree ht
  | publish channel f =>
    cases hs
    apply h.setSubs
    intro k
    rw [Option.map_map]
    congr 1
    funext sub
    simp only [Function.comp]
    split <;> rfl
  | read k targets =>
    obtain ⟨c, f, queue, hk, hcase⟩ := step_read.mp hs
    rcases hcase with ⟨_, rfl⟩ | ⟨_, _, rfl⟩ | ⟨message, _, _, _, _, rfl⟩
    · exact h.setSub hk rfl rfl
    · exact h.setSub hk rfl rfl
    · exact h.setSub hk rfl rfl
  | send k ok =>
    obtain ⟨c, message, ws, rest, queue, hk, rfl⟩ := step_send.mp hs
    cases ok <;> exact h.setSub hk rfl rfl
  | die k =>
    obtain ⟨c, queue, hk, rfl⟩ := step_die.mp hs
    exact h.setSub hk rfl rfl
  | unwind k =>
    obtain ⟨c, pc, queue, hk, _, rfl⟩ := step_unwind.mp hs
    exact h.setSub hk rfl rfl
  | shutdown =>
    obtain ⟨_, rfl⟩ := step_shutdown.mp hs
    exact h.shutdownSection
  | awaitTask =>
    obtain ⟨k, ks, sub, _, _, _, rfl⟩ := step_awaitTask.mp hs
    exact { h with }

/-- Every reachable state is coherent. -/
theorem coherent_of_exec {s : State} {as : List Action}
    (h : exec step State.init as = some s) : Coherent s :=
  exec_of_step (I := Coherent) (fun _ _ _ hi hs => hi.step hs) coherent_init h

end IsalesApi.Ws
