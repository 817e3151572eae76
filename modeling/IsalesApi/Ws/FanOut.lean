import IsalesApi.Ws.Handlers
import IsalesApi.Ws.Stream

/-!
# What a client receives

`fan_out` sends one text to a snapshot of the clients, one `send_text` after
another. While a client stays registered, what it has received followed by what
is in flight to it grows exactly by the texts whose fan-out starts
(`fan_out_in_order`). A text still in flight when the client leaves may or may
not reach it, so what it received and what was started can differ by the last
text (`left_in_flight`).
-/

namespace IsalesApi.Ws

open Foundation

/-- What the subscriber recorded for `c` is doing. -/
def running (s : State) (c : CampaignId) : Option RunPc :=
  (s.tasks c).bind fun k => (s.subs k).map Subscriber.pc

/-- The text the subscriber of `c` is still to send to `ws`. -/
def inFlight (s : State) (c : CampaignId) (ws : WebSocket) : List String :=
  match running s c with
  | some (.sending message targets) => if ws ∈ targets then [message] else []
  | _ => []

theorem inFlight_congr {s t : State} {c : CampaignId} (h : running t c = running s c)
    (ws : WebSocket) : inFlight t c ws = inFlight s c ws := by
  unfold inFlight
  rw [h]

theorem running_update (s t : State) {k : TaskId} {sub : Subscriber}
    (htasks : t.tasks = s.tasks) (hsubs : t.subs = Function.update s.subs k (some sub))
    (c : CampaignId) :
    running t c = if s.tasks c = some k then some sub.pc else running s c := by
  unfold running
  rw [htasks, hsubs]
  cases hc : s.tasks c with
  | none => simp
  | some j =>
    by_cases hjk : j = k
    · subst hjk
      simp
    · simp [hjk]

theorem running_setSub (s : State) (k : TaskId) (sub : Subscriber) (c : CampaignId) :
    running (s.setSub k sub) c = if s.tasks c = some k then some sub.pc else running s c :=
  running_update s (s.setSub k sub) rfl rfl c

theorem running_startFanOut (s : State) (k : TaskId) (sub : Subscriber) (message : String)
    (targets : List WebSocket) (c : CampaignId) :
    running (s.startFanOut k sub message targets) c = if s.tasks c = some k then
      some (if targets = [] then .listening else .sending message targets) else running s c :=
  running_update s (s.startFanOut k sub message targets) rfl rfl c

theorem running_sendReturned (s : State) (k : TaskId) (sub : Subscriber) (message : String)
    (ws : WebSocket) (rest : List WebSocket) (ok : Bool) (c : CampaignId) :
    running (s.sendReturned k sub message ws rest ok) c = if s.tasks c = some k then
      some (if rest = [] then .listening else .sending message rest) else running s c := by
  cases ok with
  | true => exact running_update s (s.sendReturned k sub message ws rest true) rfl rfl c
  | false => exact running_update s (s.sendReturned k sub message ws rest false) rfl rfl c

/-- From `s` to `t`, `ws` received the texts `received` and fan-outs on `c`
started for the texts `news`, all of them by the subscriber recorded at `t`. -/
structure Delivered (c : CampaignId) (ws : WebSocket) (s t : State)
    (received news : List String) : Prop where
  inbox : t.inbox ws = s.inbox ws ++ received
  started : startedTexts c t.log = startedTexts c s.log ++ news
  exact : inFlight s c ws ++ news = received ++ inFlight t c ws
  byTask : ∀ k, startedBy c k t.log =
    startedBy c k s.log ++ if t.tasks c = some k then news else []
  idle : t.tasks c = none → news = []
  kept : ∀ k, s.tasks c = some k → t.tasks c = some k

theorem Delivered.refl (c : CampaignId) (ws : WebSocket) (s : State) :
    Delivered c ws s s [] [] := by
  constructor <;> simp

theorem Delivered.trans {c : CampaignId} {ws : WebSocket} {s m t : State}
    {r₁ r₂ n₁ n₂ : List String} (h₁ : Delivered c ws s m r₁ n₁)
    (h₂ : Delivered c ws m t r₂ n₂) : Delivered c ws s t (r₁ ++ r₂) (n₁ ++ n₂) where
  inbox := by rw [h₂.inbox, h₁.inbox, List.append_assoc]
  started := by rw [h₂.started, h₁.started, List.append_assoc]
  exact := by
    calc inFlight s c ws ++ (n₁ ++ n₂)
        = (inFlight s c ws ++ n₁) ++ n₂ := (List.append_assoc _ _ _).symm
      _ = r₁ ++ (inFlight m c ws ++ n₂) := by rw [h₁.exact, List.append_assoc]
      _ = (r₁ ++ r₂) ++ inFlight t c ws := by rw [h₂.exact, List.append_assoc]
  byTask := by
    intro k
    rw [h₂.byTask, h₁.byTask]
    cases hm : m.tasks c with
    | none => simp [h₁.idle hm]
    | some j =>
      rw [h₂.kept j hm]
      split <;> simp
  idle := by
    intro hnone
    have hm : m.tasks c = none := by
      by_contra hne
      obtain ⟨k, hk⟩ := Option.ne_none_iff_exists'.mp hne
      rw [h₂.kept k hk] at hnone
      cases hnone
    rw [h₁.idle hm, h₂.idle hnone, List.append_nil]
  kept := fun k hk => h₂.kept k (h₁.kept k hk)

/-- A step in which nothing is started on `c` and nothing received by `ws`. -/
theorem Delivered.of_same {c : CampaignId} {ws : WebSocket} {s t : State}
    (hinbox : t.inbox ws = s.inbox ws) (hrun : inFlight t c ws = inFlight s c ws)
    (hlog : startedTexts c t.log = startedTexts c s.log ∧
      ∀ k, startedBy c k t.log = startedBy c k s.log)
    (hkept : ∀ k, s.tasks c = some k → t.tasks c = some k) : Delivered c ws s t [] [] := by
  refine ⟨by simp [hinbox], by simp [hlog.1], by simp [hrun], ?_, fun _ => rfl, hkept⟩
  intro k
  simp [hlog.2]

/-! ### What a step of a task delivers -/

/-- A task that nobody has cancelled is recorded for its campaign only. -/
theorem Coherent.recorded_iff {m : State} (h : Coherent m) {k : TaskId} {sub : Subscriber}
    (hk : m.subs k = some sub) (hcan : sub.cancelled = false) (c : CampaignId) :
    m.tasks c = some k ↔ sub.campaign = c := by
  constructor
  · intro htk
    obtain ⟨sub', hsub', hcamp, _⟩ := h.recorded c k htk
    rw [hk] at hsub'
    cases hsub'
    exact hcamp
  · rintro rfl
    exact h.owned k sub hk hcan

theorem running_of_recorded {m : State} {c : CampaignId} {k : TaskId} {sub : Subscriber}
    (htk : m.tasks c = some k) (hk : m.subs k = some sub) : running m c = some sub.pc := by
  simp [running, htk, hk]

theorem inFlight_sending {m : State} {c : CampaignId} {message : String}
    {targets : List WebSocket} (h : running m c = some (.sending message targets))
    (ws : WebSocket) : inFlight m c ws = if ws ∈ targets then [message] else [] := by
  unfold inFlight
  rw [h]

theorem inFlight_eq_nil {m : State} {c : CampaignId}
    (h : ∀ message targets, running m c ≠ some (.sending message targets)) (ws : WebSocket) :
    inFlight m c ws = [] := by
  unfold inFlight
  split
  · rename_i message targets hsend
    exact absurd hsend (h message targets)
  · rfl

/-- A fan-out that is done with its last target is in flight to nobody. -/
theorem inFlight_rest {m : State} {c : CampaignId} {message : String} {rest : List WebSocket}
    (h : running m c = some (if rest = [] then .listening else .sending message rest))
    (ws : WebSocket) : inFlight m c ws = if ws ∈ rest then [message] else [] := by
  by_cases hrest : rest = []
  · subst hrest
    rw [if_pos rfl] at h
    exact inFlight_eq_nil (by simp [h]) ws
  · rw [if_neg hrest] at h
    exact inFlight_sending h ws

/-- A step of a task of `c` that sends nothing, before or after. -/
theorem inFlight_setSub {m : State} {k : TaskId} {old sub : Subscriber} {c : CampaignId}
    (hk : m.subs k = some old)
    (hpc : m.tasks c = some k →
      (∀ x ts, old.pc ≠ .sending x ts) ∧ ∀ x ts, sub.pc ≠ .sending x ts) (ws : WebSocket) :
    inFlight (m.setSub k sub) c ws = inFlight m c ws := by
  have hset := running_setSub m k sub c
  by_cases htk : m.tasks c = some k
  · obtain ⟨hold, hnew⟩ := hpc htk
    rw [if_pos htk] at hset
    have hbefore : inFlight m c ws = [] := by
      refine inFlight_eq_nil (fun x ts => ?_) ws
      rw [running_of_recorded htk hk]
      exact fun h => hold x ts (Option.some.inj h)
    rw [hbefore]
    refine inFlight_eq_nil (fun x ts => ?_) ws
    rw [hset]
    exact fun h => hnew x ts (Option.some.inj h)
  · rw [if_neg htk] at hset
    exact inFlight_congr hset ws

/-- A rewriting of the tasks that keeps what each of them is doing. -/
theorem running_of_pc {m m' : State} {c : CampaignId} (htasks : m'.tasks c = m.tasks c)
    (hpc : ∀ k, (m'.subs k).map Subscriber.pc = (m.subs k).map Subscriber.pc) :
    running m' c = running m c := by
  unfold running
  rw [htasks]
  congr 1
  funext k
  exact hpc k

theorem Delivered.silent {c : CampaignId} {ws : WebSocket} {m m' : State} {es : List Event}
    (hes : ∀ e ∈ es, e.silent) (hlog : m'.log = es ++ m.log) (hinbox : m'.inbox = m.inbox)
    (htasks : m'.tasks c = m.tasks c) (hrun : running m' c = running m c) :
    Delivered c ws m m' [] [] := by
  refine .of_same (congrFun hinbox ws) (inFlight_congr hrun ws) ⟨?_, fun k => ?_⟩ ?_
  · rw [hlog, (silent_append hes m.log c 0).2.2]
  · rw [hlog, (silent_append hes m.log c k).2.1]
  · exact fun k hk => by rw [htasks]; exact hk

/-- A new task is recorded for a campaign that had none. -/
theorem Delivered.created {c : CampaignId} {ws : WebSocket} {m : State} (hcoh : Coherent m)
    {i : CallId} {d : CampaignId} {w : WebSocket} (hi : m.connects i = some ⟨d, w, .inFactory⟩)
    (backlog : List Frame) : Delivered c ws m (m.factoryReturned i d w backlog) [] [] := by
  obtain ⟨_, hempty, _⟩ := hcoh.inFactory i d w hi
  refine .of_same rfl ?_ ⟨rfl, fun _ => rfl⟩ ?_
  · by_cases hdc : d = c
    · subst hdc
      simp [inFlight, running, State.factoryReturned, hempty]
    · refine inFlight_congr ?_ ws
      simp only [running, State.factoryReturned, Function.update_of_ne (Ne.symm hdc)]
      cases htk : m.tasks c with
      | none => rfl
      | some k =>
        obtain ⟨sub, hsub, _⟩ := hcoh.recorded c k htk
        have hne : k ≠ m.nextTask := Nat.ne_of_lt (hcoh.taskBound k sub hsub)
        simp [hne]
  · intro k hk
    have hdc : c ≠ d := by
      rintro rfl
      rw [hempty] at hk
      cases hk
    simpa [State.factoryReturned, hdc] using hk

/-- The subscriber of `c` starts a fan-out, of which `ws` is a target. -/
theorem Delivered.startedHere {c : CampaignId} {ws : WebSocket} {m : State} {k : TaskId}
    {queue : List Frame} {message : String} {targets : List WebSocket}
    (htk : m.tasks c = some k) (hrun : running m c = some .listening) (hin : ws ∈ targets) :
    Delivered c ws m (m.startFanOut k ⟨c, false, .listening, queue⟩ message targets)
      [] [message] := by
  have hne : targets ≠ [] := List.ne_nil_of_mem hin
  refine ⟨by simp [State.startFanOut, State.setSub], ?_, ?_, ?_, ?_, fun _ hk => hk⟩
  · simp [State.startFanOut, startedTexts]
  · have hbefore : inFlight m c ws = [] := inFlight_eq_nil (by simp [hrun]) ws
    have hafter : inFlight (m.startFanOut k ⟨c, false, .listening, queue⟩ message targets)
        c ws = [message] := by
      have hset := running_startFanOut m k ⟨c, false, .listening, queue⟩ message targets c
      rw [if_pos htk, if_neg hne] at hset
      rw [inFlight_sending hset, if_pos hin]
    rw [hbefore, hafter]
  · intro j
    simp only [State.startFanOut, State.setSub, startedBy, htk, true_and, Option.some.injEq]
  · intro hidle
    change m.tasks c = none at hidle
    rw [htk] at hidle
    cases hidle

/-- The subscriber of another campaign starts a fan-out. -/
theorem Delivered.startedElsewhere {c d : CampaignId} {ws : WebSocket} {m : State} {k : TaskId}
    {queue : List Frame} {message : String} {targets : List WebSocket}
    (htk : m.tasks c ≠ some k) (hdc : d ≠ c) :
    Delivered c ws m (m.startFanOut k ⟨d, false, .listening, queue⟩ message targets) [] [] := by
  refine .of_same rfl (inFlight_congr ?_ ws) ⟨?_, fun j => ?_⟩ (fun _ hk => hk)
  · rw [running_startFanOut, if_neg htk]
  · simp [State.startFanOut, startedTexts, hdc]
  · simp [State.startFanOut, startedBy, hdc]

/-- The text in flight reaches `ws`, which is not among the targets left. -/
theorem Delivered.sent {c : CampaignId} {ws : WebSocket} {m : State} {k : TaskId}
    {queue : List Frame} {message : String} {rest : List WebSocket} (htk : m.tasks c = some k)
    (hrun : running m c = some (.sending message (ws :: rest))) (hout : ws ∉ rest) :
    Delivered c ws m (m.sendReturned k ⟨c, false, .listening, queue⟩ message ws rest true)
      [message] [] := by
  refine ⟨by simp [State.sendReturned, State.setSub], by simp
    [State.sendReturned, State.setSub], ?_, by simp [State.sendReturned, State.setSub],
    fun _ => rfl, fun _ hk => hk⟩
  have hset := running_sendReturned m k ⟨c, false, .listening, queue⟩ message ws rest true c
  rw [if_pos htk] at hset
  rw [inFlight_sending hrun, inFlight_rest hset, if_pos List.mem_cons_self, if_neg hout]

/-- A `send_text` to another client ends. -/
theorem Delivered.sentElsewhere {c d : CampaignId} {ws w : WebSocket} {m : State} {k : TaskId}
    {queue : List Frame} {message : String} {rest : List WebSocket} (hw : ws ≠ w)
    (hrun : m.tasks c = some k → running m c = some (.sending message (w :: rest))) (ok : Bool) :
    Delivered c ws m (m.sendReturned k ⟨d, false, .listening, queue⟩ message w rest ok) [] [] := by
  have hset := running_sendReturned m k ⟨d, false, .listening, queue⟩ message w rest ok c
  refine .of_same ?_ ?_ ?_ ?_
  · cases ok <;> simp [State.sendReturned, State.setSub, hw]
  · by_cases htk : m.tasks c = some k
    · rw [if_pos htk] at hset
      rw [inFlight_rest hset, inFlight_sending (hrun htk)]
      simp [hw]
    · rw [if_neg htk] at hset
      exact inFlight_congr hset ws
  · cases ok <;> exact ⟨rfl, fun _ => rfl⟩
  · cases ok <;> exact fun _ hk => hk

/-- **One step.** `ws` is a client of `c` and nobody else's target. -/
theorem deliver_step {m m' : State} {a : Action} {c : CampaignId} {ws : WebSocket}
    (hcoh : Coherent m) (hs : step m a = some m') (hreg : Registered m c ws)
    (hshut : a ≠ .shutdown)
    (hown : ∀ k sub message rest, a = .send k false → m.subs k = some sub →
      sub.pc ≠ .sending message (ws :: rest))
    (htarget : ∀ k sub message targets, m.subs k = some sub →
      sub.pc = .sending message targets → targets.Nodup ∧ (ws ∈ targets → sub.campaign = c)) :
    ∃ received news, Delivered c ws m m' received news := by
  obtain ⟨conns, hconns, hmem⟩ := hreg
  cases subStep hcoh hs with
  | same es hsubs htasks hnext hinbox hlog hes =>
    have hrun : running m' c = running m c := by simp only [running, htasks, hsubs]
    exact ⟨[], [], .silent hes hlog hinbox (congrFun htasks c) hrun⟩
  | cancelled p es hsubs htasks hnext hinbox hlog hes =>
    -- `c` has a client, so its task stays
    have hsame : m'.tasks c = m.tasks c := by
      rcases htasks c with heq | ⟨_, hempty | hact⟩
      · exact heq
      · rw [hconns] at hempty
        cases hempty
      · exact absurd hact hshut
    refine ⟨[], [], .silent hes hlog hinbox hsame (running_of_pc hsame fun k => ?_)⟩
    rw [hsubs, Option.map_map]
    congr 1
    funext sub
    simp only [Function.comp]
    split <;> rfl
  | created i d w backlog hi heq =>
    subst heq
    exact ⟨[], [], .created hcoh hi backlog⟩
  | published channel f heq =>
    subst heq
    have hrun : running (m.publish channel f) c = running m c := by
      refine running_of_pc rfl fun k => ?_
      simp only [State.publish, Option.map_map]
      congr 1
      funext sub
      simp only [Function.comp]
      split <;> rfl
    exact ⟨[], [], .of_same rfl (inFlight_congr hrun ws) ⟨rfl, fun _ => rfl⟩ (fun _ hk => hk)⟩
  | skipped k d f queue pc hk hf hpc heq =>
    subst heq
    refine ⟨[], [], .of_same rfl (inFlight_setSub hk (fun _ => ⟨by simp, ?_⟩) ws)
      ⟨rfl, fun _ => rfl⟩ (fun _ hk => hk)⟩
    rcases hpc with rfl | rfl <;> simp
  | ended k sub hk hsub heq =>
    subst heq
    refine ⟨[], [], .of_same rfl (inFlight_setSub hk (fun htk => ⟨?_, by simp⟩) ws)
      ⟨rfl, fun _ => rfl⟩ (fun _ hk => hk)⟩
    rcases hsub with hcan | hpc
    · obtain ⟨sub', hsub', _, hlive⟩ := hcoh.recorded c k htk
      rw [hk] at hsub'
      cases hsub'
      rw [hcan] at hlive
      cases hlive
    · simp [hpc]
  | started k d f queue message targets hk hf hnodup htargets heq =>
    subst heq
    have htask := hcoh.recorded_iff hk rfl c
    by_cases hdc : d = c
    · subst hdc
      have htk := htask.mpr rfl
      have hin : ws ∈ targets := by
        rw [← List.mem_toFinset, htargets, hconns]
        exact hmem
      exact ⟨[], [message], .startedHere htk (running_of_recorded htk hk) hin⟩
    · exact ⟨[], [], .startedElsewhere (fun h => hdc (htask.mp h)) hdc⟩
  | sent k d message w rest queue ok ha hk heq =>
    subst heq
    obtain ⟨hnodup, hcamp⟩ := htarget k _ message (w :: rest) hk rfl
    by_cases hw : ws = w
    · subst hw
      obtain rfl : d = c := hcamp List.mem_cons_self
      have htk := (hcoh.recorded_iff hk rfl d).mpr rfl
      have hok : ok = true := by
        cases ok with
        | true => rfl
        | false => exact absurd rfl (hown k _ message rest ha hk)
      subst hok
      exact ⟨[message], [], .sent htk (running_of_recorded htk hk) (List.nodup_cons.mp hnodup).1⟩
    · exact ⟨[], [], .sentElsewhere hw (fun htk => running_of_recorded htk hk) ok⟩

/-! ## Targets and inboxes in runs of the handlers -/

/-- The `connect` of `ws` to `c` got the lock at some time. -/
def Entered (m : State) (c : CampaignId) (ws : WebSocket) : Prop :=
  ∃ pc, m.connects ws = some ⟨c, ws, pc⟩ ∧ pc ≠ .waiting

theorem Entered.unique {m : State} {c d : CampaignId} {ws : WebSocket} (hc : Entered m c ws)
    (hd : Entered m d ws) : c = d := by
  obtain ⟨pc, hpc, _⟩ := hc
  obtain ⟨pc', hpc', _⟩ := hd
  rw [hpc] at hpc'
  cases hpc'
  rfl

theorem Entered.manager {m m' : State} {a : Action} {c : CampaignId} {ws : WebSocket}
    (h : Entered m c ws) (hs : ClientStep m a m') : Entered m' c ws := by
  obtain ⟨pc, hws, hpc⟩ := h
  -- a call that is past the lock only goes on to its end
  have hset : ∀ i d w pc₀ pc₁, m.connects i = some ⟨d, w, pc₀⟩ → pc₁ ≠ .waiting →
      m'.connects = Function.update m.connects i (some ⟨d, w, pc₁⟩) → Entered m' c ws := by
    intro i d w pc₀ pc₁ hi hpc₁ hcon
    by_cases hwi : ws = i
    · subst hwi
      rw [hws] at hi
      cases hi
      exact ⟨pc₁, by rw [hcon, Function.update_self], hpc₁⟩
    · exact ⟨pc, by rw [hcon, Function.update_of_ne hwi, hws], hpc⟩
  cases hs with
  | same hok hcon hdis hreg => exact ⟨pc, by rw [hcon, hws], hpc⟩
  | joined i d w pc' ha hok hi hpc' hcon hdis hreg =>
    refine hset i d w _ pc' hi ?_ hcon
    rcases hpc' with rfl | rfl <;> simp
  | connected i d w hok hi hcon hdis hreg => exact hset i d w _ _ hi (by simp) hcon
  | failed i d w hbad hi hcon hdis hreg => exact hset i d w _ _ hi (by simp) hcon
  | refused i d w hok hi hcon hdis hreg => exact hset i d w _ _ hi (by simp) hcon
  | left i d w hok hi hcon hdis hreg => exact ⟨pc, by rw [hcon, hws], hpc⟩
  | abandoned i d w hbad hi hcon hdis hreg => exact ⟨pc, by rw [hcon, hws], hpc⟩

theorem Entered.step {s s' : Route} {a : RouteAction} {c : CampaignId} {ws : WebSocket}
    (h : Entered s.manager c ws) (hs : s.step a = some s') : Entered s'.manager c ws := by
  cases a with
  | arrive w d admission =>
    obtain ⟨_, hcase⟩ := step_arrive hs
    rcases hcase with ⟨code, rfl⟩ | ⟨m, hm, rfl⟩
    · exact h
    · obtain ⟨hnone, rfl⟩ := step_callConnect.mp hm
      obtain ⟨pc, hws, hpc⟩ := h
      have hne : ws ≠ w := by
        rintro rfl
        rw [hnone] at hws
        cases hws
      exact ⟨pc, by simpa [hne] using hws, hpc⟩
  | hangup w =>
    obtain ⟨d, code, m, _, hm, rfl⟩ := step_hangup hs
    obtain ⟨_, rfl⟩ := step_callDisconnect.mp hm
    exact h
  | manager a =>
    obtain ⟨m, hcall, hm, rfl⟩ := step_manager hs
    exact h.manager (clientStep hcall hm)

theorem SubStep.log_suffix {m m' : State} {a : Action} (hs : SubStep m a m') :
    m.log <:+ m'.log := by
  cases hs with
  | same es hsubs htasks hnext hinbox hlog hes => exact hlog ▸ List.suffix_append es m.log
  | cancelled p es hsubs htasks hnext hinbox hlog hes => exact hlog ▸ List.suffix_append es m.log
  | created i c ws backlog hi heq => exact heq ▸ List.suffix_cons _ _
  | published channel f heq => exact heq ▸ List.suffix_cons _ _
  | skipped k c f queue pc hk hf hpc heq => exact heq ▸ List.suffix_rfl
  | ended k sub hk hsub heq => exact heq ▸ List.suffix_rfl
  | started k c f queue message targets hk hf hnodup htargets heq =>
    exact heq ▸ List.suffix_cons _ _
  | sent k c message ws rest queue ok ha hk heq =>
    subst heq
    cases ok with
    | true => exact List.suffix_rfl
    | false => exact List.suffix_cons _ _

/-- Clients, targets and received texts belong to WebSockets that have entered,
on the campaign they entered. -/
structure Addressed (s : Route) : Prop where
  routed : Routed s
  client : ∀ c ws, Registered s.manager c ws → Entered s.manager c ws
  target : ∀ k sub message targets, s.manager.subs k = some sub →
    sub.pc = .sending message targets → targets.Nodup ∧
      .started sub.campaign k message ∈ s.manager.log ∧
      ∀ ws ∈ targets, Entered s.manager sub.campaign ws
  text : ∀ ws message, message ∈ s.manager.inbox ws →
    ∃ c k, Entered s.manager c ws ∧ .started c k message ∈ s.manager.log

theorem addressed_init : Addressed Route.init := by
  refine ⟨routed_init, ?_, ?_, ?_⟩ <;> simp [Route.init, State.init, Registered]

/-- A step that touches neither the tasks nor the inboxes. -/
theorem Addressed.of_same {s s' : Route} {a : RouteAction} (h : Addressed s)
    (hs : s.step a = some s') (hsubs : s'.manager.subs = s.manager.subs)
    (hinbox : s'.manager.inbox = s.manager.inbox) (hlog : s.manager.log <:+ s'.manager.log)
    (hreg : ∀ c ws, Registered s'.manager c ws → Registered s.manager c ws) : Addressed s' where
  routed := h.routed.step hs
  client := fun c ws hr => (h.client c ws (hreg c ws hr)).step hs
  target := by
    intro k sub message targets hk hpc
    obtain ⟨hnodup, hstarted, hall⟩ := h.target k sub message targets (hsubs ▸ hk) hpc
    exact ⟨hnodup, hlog.mem hstarted, fun ws hws => (hall ws hws).step hs⟩
  text := by
    intro ws message hm
    obtain ⟨c, k, hent, hstarted⟩ := h.text ws message (hinbox ▸ hm)
    exact ⟨c, k, hent.step hs, hlog.mem hstarted⟩

/-- What task `k` is still to send goes, once each, to WebSockets that entered
on its campaign, and its fan-out has started. -/
def Aimed (m : State) (k : TaskId) (sub : Subscriber) : Prop :=
  ∀ message targets, sub.pc = .sending message targets → targets.Nodup ∧
    .started sub.campaign k message ∈ m.log ∧ ∀ ws ∈ targets, Entered m sub.campaign ws

theorem Aimed.idle {m : State} {k : TaskId} {sub : Subscriber}
    (hpc : ∀ message targets, sub.pc ≠ .sending message targets) : Aimed m k sub :=
  fun message targets h => absurd h (hpc message targets)

theorem Aimed.of_pc {m : State} {k : TaskId} {sub sub' : Subscriber} (h : Aimed m k sub)
    (hcamp : sub'.campaign = sub.campaign) (hpc : sub'.pc = sub.pc) : Aimed m k sub' := by
  intro message targets hsend
  rw [hcamp]
  exact h message targets (hpc ▸ hsend)

/-- The targets that are left of a fan-out. -/
theorem Aimed.rest {m : State} {k : TaskId} {c : CampaignId} {cancelled : Bool}
    {queue : List Frame} {message : String} {targets : List WebSocket} (hnodup : targets.Nodup)
    (hstarted : .started c k message ∈ m.log) (hent : ∀ ws ∈ targets, Entered m c ws) :
    Aimed m k
      ⟨c, cancelled, if targets = [] then .listening else .sending message targets, queue⟩ := by
  intro x ts hpc
  have hx : message = x ∧ targets = ts := by
    by_cases hnil : targets = []
    · simp [hnil] at hpc
    · simpa [hnil] using hpc
  obtain ⟨rfl, rfl⟩ := hx
  exact ⟨hnodup, hstarted, hent⟩

theorem aimed_update {m m' : State} {k : TaskId} {sub : Subscriber}
    (hsubs : m'.subs = Function.update m.subs k (some sub)) (hnew : Aimed m' k sub)
    (hold : ∀ j old, m.subs j = some old → Aimed m' j old) :
    ∀ j sub', m'.subs j = some sub' → Aimed m' j sub' := by
  intro j sub' hj
  rw [hsubs] at hj
  rcases update_eq_some.mp hj with ⟨rfl, heq⟩ | ⟨_, hj⟩
  · cases heq
    exact hnew
  · exact hold j sub' hj

/-- A step keeps the tasks aimed: the targets of a new fan-out are clients. -/
theorem SubStep.aimed {m m' : State} {a : Action} (hs : SubStep m a m')
    (hclient : ∀ c ws, Registered m c ws → Entered m' c ws)
    (hold : ∀ k sub, m.subs k = some sub → Aimed m' k sub) :
    ∀ k sub, m'.subs k = some sub → Aimed m' k sub := by
  cases hs with
  | same es hsubs htasks hnext hinbox hlog hes =>
    intro k sub hk
    rw [hsubs] at hk
    exact hold k sub hk
  | cancelled p es hsubs htasks hnext hinbox hlog hes =>
    intro k sub hk
    rw [hsubs] at hk
    obtain ⟨old, hk', rfl⟩ := Option.map_eq_some_iff.mp hk
    refine (hold k old hk').of_pc ?_ ?_
    · split <;> rfl
    · split <;> rfl
  | created i c ws backlog hi heq =>
    exact aimed_update (by rw [heq]; rfl) (.idle (by simp)) hold
  | published channel f heq =>
    intro k sub hk
    rw [heq] at hk
    obtain ⟨old, hk', rfl⟩ := Option.map_eq_some_iff.mp hk
    refine (hold k old hk').of_pc ?_ ?_
    · split <;> rfl
    · split <;> rfl
  | skipped k c f queue pc hk hf hpc heq =>
    refine aimed_update (by rw [heq]; rfl) (.idle ?_) hold
    rcases hpc with rfl | rfl <;> simp
  | ended k sub hk hsub heq =>
    exact aimed_update (by rw [heq]; rfl) (.idle (by simp)) hold
  | started k c f queue message targets hk hf hnodup htargets heq =>
    refine aimed_update (by rw [heq]; rfl) (.rest hnodup ?_ ?_) hold
    · rw [heq]
      exact List.mem_cons_self
    · intro ws hws
      refine hclient c ws ?_
      rw [← List.mem_toFinset, htargets] at hws
      cases hconn : m.connections c with
      | none => simp [hconn] at hws
      | some conns => exact ⟨conns, hconn, by simpa [hconn] using hws⟩
  | sent k c message ws rest queue ok ha hk heq =>
    obtain ⟨hnodup, hstarted, hall⟩ := hold k _ hk message (ws :: rest) rfl
    exact aimed_update (by rw [heq]; cases ok <;> rfl)
      (.rest (List.nodup_cons.mp hnodup).2 hstarted fun w hw => hall w (List.mem_cons_of_mem _ hw))
      hold

/-- A text in an inbox was there before or is the one being sent. -/
theorem SubStep.received {m m' : State} {a : Action} (hs : SubStep m a m') {ws : WebSocket}
    {message : String} (hmem : message ∈ m'.inbox ws) :
    message ∈ m.inbox ws ∨ ∃ k sub rest, m.subs k = some sub ∧
      sub.pc = .sending message (ws :: rest) := by
  cases hs with
  | same es hsubs htasks hnext hinbox hlog hes => exact Or.inl (hinbox ▸ hmem)
  | cancelled p es hsubs htasks hnext hinbox hlog hes => exact Or.inl (hinbox ▸ hmem)
  | created i c w backlog hi heq =>
    subst heq
    exact Or.inl hmem
  | published channel f heq =>
    subst heq
    exact Or.inl hmem
  | skipped k c f queue pc hk hf hpc heq =>
    subst heq
    exact Or.inl hmem
  | ended k sub hk hsub heq =>
    subst heq
    exact Or.inl hmem
  | started k c f queue x targets hk hf hnodup htargets heq =>
    subst heq
    exact Or.inl hmem
  | sent k c x w rest queue ok ha hk heq =>
    subst heq
    cases ok with
    | false => exact Or.inl hmem
    | true =>
      by_cases hw : ws = w
      · subst hw
        have hor : message ∈ m.inbox ws ∨ message = x := by
          simpa [State.sendReturned, State.setSub] using hmem
        rcases hor with hmem | rfl
        · exact Or.inl hmem
        · exact Or.inr ⟨k, _, rest, hk, rfl⟩
      · exact Or.inl (by simpa [State.sendReturned, State.setSub, hw] using hmem)

/-- A client that a step registers has entered by this step. -/
theorem Addressed.entered {s : Route} (h : Addressed s) {m : State} {a : Action}
    (hs : ClientStep s.manager a m) {c : CampaignId} {ws : WebSocket}
    (hr : Registered m c ws) : Entered m c ws := by
  have hkept : Registered s.manager c ws → Entered m c ws :=
    fun hr => (h.client c ws hr).manager hs
  cases hs with
  | joined i d w pc ha hok hi hpc hcon hdis hreg =>
    rcases (hreg c ws).mp hr with hr | ⟨rfl, rfl⟩
    · exact hkept hr
    · obtain rfl : ws = i := (h.routed.connects i _ hi).1
      refine ⟨pc, by rw [hcon, Function.update_self], ?_⟩
      rcases hpc with rfl | rfl <;> simp
  | same hok hcon hdis hreg => exact hkept ((hreg c ws).mp hr)
  | connected i d w hok hi hcon hdis hreg => exact hkept ((hreg c ws).mp hr)
  | failed i d w hbad hi hcon hdis hreg => exact hkept ((hreg c ws).mp hr)
  | refused i d w hok hi hcon hdis hreg => exact hkept ((hreg c ws).mp hr)
  | left i d w hok hi hcon hdis hreg => exact hkept ((hreg c ws).mp hr).1
  | abandoned i d w hbad hi hcon hdis hreg => exact hkept ((hreg c ws).mp hr)

theorem Addressed.manager {s : Route} {m : State} {a : Action} (h : Addressed s)
    (hcall : a.call = false) (hm : Ws.step s.manager a = some m)
    (hs : s.step (.manager a) = some ⟨m, fun ws => (s.handlers ws).map (Handler.resume m ws)⟩) :
    Addressed ⟨m, fun ws => (s.handlers ws).map (Handler.resume m ws)⟩ := by
  have hclient := clientStep hcall hm
  have hsub := subStep h.routed.coherent hm
  have hlog := hsub.log_suffix
  have hold : ∀ k sub, s.manager.subs k = some sub → Aimed m k sub := by
    intro k sub hk message targets hpc
    obtain ⟨hnodup, hstarted, hall⟩ := h.target k sub message targets hk hpc
    exact ⟨hnodup, hlog.mem hstarted, fun ws hws => (hall ws hws).manager hclient⟩
  have haimed := hsub.aimed (fun c ws hr => (h.client c ws hr).manager hclient) hold
  refine ⟨h.routed.step hs, fun c ws hr => h.entered hclient hr, ?_, ?_⟩
  · exact fun k sub message targets hk hpc => haimed k sub hk message targets hpc
  · intro ws message hmem
    rcases hsub.received hmem with hmem | ⟨k, sub, rest, hk, hpc⟩
    · obtain ⟨c, k, he, hstarted⟩ := h.text ws message hmem
      exact ⟨c, k, he.manager hclient, hlog.mem hstarted⟩
    · obtain ⟨_, hstarted, hall⟩ := hold k sub hk message (ws :: rest) hpc
      exact ⟨sub.campaign, k, hall ws List.mem_cons_self, hstarted⟩

theorem Addressed.step {s s' : Route} {a : RouteAction} (h : Addressed s)
    (hs : s.step a = some s') : Addressed s' := by
  cases a with
  | arrive ws c admission =>
    obtain ⟨_, hcase⟩ := step_arrive hs
    rcases hcase with ⟨code, rfl⟩ | ⟨m, hm, rfl⟩
    · exact h.of_same hs rfl rfl List.suffix_rfl (fun _ _ hr => hr)
    · obtain ⟨_, rfl⟩ := step_callConnect.mp hm
      exact h.of_same hs rfl rfl List.suffix_rfl (fun _ _ hr => hr)
  | hangup ws =>
    obtain ⟨c, code, m, _, hm, rfl⟩ := step_hangup hs
    obtain ⟨_, rfl⟩ := step_callDisconnect.mp hm
    exact h.of_same hs rfl rfl List.suffix_rfl (fun _ _ hr => hr)
  | manager a =>
    obtain ⟨m, hcall, hm, rfl⟩ := step_manager hs
    exact h.manager hcall hm hs

theorem addressed_of_exec {s : Route} {as : List RouteAction}
    (h : exec Route.step Route.init as = some s) : Addressed s :=
  exec_of_step (I := Addressed) (fun _ _ _ hi hs => hi.step hs) addressed_init h

theorem streamed_of_route {s : Route} {as : List RouteAction}
    (h : exec Route.step Route.init as = some s) : Streamed s.manager := by
  refine exec_of_step (I := fun r => Streamed r.manager) ?_ streamed_init h
  intro r a r' hr hs
  cases a with
  | arrive ws c admission =>
    obtain ⟨_, hcase⟩ := step_arrive hs
    rcases hcase with ⟨code, rfl⟩ | ⟨m, hm, rfl⟩
    · exact hr
    · exact hr.step hm
  | hangup ws =>
    obtain ⟨c, code, m, _, hm, rfl⟩ := step_hangup hs
    exact hr.step hm
  | manager a =>
    obtain ⟨m, _, hm, rfl⟩ := step_manager hs
    exact hr.step hm

/-- `send_text` to `ws` does not raise in this step. -/
def SendSucceeds (ws : WebSocket) (s : Route) : RouteAction → Prop
  | .manager (.send k false) => ∀ sub message rest, s.manager.subs k = some sub →
      sub.pc ≠ .sending message (ws :: rest)
  | _ => True

/-- The interval rule: what was received and what was started while `ws` was
registered on `c`. -/
theorem delivered_of_exec {s t : Route} {as : List RouteAction} {c : CampaignId}
    {ws : WebSocket} (h : Addressed s) (hrun : exec Route.step s as = some t)
    (hreg : Always Route.step (fun r => Registered r.manager c ws) s as)
    (halive : Along Route.step (fun _ a => a ≠ .manager .shutdown) s as)
    (hsends : Along Route.step (SendSucceeds ws) s as) :
    ∃ received news, Delivered c ws s.manager t.manager received news := by
  induction as generalizing s with
  | nil =>
    cases hrun
    exact ⟨[], [], .refl c ws _⟩
  | cons a as ih =>
    obtain ⟨m, hm, hrest⟩ := exec_cons.mp hrun
    obtain ⟨r₂, n₂, h₂⟩ := ih (h.step hm) hrest (hreg.2 m hm) (halive m hm).2 (hsends m hm).2
    have h₁ : ∃ r₁ n₁, Delivered c ws s.manager m.manager r₁ n₁ := by
      cases a with
      | arrive w d admission =>
        obtain ⟨_, hcase⟩ := step_arrive hm
        rcases hcase with ⟨code, rfl⟩ | ⟨m', hm', rfl⟩
        · exact ⟨[], [], .refl c ws s.manager⟩
        · obtain ⟨_, rfl⟩ := step_callConnect.mp hm'
          exact ⟨[], [], .of_same rfl rfl ⟨rfl, fun _ => rfl⟩ (fun _ hk => hk)⟩
      | hangup w =>
        obtain ⟨d, code, m', _, hm', rfl⟩ := step_hangup hm
        obtain ⟨_, rfl⟩ := step_callDisconnect.mp hm'
        exact ⟨[], [], .of_same rfl rfl ⟨rfl, fun _ => rfl⟩ (fun _ hk => hk)⟩
      | manager a =>
        -- `ws` has entered on `c`, so only fan-outs of `c` can have it as a target
        obtain ⟨m', _, hm', rfl⟩ := step_manager hm
        have hent := h.client c ws hreg.head
        refine deliver_step h.routed.coherent hm' hreg.head ?_ ?_ ?_
        · rintro rfl
          exact (halive _ hm).1 rfl
        · rintro k sub message rest rfl hk
          exact (hsends _ hm).1 sub message rest hk
        · intro k sub message targets hk hpc
          obtain ⟨hnodup, _, hall⟩ := h.target k sub message targets hk hpc
          exact ⟨hnodup, fun hws => (hall ws hws).unique hent⟩
    obtain ⟨r₁, n₁, h₁⟩ := h₁
    exact ⟨r₁ ++ r₂, n₁ ++ n₂, h₁.trans h₂⟩

/-- The step that registers `ws` finds nothing in flight to it and its inbox
empty. -/
theorem Addressed.joined_clean {s s' : Route} {a : RouteAction} (h : Addressed s)
    (hs : s.step a = some s') {c : CampaignId} {ws : WebSocket}
    (hout : ¬ Registered s.manager c ws) (hin : Registered s'.manager c ws) :
    inFlight s'.manager c ws = [] ∧ s'.manager.inbox ws = [] := by
  cases a with
  | arrive w d admission =>
    obtain ⟨_, hcase⟩ := step_arrive hs
    rcases hcase with ⟨code, rfl⟩ | ⟨m, hm, rfl⟩
    · exact absurd hin hout
    · obtain ⟨_, rfl⟩ := step_callConnect.mp hm
      exact absurd hin hout
  | hangup w =>
    obtain ⟨d, code, m, _, hm, rfl⟩ := step_hangup hs
    obtain ⟨_, rfl⟩ := step_callDisconnect.mp hm
    exact absurd hin hout
  | manager a =>
    obtain ⟨m, hcall, hm, rfl⟩ := step_manager hs
    cases clientStep hcall hm with
    | same hok hcon hdis hreg => exact absurd ((hreg c ws).mp hin) hout
    | connected i d w hok hi hcon hdis hreg => exact absurd ((hreg c ws).mp hin) hout
    | failed i d w hbad hi hcon hdis hreg => exact absurd ((hreg c ws).mp hin) hout
    | refused i d w hok hi hcon hdis hreg => exact absurd ((hreg c ws).mp hin) hout
    | left i d w hok hi hcon hdis hreg => exact absurd ((hreg c ws).mp hin).1 hout
    | abandoned i d w hbad hi hcon hdis hreg => exact absurd ((hreg c ws).mp hin) hout
    | joined i d w pc ha hok hi hpc hcon hdis hreg =>
      obtain ⟨rfl, rfl⟩ := ((hreg c ws).mp hin).resolve_left hout
      obtain rfl : ws = i := (h.routed.connects i _ hi).1
      subst ha
      -- the call was waiting until now, so nobody has written to `ws`
      have hnot : ∀ d, ¬ Entered s.manager d ws := by
        rintro d ⟨pc', hpc', hne⟩
        rw [hi] at hpc'
        cases hpc'
        exact hne rfl
      obtain ⟨d, w, _, hi', rfl⟩ := step_enter.mp hm
      rw [hi] at hi'
      cases hi'
      have hrunning : running (s.manager.connectSection ws c ws) c = running s.manager c := by
        simp [running]
      constructor
      · show inFlight (s.manager.connectSection ws c ws) c ws = []
        rw [inFlight_congr hrunning]
        unfold inFlight
        split
        · rename_i message targets hsend
          obtain ⟨k, hk, hsub⟩ := Option.bind_eq_some_iff.mp hsend
          obtain ⟨sub, hsub, hpc'⟩ := Option.map_eq_some_iff.mp hsub
          rw [if_neg]
          intro hmem
          exact hnot _ ((h.target k sub message targets hsub hpc').2.2 ws hmem)
        · rfl
      · show (s.manager.connectSection ws c ws).inbox ws = []
        rw [connectSection_inbox, List.eq_nil_iff_forall_not_mem]
        intro message hmem
        obtain ⟨d, k, hent, _⟩ := h.text ws message hmem
        exact hnot d hent

/-- **In order, exactly once.** Over an interval in which `ws` is registered on
`c`, its sends succeed and `shutdown()` is not called: the texts in flight to
`ws` at the start and those whose fan-out on `c` starts are, in order and each
once, the texts `ws` receives and those in flight at the end. Those that start
are the next payloads of the stream of the subscriber of `c`. Nothing is in
flight when `ws` registers, and all it has ever received was fanned out on `c`. -/
theorem fan_out_in_order {before as : List RouteAction} {s t : Route} {c : CampaignId}
    {ws : WebSocket} (hbefore : exec Route.step Route.init before = some s)
    (hrun : exec Route.step s as = some t)
    (hreg : Always Route.step (fun r => Registered r.manager c ws) s as)
    (halive : Along Route.step (fun _ a => a ≠ .manager .shutdown) s as)
    (hsends : Along Route.step (SendSucceeds ws) s as) :
    (∃ received news, Delivered c ws s.manager t.manager received news ∧
      ∀ k, t.manager.tasks c = some k →
        ∃ sub fs, t.manager.subs k = some sub ∧ stream c k t.manager.log = some fs ∧
          payloads fs = startedBy c k s.manager.log ++ news ++ payloads sub.queue) ∧
    (∀ first a r, before = first ++ [a] → exec Route.step Route.init first = some r →
      ¬ Registered r.manager c ws → inFlight s.manager c ws = [] ∧ s.manager.inbox ws = []) ∧
    ∀ message ∈ t.manager.inbox ws, ∃ k, .started c k message ∈ t.manager.log := by
  have hs : Addressed s := addressed_of_exec hbefore
  have ht : Addressed t := addressed_of_exec (exec_append.mpr ⟨s, hbefore, hrun⟩)
  have hstream : Streamed t.manager := streamed_of_route (exec_append.mpr ⟨s, hbefore, hrun⟩)
  refine ⟨?_, ?_, ?_⟩
  · obtain ⟨received, news, h⟩ := delivered_of_exec hs hrun hreg halive hsends
    refine ⟨received, news, h, ?_⟩
    intro k hk
    obtain ⟨sub, hsub, rfl, _⟩ := ht.routed.coherent.recorded c k hk
    obtain ⟨fs, hfs, hpay⟩ := hstream.taken k sub hsub
    refine ⟨sub, fs, hsub, hfs, ?_⟩
    rw [hpay, h.byTask, if_pos hk]
  · rintro first a r rfl hr hout
    obtain ⟨m, hm, hlast⟩ := exec_append.mp hbefore
    rw [hr] at hm
    cases hm
    obtain ⟨m, hm, hnil⟩ := exec_cons.mp hlast
    cases hnil
    exact (addressed_of_exec hr).joined_clean hm hout hreg.head
  · intro message hmem
    obtain ⟨d, k, hent, hstarted⟩ := ht.text ws message hmem
    obtain rfl := hent.unique (ht.client c ws (hreg.last hrun))
    exact ⟨k, hstarted⟩

/-- Client 10 of campaign 1 is connected and its subscriber runs. -/
def oneClient : List RouteAction :=
  [.arrive 10 1 .admitted, .manager (.enter 10), .manager (.factoryReturns 10 [])]

/-- A message comes in and is sent to client 10. -/
def oneMessage : List RouteAction :=
  [.manager (.publish (channelFor 1) ⟨"message", .str "hello"⟩), .manager (.read 0 [10]),
    .manager (.send 0 true)]

theorem fan_out_in_order_oneMessage :
    ∃ s t, exec Route.step Route.init oneClient = some s ∧
      exec Route.step s oneMessage = some t ∧
      ∃ received news, Delivered 1 10 s.manager t.manager received news ∧
        received = ["hello"] := by
  have halive : ∀ a ∈ oneMessage, ∀ _ : Route, a ≠ .manager .shutdown := by simp [oneMessage]
  have hsends : ∀ a ∈ oneMessage, ∀ s, SendSucceeds 10 s a := by
    simp [oneMessage, SendSucceeds]
  refine ⟨_, _, rfl, rfl, ?_⟩
  obtain ⟨received, news, h, _⟩ := (@fan_out_in_order oneClient oneMessage _ _ 1 10 rfl rfl
    ⟨⟨_, rfl, by decide⟩, fun s₁ h₁ => by
      cases h₁
      refine ⟨⟨_, rfl, by decide⟩, fun s₂ h₂ => ?_⟩
      cases h₂
      refine ⟨⟨_, rfl, by decide⟩, fun s₃ h₃ => ?_⟩
      cases h₃
      exact ⟨_, rfl, by decide⟩⟩
    (Along.of_mem halive _) (Along.of_mem hsends _)).1
  exact ⟨received, news, h, h.inbox.symm⟩

/-- The message is being sent when the client hangs up and is deregistered. -/
def leftDuringSend : List RouteAction :=
  [.manager (.publish (channelFor 1) ⟨"message", .str "hello"⟩), .manager (.read 0 [10]),
    .hangup 10]

/-- Client 10 is registered from `s` to `t` and no longer in the next step: its
fan-out has started and nothing was received. -/
theorem left_in_flight :
    ∃ s t u, exec Route.step Route.init oneClient = some s ∧
      exec Route.step s leftDuringSend = some t ∧ Route.step t (.manager (.leave 10)) = some u ∧
      Always Route.step (fun r => Registered r.manager 1 10) s leftDuringSend ∧
      Along Route.step (fun _ a => a ≠ .manager .shutdown) s leftDuringSend ∧
      Along Route.step (SendSucceeds 10) s leftDuringSend ∧ ¬ Registered u.manager 1 10 ∧
      ¬ ∃ texts, t.manager.inbox 10 = s.manager.inbox 10 ++ texts ∧
        startedTexts 1 t.manager.log = startedTexts 1 s.manager.log ++ texts := by
  have halive : ∀ a ∈ leftDuringSend, ∀ _ : Route, a ≠ .manager .shutdown := by
    simp [leftDuringSend]
  have hsends : ∀ a ∈ leftDuringSend, ∀ s, SendSucceeds 10 s a := by
    simp [leftDuringSend, SendSucceeds]
  refine ⟨_, _, _, rfl, rfl, rfl, ?_, Along.of_mem halive _, Along.of_mem hsends _, ?_, ?_⟩
  · refine ⟨⟨_, rfl, by decide⟩, fun s₁ h₁ => ?_⟩
    cases h₁
    refine ⟨⟨_, rfl, by decide⟩, fun s₂ h₂ => ?_⟩
    cases h₂
    refine ⟨⟨_, rfl, by decide⟩, fun s₃ h₃ => ?_⟩
    cases h₃
    exact ⟨_, rfl, by decide⟩
  · rintro ⟨conns, hconns, _⟩
    cases hconns
  · rintro ⟨texts, hinbox, hstarted⟩
    have hnone : [] = texts := hinbox
    have hone : ["hello"] = texts := hstarted
    rw [← hnone] at hone
    cases hone

end IsalesApi.Ws
