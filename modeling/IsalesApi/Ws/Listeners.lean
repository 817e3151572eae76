import IsalesApi.Auth.Login
import IsalesApi.Ws.FanOut

/-!
# Who hears the events of a campaign

`ws_calls` reads the token of a WebSocket before it calls the manager. Over any
run of the app, a text that reaches a WebSocket has come in on the channel of the
campaign it asked for, and its token was that of a login or of an edge device.
-/

namespace IsalesApi.Ws

open Foundation Auth

variable {Token : Type}

/-- A WebSocket with its path, its query and the time. -/
structure Arrival (Token : Type) where
  ws : WebSocket
  campaign : CampaignId
  token : Option Token
  now : Int
  managed : Bool  -- there is an `app.state.ws_manager`

/-- `ws_calls` before it calls the manager. -/
def Arrival.admission (jwt : Jwt Token) (env : Option String) (a : Arrival Token) : Admission :=
  match verifyTokenOrNone jwt env a.now a.token with
  | none => .unauthorized
  | some _ => if a.managed then .admitted else .unavailable

inductive GateAction (Token : Type) where
  | arrive (a : Arrival Token)
  | hangup (ws : WebSocket)
  | manager (a : Action)

/-- What the handlers and the manager see of it. -/
def GateAction.route (jwt : Jwt Token) (env : Option String) : GateAction Token → RouteAction
  | .arrive a => .arrive a.ws a.campaign (a.admission jwt env)
  | .hangup ws => .hangup ws
  | .manager a => .manager a

/-! ## Where a text comes from -/

/-- The frame came in for the campaign: before the task of a subscription began,
or on the channel. -/
def Incoming (log : List Event) (c : CampaignId) (f : Frame) : Prop :=
  (∃ k backlog, .subscribed c k backlog ∈ log ∧ f ∈ backlog) ∨
    .published (channelFor c) f ∈ log

theorem Incoming.mono {log log' : List Event} {c : CampaignId} {f : Frame}
    (h : Incoming log c f) (hlog : log <:+ log') : Incoming log' c f := by
  rcases h with ⟨k, backlog, hmem, hf⟩ | hmem
  · exact Or.inl ⟨k, backlog, hlog.mem hmem, hf⟩
  · exact Or.inr (hlog.mem hmem)

/-- What is queued or fanned out has come in for the campaign. -/
structure Sourced (s : State) : Prop where
  coherent : Coherent s
  queue : ∀ k sub, s.subs k = some sub → ∀ f ∈ sub.queue, Incoming s.log sub.campaign f
  started : ∀ c k text, .started c k text ∈ s.log →
    ∃ f, f.payload = some text ∧ Incoming s.log c f

theorem sourced_init : Sourced State.init :=
  ⟨coherent_init, by simp [State.init], by simp [State.init]⟩

/-- A task whose queue got no longer, while no fan-out started. -/
theorem Sourced.setSub {s s' : State} (h : Sourced s) (hcoh : Coherent s') {k : TaskId}
    {old sub : Subscriber} (hk : s.subs k = some old)
    (hsubs : s'.subs = Function.update s.subs k (some sub)) (hlog : s.log <:+ s'.log)
    (hcamp : sub.campaign = old.campaign) (hqueue : ∀ f ∈ sub.queue, f ∈ old.queue)
    (hstarted : ∀ c j text, .started c j text ∈ s'.log →
      ∃ f, f.payload = some text ∧ Incoming s.log c f) : Sourced s' where
  coherent := hcoh
  queue := by
    intro j sub' hj f hf
    rw [hsubs] at hj
    rcases update_eq_some.mp hj with ⟨_, heq⟩ | ⟨_, hj⟩
    · cases heq
      rw [hcamp]
      exact (h.queue k old hk f (hqueue f hf)).mono hlog
    · exact (h.queue j sub' hj f hf).mono hlog
  started := by
    intro c j text hmem
    obtain ⟨f, hf, hin⟩ := hstarted c j text hmem
    exact ⟨f, hf, hin.mono hlog⟩

/-- Silent events tell of no fan-out. -/
theorem Sourced.started_silent {s : State} (h : Sourced s) {es : List Event}
    (hes : ∀ e ∈ es, e.silent) {c : CampaignId} {k : TaskId} {text : String}
    (hmem : .started c k text ∈ es ++ s.log) : ∃ f, f.payload = some text ∧ Incoming s.log c f := by
  rcases List.mem_append.mp hmem with hmem | hmem
  · cases hes _ hmem
  · exact h.started c k text hmem

theorem Sourced.step {s s' : State} {a : Action} (h : Sourced s) (hs : step s a = some s') :
    Sourced s' := by
  have hcoh := h.coherent.step hs
  have hsub := subStep h.coherent hs
  have hlog := hsub.log_suffix
  cases hsub with
  | same es hsubs htasks hnext hinbox heq hes =>
    refine ⟨hcoh, fun k sub hk f hf => ?_, fun c k text hmem => ?_⟩
    · exact (h.queue k sub (hsubs ▸ hk) f hf).mono hlog
    · obtain ⟨f, hf, hin⟩ := h.started_silent hes (heq ▸ hmem)
      exact ⟨f, hf, hin.mono hlog⟩
  | cancelled p es hsubs htasks hnext hinbox heq hes =>
    refine ⟨hcoh, fun k sub hk f hf => ?_, fun c k text hmem => ?_⟩
    · rw [hsubs] at hk
      obtain ⟨old, hold, rfl⟩ := Option.map_eq_some_iff.mp hk
      have hin := fun hf => (h.queue k old hold f hf).mono hlog
      -- a task keeps its queue when it is cancelled
      by_cases hp : p k
      · simp only [hp, if_true] at hf ⊢
        exact hin hf
      · simp only [hp, Bool.false_eq_true, if_false] at hf ⊢
        exact hin hf
    · obtain ⟨f, hf, hin⟩ := h.started_silent hes (heq ▸ hmem)
      exact ⟨f, hf, hin.mono hlog⟩
  | created i c ws backlog hi heq =>
    subst heq
    refine ⟨hcoh, fun k sub hk f hf => ?_, fun d k text hmem => ?_⟩
    · rcases update_eq_some.mp hk with ⟨rfl, heq⟩ | ⟨_, hk⟩
      · cases heq
        exact Or.inl ⟨_, backlog, List.mem_cons_self, hf⟩
      · exact (h.queue k sub hk f hf).mono hlog
    · rcases List.mem_cons.mp hmem with heq | hmem
      · cases heq
      · obtain ⟨f, hf, hin⟩ := h.started d k text hmem
        exact ⟨f, hf, hin.mono hlog⟩
  | published channel f heq =>
    subst heq
    refine ⟨hcoh, fun k sub hk g hg => ?_, fun d k text hmem => ?_⟩
    · obtain ⟨old, hold, rfl⟩ := Option.map_eq_some_iff.mp hk
      have hin := fun hg => (h.queue k old hold g hg).mono hlog
      -- the frame joins the queues of its channel only
      by_cases hchannel : channelFor old.campaign = channel
      · simp only [hchannel, if_true, List.mem_append, List.mem_singleton] at hg ⊢
        rcases hg with hg | rfl
        · exact hin hg
        · exact Or.inr (hchannel ▸ List.mem_cons_self)
      · simp only [hchannel, if_false] at hg ⊢
        exact hin hg
    · rcases List.mem_cons.mp hmem with heq | hmem
      · cases heq
      · obtain ⟨f, hf, hin⟩ := h.started d k text hmem
        exact ⟨f, hf, hin.mono hlog⟩
  | skipped k c f queue pc hk hf hpc heq =>
    subst heq
    exact h.setSub hcoh hk rfl hlog rfl (fun g hg => List.mem_cons_of_mem f hg) h.started
  | ended k sub hk hsub heq =>
    subst heq
    exact h.setSub hcoh hk rfl hlog rfl (fun g hg => hg) h.started
  | started k c f queue message targets hk hf hnodup htargets heq =>
    subst heq
    refine h.setSub hcoh hk rfl hlog rfl (fun g hg => List.mem_cons_of_mem f hg) ?_
    intro d j text hmem
    -- the text is the payload of the first frame of the queue
    rcases List.mem_cons.mp hmem with heq | hmem
    · cases heq
      exact ⟨f, hf, h.queue k _ hk f List.mem_cons_self⟩
    · exact h.started d j text hmem
  | sent k c message ws rest queue ok ha hk heq =>
    subst heq
    cases ok with
    | true => exact h.setSub hcoh hk rfl hlog rfl (fun g hg => hg) h.started
    | false =>
      refine h.setSub hcoh hk rfl hlog rfl (fun g hg => hg) fun d j text hmem => ?_
      rcases List.mem_cons.mp hmem with heq | hmem
      · cases heq
      · exact h.started d j text hmem

/-! ## Who is let in -/

/-- Only an admitted arrival calls `connect`. -/
theorem called_by_arrival {s t : Route} {as : List RouteAction}
    (h : exec Route.step s as = some t) {ws : WebSocket} {call : ConnectCall}
    (hcall : t.manager.connects ws = some call) :
    (∃ old, s.manager.connects ws = some old ∧ old.campaign = call.campaign) ∨
      .arrive ws call.campaign .admitted ∈ as := by
  induction as generalizing s with
  | nil =>
    cases h
    exact Or.inl ⟨call, hcall, rfl⟩
  | cons a as ih =>
    obtain ⟨m, hm, hrun⟩ := exec_cons.mp h
    rcases ih hrun with ⟨old, hold, hcamp⟩ | hmem
    · cases a with
      | arrive w c admission =>
        simp only [Route.step] at hm
        split at hm
        · cases hm
          exact Or.inl ⟨old, hold, hcamp⟩
        · cases hm
          exact Or.inl ⟨old, hold, hcamp⟩
        · obtain ⟨m', hm', rfl⟩ := Option.map_eq_some_iff.mp hm
          obtain ⟨_, rfl⟩ := step_callConnect.mp hm'
          rcases update_eq_some.mp hold with ⟨rfl, heq⟩ | ⟨_, hold⟩
          · cases heq
            exact Or.inr (by simp [← hcamp])
          · exact Or.inl ⟨old, hold, hcamp⟩
        · cases hm
      | hangup w =>
        obtain ⟨c, code, m', _, hm', rfl⟩ := step_hangup hm
        obtain ⟨_, rfl⟩ := step_callDisconnect.mp hm'
        exact Or.inl ⟨old, hold, hcamp⟩
      | manager a =>
        obtain ⟨m', hcall, hm', rfl⟩ := step_manager hm
        obtain ⟨first, hfirst, _, hcamp'⟩ := (clientStep hcall hm').connects hold
        exact Or.inl ⟨first, hfirst, hcamp'.trans hcamp⟩
    · exact Or.inr (List.mem_cons_of_mem a hmem)

/-- The manager never hears of a WebSocket that the handler has closed itself. -/
structure Unheard (s : Route) : Prop where
  routed : Routed s
  closed : ∀ ws h, s.handlers ws = some h → h.closeCode ≠ none → s.manager.connects ws = none

theorem unheard_init : Unheard Route.init :=
  ⟨routed_init, by simp [Route.init]⟩

@[simp] theorem Handler.resume_closeCode (m : State) (ws : WebSocket) (h : Handler) :
    (h.resume m ws).closeCode = h.closeCode := by
  unfold Handler.resume
  split
  · split <;> rfl
  · split <;> rfl
  · rfl

theorem Unheard.step {s s' : Route} {a : RouteAction} (h : Unheard s) (hs : s.step a = some s') :
    Unheard s' := by
  refine ⟨h.routed.step hs, fun ws g hg hclosed => ?_⟩
  cases a with
  | arrive w c admission =>
    obtain ⟨hnone, ⟨code, rfl⟩ | ⟨m, hm, rfl⟩⟩ := step_arrive hs
    · rcases update_eq_some.mp hg with ⟨rfl, _⟩ | ⟨_, hg⟩
      · -- every call is made by a handler
        cases hcall : s.manager.connects ws with
        | none => rfl
        | some call =>
          obtain ⟨_, g', hg', _⟩ := h.routed.connects ws call hcall
          rw [hnone] at hg'
          cases hg'
      · exact h.closed ws g hg hclosed
    · obtain ⟨_, rfl⟩ := step_callConnect.mp hm
      rcases update_eq_some.mp hg with ⟨_, heq⟩ | ⟨hne, hg⟩
      · cases heq
        exact absurd rfl hclosed
      · show Function.update s.manager.connects w _ ws = none
        rw [Function.update_of_ne hne]
        exact h.closed ws g hg hclosed
  | hangup w =>
    obtain ⟨c, code, m, hw, hm, rfl⟩ := step_hangup hs
    obtain ⟨_, rfl⟩ := step_callDisconnect.mp hm
    rcases update_eq_some.mp hg with ⟨rfl, heq⟩ | ⟨_, hg⟩
    · cases heq
      exact h.closed ws _ hw hclosed
    · exact h.closed ws g hg hclosed
  | manager a =>
    obtain ⟨m, hcall, hm, rfl⟩ := step_manager hs
    obtain ⟨old, hold, rfl⟩ := Option.map_eq_some_iff.mp hg
    rw [Handler.resume_closeCode] at hclosed
    -- the manager's own steps make no calls
    have hnone := h.closed ws old hold hclosed
    cases hnew : m.connects ws with
    | none => rfl
    | some call =>
      obtain ⟨first, hfirst, _⟩ := (clientStep hcall hm).connects hnew
      rw [hnone] at hfirst
      cases hfirst

theorem admission_admitted {jwt : Jwt Token} {env : Option String} {a : Arrival Token}
    (h : a.admission jwt env = .admitted) :
    ∃ token c, a.token = some token ∧ currentUser jwt env a.now token = .ok c := by
  unfold Arrival.admission at h
  cases hv : verifyTokenOrNone jwt env a.now a.token with
  | none =>
    rw [hv] at h
    cases h
  | some c =>
    obtain ⟨token, s, htoken, hs, hverify⟩ := verify_of_verifyTokenOrNone hv
    exact ⟨token, c, htoken, currentUser_ok.mpr ⟨s, hs, hverify⟩⟩

/-- **Only who was let in hears a campaign.** Every text in an inbox has come in
for the campaign that the WebSocket asked for, with a token that a login or the
edge command has handed out and that was still good; a WebSocket that was closed
with a code is no client and has heard nothing. -/
theorem heard_by_granted (jwt : Jwt Token) (hjwt : jwt.Checks)
    (checkpw : String → String → Except CheckError Bool) (env : Environ)
    (events : List Auth.Event) (as : List (GateAction Token))
    (hforge : ∀ a, .arrive a ∈ as → ∀ token, a.token = some token →
      Unforgeable jwt env.jwtSecret (signings jwt checkpw env events) token)
    {s : Route}
    (h : exec Route.step Route.init (as.map (GateAction.route jwt env.jwtSecret)) = some s) :
    (∀ ws text, text ∈ s.manager.inbox ws → ∃ a, .arrive a ∈ as ∧ a.ws = ws ∧
      (∃ token c, a.token = some token ∧ Granted jwt checkpw env events token a.now c) ∧
      ∃ f, f.payload = some text ∧ Incoming s.manager.log a.campaign f) ∧
    ∀ ws g code, s.handlers ws = some g → g.closeCode = some code →
      s.manager.inbox ws = [] ∧ ∀ c, ¬ Registered s.manager c ws := by
  -- a text is addressed to a call of the WebSocket, and calls are made by arrivals
  have haddressed := addressed_of_exec h
  have hunheard : Unheard s :=
    exec_of_step (I := Unheard) (fun _ _ _ hi hs => hi.step hs) unheard_init h
  have hsourced : Sourced s.manager := by
    refine exec_of_step (I := fun r => Sourced r.manager) (fun r a r' hr hs => ?_) sourced_init h
    cases a with
    | arrive ws c admission =>
      obtain ⟨_, ⟨code, rfl⟩ | ⟨m, hm, rfl⟩⟩ := step_arrive hs
      · exact hr
      · exact hr.step hm
    | hangup ws =>
      obtain ⟨c, code, m, _, hm, rfl⟩ := step_hangup hs
      exact hr.step hm
    | manager a =>
      obtain ⟨m, _, hm, rfl⟩ := step_manager hs
      exact hr.step hm
  refine ⟨fun ws text hmem => ?_, fun ws g code hg hcode => ?_⟩
  · obtain ⟨c, k, ⟨pc, hcall, _⟩, hstarted⟩ := haddressed.text ws text hmem
    obtain ⟨f, hf, hin⟩ := hsourced.started c k text hstarted
    rcases called_by_arrival h hcall with ⟨old, hold, _⟩ | harrive
    · cases hold
    · obtain ⟨b, hb, hroute⟩ := List.mem_map.mp harrive
      cases b with
      | arrive a =>
        injection hroute with hws hcampaign hadmitted
        obtain ⟨token, claims, htoken, hme⟩ := admission_admitted hadmitted
        refine ⟨a, hb, hws, ⟨token, claims, htoken, ?_⟩, f, hf, ?_⟩
        · exact granted_of_verifies hjwt (hforge a hb token htoken) hme
        · rw [hcampaign]
          exact hin
      | hangup w => cases hroute
      | manager b => cases hroute
  · have hnone := hunheard.closed ws g hg (by simp [hcode])
    refine ⟨?_, fun c hr => ?_⟩
    · refine List.eq_nil_iff_forall_not_mem.mpr fun text hmem => ?_
      obtain ⟨c, k, ⟨pc, hcall, _⟩, _⟩ := haddressed.text ws text hmem
      rw [hnone] at hcall
      cases hcall
    · obtain ⟨pc, hcall, _⟩ := haddressed.client c ws hr
      rw [hnone] at hcall
      cases hcall

/-- One client with the token of a login, one without a token. -/
def withAndWithout : List (GateAction (Claims × String)) :=
  [.arrive ⟨10, 1, some loginToken, 1778803201, true⟩, .arrive ⟨11, 1, none, 1778803201, true⟩,
    .manager (.enter 10), .manager (.factoryReturns 10 []),
    .manager (.publish "engine:events:campaign:1" ⟨"message", .str "ring"⟩),
    .manager (.read 0 [10]), .manager (.send 0 true)]

theorem heard_by_granted_withAndWithout : ∃ s,
    exec Route.step Route.init (withAndWithout.map (GateAction.route carried adminEnv.jwtSecret)) =
      some s ∧
    (∀ ws text, text ∈ s.manager.inbox ws → ∃ a, .arrive a ∈ withAndWithout ∧ a.ws = ws ∧
      (∃ token c, a.token = some token ∧
        Granted carried checkDollar adminEnv twoLogins token a.now c) ∧
      ∃ f, f.payload = some text ∧ Incoming s.manager.log a.campaign f) ∧
    ∀ ws g code, s.handlers ws = some g → g.closeCode = some code →
      s.manager.inbox ws = [] ∧ ∀ c, ¬ Registered s.manager c ws := by
  refine ⟨_, rfl, heard_by_granted carried carried_checks checkDollar adminEnv twoLogins
    withAndWithout ?_ rfl⟩
  intro a ha token htoken
  have hlogin : token = loginToken := by
    simp only [withAndWithout, List.mem_cons, GateAction.arrive.injEq, reduceCtorEq,
      List.not_mem_nil, or_false] at ha
    rcases ha with rfl | rfl
    · exact (Option.some.inj htoken).symm
    · cases htoken
  rw [hlogin]
  exact unforgeable_loginToken

end IsalesApi.Ws
