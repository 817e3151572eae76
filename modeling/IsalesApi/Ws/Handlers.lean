import IsalesApi.Ws.Coherence

/-!
# The handlers of `/ws/calls`

One handler runs for each WebSocket: it rejects the socket, or calls
`connect`, waits for the socket to close and calls `disconnect` in its
`finally` block. The `try` begins after `connect`, so a handler whose `connect`
fails ends without a `disconnect`.

A handler awaits the manager's coroutines directly; it goes on in the step in
which its call ends (`Handler.resume`).
-/

namespace IsalesApi.Ws

open Foundation

/-- `WS_CLOSE_AUTH_FAILED`. -/
def wsCloseAuthFailed : Nat := 4401

/-- `status.WS_1011_INTERNAL_ERROR`. -/
def wsInternalError : Nat := 1011

inductive HandlerPc where
  | connecting     -- awaits `manager.connect`
  | receiving      -- awaits `ws.receive_text`
  | disconnecting  -- awaits `manager.disconnect` in the `finally` block
  | finished
deriving DecidableEq

/-- One run of `ws_calls(ws, campaign_id)`; `closeCode` is set when it closed
the socket itself. -/
structure Handler where
  campaign : CampaignId
  pc : HandlerPc
  closeCode : Option Nat
deriving DecidableEq

/-- What `ws_calls` finds before it calls the manager. -/
inductive Admission where
  | unauthorized  -- `_verify_token_or_none` returned `None`
  | unavailable   -- no `app.state.ws_manager`
  | admitted
deriving DecidableEq

/-- The app: the manager and the handlers, by their WebSocket. -/
structure Route where
  manager : State
  handlers : WebSocket → Option Handler

def Route.init : Route := ⟨State.init, fun _ => none⟩

/-- The handler after a step of the manager. -/
def Handler.resume (m : State) (ws : WebSocket) (h : Handler) : Handler :=
  match h.pc with
  | .connecting =>
    match m.connects ws with
    | some ⟨_, _, .returned⟩ => { h with pc := .receiving }
    | some ⟨_, _, .raised⟩ => { h with pc := .finished }
    | _ => h
  | .disconnecting =>
    match m.disconnects ws with
    | some ⟨_, _, .waiting⟩ => h
    | _ => { h with pc := .finished }
  | _ => h

/-- The steps that handlers take themselves. -/
def Action.call : Action → Bool
  | .callConnect .. | .callDisconnect .. => true
  | _ => false

inductive RouteAction where
  | arrive (ws : WebSocket) (c : CampaignId) (admission : Admission)
  | hangup (ws : WebSocket)  -- `receive_text` raises, for whatever reason
  | manager (a : Action)

def Route.step (s : Route) : RouteAction → Option Route
  | .arrive ws c admission =>
    match s.handlers ws, admission with
    | none, .unauthorized =>
      some { s with
        handlers := Function.update s.handlers ws (some ⟨c, .finished, some wsCloseAuthFailed⟩) }
    | none, .unavailable =>
      some { s with
        handlers := Function.update s.handlers ws (some ⟨c, .finished, some wsInternalError⟩) }
    | none, .admitted =>
      (Ws.step s.manager (.callConnect ws c ws)).map fun m =>
        ⟨m, Function.update s.handlers ws (some ⟨c, .connecting, none⟩)⟩
    | some _, _ => none
  | .hangup ws =>
    match s.handlers ws with
    | some ⟨c, .receiving, code⟩ =>
      (Ws.step s.manager (.callDisconnect ws c ws)).map fun m =>
        ⟨m, Function.update s.handlers ws (some ⟨c, .disconnecting, code⟩)⟩
    | _ => none
  | .manager a =>
    if a.call then none
    else (Ws.step s.manager a).map fun m =>
      ⟨m, fun ws => (s.handlers ws).map (Handler.resume m ws)⟩

/-! ## What a step can do to calls and clients -/

/-- A call ends by an exception after its WebSocket was registered: the factory
raises, or the handler is cancelled in the factory or on its way out. -/
def Fails (m : State) : Action → Prop
  | .factoryRaises i | .cancelConnect i => ∃ c ws, m.connects i = some ⟨c, ws, .inFactory⟩
  | .cancelDisconnect i => ∃ c ws, m.disconnects i = some ⟨c, ws, .waiting⟩
  | _ => False

/-- The effect of a step of the manager on its calls and client sets. -/
inductive ClientStep (m : State) (a : Action) (m' : State) : Prop
  | same (hok : ¬ Fails m a)
      (hcon : m'.connects = m.connects) (hdis : m'.disconnects = m.disconnects)
      (hreg : ∀ d w, Registered m' d w ↔ Registered m d w)
  | joined (i : CallId) (c : CampaignId) (ws : WebSocket) (pc : ConnectPc) (ha : a = .enter i)
      (hok : ¬ Fails m a) (hi : m.connects i = some ⟨c, ws, .waiting⟩)
      (hpc : pc = .returned ∨ pc = .inFactory)
      (hcon : m'.connects = Function.update m.connects i (some ⟨c, ws, pc⟩))
      (hdis : m'.disconnects = m.disconnects)
      (hreg : ∀ d w, Registered m' d w ↔ Registered m d w ∨ d = c ∧ w = ws)
  | connected (i : CallId) (c : CampaignId) (ws : WebSocket) (hok : ¬ Fails m a)
      (hi : m.connects i = some ⟨c, ws, .inFactory⟩)
      (hcon : m'.connects = Function.update m.connects i (some ⟨c, ws, .returned⟩))
      (hdis : m'.disconnects = m.disconnects)
      (hreg : ∀ d w, Registered m' d w ↔ Registered m d w)
  | failed (i : CallId) (c : CampaignId) (ws : WebSocket) (hbad : Fails m a)
      (hi : m.connects i = some ⟨c, ws, .inFactory⟩)
      (hcon : m'.connects = Function.update m.connects i (some ⟨c, ws, .raised⟩))
      (hdis : m'.disconnects = m.disconnects)
      (hreg : ∀ d w, Registered m' d w ↔ Registered m d w)
  | refused (i : CallId) (c : CampaignId) (ws : WebSocket) (hok : ¬ Fails m a)
      (hi : m.connects i = some ⟨c, ws, .waiting⟩)
      (hcon : m'.connects = Function.update m.connects i (some ⟨c, ws, .raised⟩))
      (hdis : m'.disconnects = m.disconnects)
      (hreg : ∀ d w, Registered m' d w ↔ Registered m d w)
  | left (i : CallId) (c : CampaignId) (ws : WebSocket) (hok : ¬ Fails m a)
      (hi : m.disconnects i = some ⟨c, ws, .waiting⟩) (hcon : m'.connects = m.connects)
      (hdis : m'.disconnects = Function.update m.disconnects i (some ⟨c, ws, .returned⟩))
      (hreg : ∀ d w, Registered m' d w ↔ Registered m d w ∧ ¬(d = c ∧ w = ws))
  | abandoned (i : CallId) (c : CampaignId) (ws : WebSocket) (hbad : Fails m a)
      (hi : m.disconnects i = some ⟨c, ws, .waiting⟩) (hcon : m'.connects = m.connects)
      (hdis : m'.disconnects = Function.update m.disconnects i (some ⟨c, ws, .raised⟩))
      (hreg : ∀ d w, Registered m' d w ↔ Registered m d w)

theorem registered_connectSection {m : State} {i : CallId} {c d : CampaignId}
    {ws w : WebSocket} :
    Registered (m.connectSection i c ws) d w ↔ Registered m d w ∨ d = c ∧ w = ws := by
  unfold Registered
  rw [connectSection_connections]
  by_cases hdc : d = c
  · subst hdc
    cases hd : m.connections d with
    | none => simp
    | some conns => simp [or_comm]
  · simp [hdc]

theorem registered_disconnectSection {m : State} {i : CallId} {c d : CampaignId}
    {ws w : WebSocket} :
    Registered (m.disconnectSection i c ws) d w ↔ Registered m d w ∧ ¬(d = c ∧ w = ws) := by
  unfold Registered State.disconnectSection State.scheduleShutdown
  cases hc : m.connections c with
  | none =>
    have hout : ∀ conns, m.connections d = some conns → d ≠ c := by
      rintro conns hd rfl
      rw [hc] at hd
      cases hd
    simp only [hc]
    constructor
    · rintro ⟨conns, hd, hw⟩
      exact ⟨⟨conns, hd, hw⟩, fun h => hout conns hd h.1⟩
    · exact And.left
  | some conns =>
    simp only [hc]
    by_cases hdc : d = c
    · subst hdc
      split
      · rename_i hempty
        have hlast : ∀ x ∈ conns, x = ws := by
          intro x hx
          by_contra hne
          have hin : x ∈ conns.erase ws := Finset.mem_erase.mpr ⟨hne, hx⟩
          simp [hempty] at hin
        split <;> simpa [hc] using fun hw => hlast w hw
      · simp [hc, and_comm]
    · split
      · split <;> simp [hdc]
      · simp [hdc]

theorem clientStep {m m' : State} {a : Action} (hcall : a.call = false)
    (hs : step m a = some m') : ClientStep m a m' := by
  cases a with
  | callConnect i c ws => cases hcall
  | callDisconnect i c ws => cases hcall
  | enter i =>
    obtain ⟨c, ws, _, hi, rfl⟩ := step_enter.mp hs
    have hreg : ∀ d w, Registered (m.connectSection i c ws) d w ↔
        Registered m d w ∨ d = c ∧ w = ws := fun d w => registered_connectSection
    revert hreg
    unfold State.connectSection
    simp only
    split
    · exact fun hreg => .joined i c ws .returned rfl id hi (Or.inl rfl) rfl rfl hreg
    · exact fun hreg => .joined i c ws .inFactory rfl id hi (Or.inr rfl) rfl rfl hreg
  | factoryReturns i backlog =>
    obtain ⟨c, ws, hi, rfl⟩ := step_factoryReturns.mp hs
    exact .connected i c ws id hi rfl rfl (fun _ _ => Iff.rfl)
  | factoryRaises i =>
    obtain ⟨c, ws, hi, rfl⟩ := step_factoryRaises.mp hs
    exact .failed i c ws ⟨c, ws, hi⟩ hi rfl rfl (fun _ _ => Iff.rfl)
  | cancelConnect i =>
    rcases step_cancelConnect.mp hs with ⟨c, ws, hi, rfl⟩ | ⟨c, ws, hi, rfl⟩
    · exact .failed i c ws ⟨c, ws, hi⟩ hi rfl rfl (fun _ _ => Iff.rfl)
    · -- cancelled before it had the lock
      refine .refused i c ws ?_ hi rfl rfl (fun _ _ => Iff.rfl)
      rintro ⟨d, w, hi'⟩
      rw [hi] at hi'
      cases hi'
  | leave i =>
    obtain ⟨c, ws, _, hi, rfl⟩ := step_leave.mp hs
    have hreg : ∀ d w, Registered (m.disconnectSection i c ws) d w ↔
        Registered m d w ∧ ¬(d = c ∧ w = ws) := fun d w => registered_disconnectSection
    exact .left i c ws id hi (disconnectSection_connects ..) (disconnectSection_disconnects ..)
      hreg
  | cancelDisconnect i =>
    obtain ⟨c, ws, hi, rfl⟩ := step_cancelDisconnect.mp hs
    exact .abandoned i c ws ⟨c, ws, hi⟩ hi rfl rfl (fun _ _ => Iff.rfl)
  | fire t =>
    obtain ⟨c, _, rfl⟩ := step_fire.mp hs
    exact .same id rfl rfl (fun _ _ => Iff.rfl)
  | stop t =>
    obtain ⟨c, _, _, rfl⟩ := step_stop.mp hs
    exact .same id (maybeStopSubscriber_connects ..) (maybeStopSubscriber_disconnects ..)
      (fun _ _ => by simp [Registered])
  | publish channel f =>
    cases hs
    exact .same id rfl rfl (fun _ _ => Iff.rfl)
  | read k targets =>
    obtain ⟨c, f, queue, _, hcase⟩ := step_read.mp hs
    rcases hcase with ⟨_, rfl⟩ | ⟨_, _, rfl⟩ | ⟨message, _, _, _, _, rfl⟩
    · exact .same id rfl rfl (fun _ _ => Iff.rfl)
    · exact .same id rfl rfl (fun _ _ => Iff.rfl)
    · exact .same id rfl rfl (fun _ _ => Iff.rfl)
  | send k ok =>
    obtain ⟨c, message, ws, rest, queue, _, rfl⟩ := step_send.mp hs
    cases ok with
    | false => exact .same id rfl rfl (fun _ _ => Iff.rfl)
    | true => exact .same id rfl rfl (fun _ _ => Iff.rfl)
  | die k =>
    obtain ⟨c, queue, _, rfl⟩ := step_die.mp hs
    exact .same id rfl rfl (fun _ _ => Iff.rfl)
  | unwind k =>
    obtain ⟨c, pc, queue, _, _, rfl⟩ := step_unwind.mp hs
    exact .same id rfl rfl (fun _ _ => Iff.rfl)
  | shutdown =>
    obtain ⟨_, rfl⟩ := step_shutdown.mp hs
    exact .same id rfl rfl (fun _ _ => Iff.rfl)
  | awaitTask =>
    obtain ⟨k, ks, sub, _, _, _, rfl⟩ := step_awaitTask.mp hs
    exact .same id rfl rfl (fun _ _ => Iff.rfl)

/-! ## Handlers and their calls -/

/-- Where the handler of `ws` stands, as the manager's calls tell. -/
def Handler.Matches (m : State) (ws : WebSocket) (h : Handler) : Prop :=
  match h.pc with
  | .connecting => m.disconnects ws = none ∧
      (m.connects ws = some ⟨h.campaign, ws, .waiting⟩ ∧ ¬ Registered m h.campaign ws ∨
        m.connects ws = some ⟨h.campaign, ws, .inFactory⟩ ∧ Registered m h.campaign ws)
  | .receiving => m.disconnects ws = none ∧
      m.connects ws = some ⟨h.campaign, ws, .returned⟩ ∧ Registered m h.campaign ws
  | .disconnecting => m.disconnects ws = some ⟨h.campaign, ws, .waiting⟩ ∧
      m.connects ws = some ⟨h.campaign, ws, .returned⟩ ∧ Registered m h.campaign ws
  | .finished => (∀ call, m.connects ws = some call → call.finished) ∧
      ∀ call, m.disconnects ws = some call → call.pc ≠ .waiting

/-- Every call is made by the handler of its WebSocket. -/
structure Routed (s : Route) : Prop where
  coherent : Coherent s.manager
  handler : ∀ ws h, s.handlers ws = some h → h.Matches s.manager ws
  connects : ∀ i call, s.manager.connects i = some call →
    call.ws = i ∧ ∃ h, s.handlers i = some h ∧ h.campaign = call.campaign
  disconnects : ∀ i call, s.manager.disconnects i = some call →
    call.ws = i ∧ ∃ h, s.handlers i = some h ∧ h.campaign = call.campaign
  client : ∀ c ws, Registered s.manager c ws →
    ∃ h, s.handlers ws = some h ∧ h.campaign = c

theorem routed_init : Routed Route.init := by
  refine ⟨coherent_init, ?_, ?_, ?_, ?_⟩ <;> simp [Route.init, State.init, Registered]

@[simp] theorem Handler.resume_campaign (m : State) (ws : WebSocket) (h : Handler) :
    (h.resume m ws).campaign = h.campaign := by
  unfold Handler.resume
  split
  · split <;> rfl
  · split <;> rfl
  · rfl

/-- Nothing about `ws` changed: its handler stays where it is. -/
theorem Handler.Matches.of_same {m m' : State} {ws : WebSocket} {h : Handler}
    (hm : h.Matches m ws) (hcon : m'.connects ws = m.connects ws)
    (hdis : m'.disconnects ws = m.disconnects ws)
    (hreg : Registered m' h.campaign ws ↔ Registered m h.campaign ws) :
    h.resume m' ws = h ∧ h.Matches m' ws := by
  obtain ⟨c, pc, code⟩ := h
  cases pc with
  | connecting =>
    simp only [Handler.Matches, hcon, hdis, hreg] at hm ⊢
    refine ⟨?_, hm⟩
    rcases hm.2 with ⟨hwait, _⟩ | ⟨hfac, _⟩
    · simp [Handler.resume, hcon, hwait]
    · simp [Handler.resume, hcon, hfac]
  | receiving =>
    simp only [Handler.Matches, hcon, hdis, hreg] at hm ⊢
    exact ⟨rfl, hm⟩
  | disconnecting =>
    simp only [Handler.Matches, hcon, hdis, hreg] at hm ⊢
    exact ⟨by simp [Handler.resume, hdis, hm.1], hm⟩
  | finished =>
    simp only [Handler.Matches, hcon, hdis] at hm ⊢
    exact ⟨rfl, hm⟩

/-- The handler whose `connect` waits. -/
theorem Handler.Matches.connecting {m : State} {ws : WebSocket} {h : Handler}
    {c : CampaignId} {pc : ConnectPc} (hm : h.Matches m ws)
    (hi : m.connects ws = some ⟨c, ws, pc⟩) (hpc : pc = .waiting ∨ pc = .inFactory) :
    h.pc = .connecting ∧ h.campaign = c ∧ m.disconnects ws = none := by
  obtain ⟨d, hpc', code⟩ := h
  cases hpc' with
  | connecting =>
    refine ⟨rfl, ?_, hm.1⟩
    rcases hm.2 with ⟨hcon, _⟩ | ⟨hcon, _⟩ <;>
      · rw [hi] at hcon
        cases hcon
        rfl
  | receiving =>
    have hcon := hm.2.1
    rw [hi] at hcon
    cases hcon
    simp at hpc
  | disconnecting =>
    have hcon := hm.2.1
    rw [hi] at hcon
    cases hcon
    simp at hpc
  | finished =>
    have hfin := hm.1 _ hi
    rcases hpc with rfl | rfl <;> simp [ConnectCall.finished] at hfin

/-- The handler whose `disconnect` waits. -/
theorem Handler.Matches.disconnecting {m : State} {ws : WebSocket} {h : Handler}
    {c : CampaignId} (hm : h.Matches m ws) (hi : m.disconnects ws = some ⟨c, ws, .waiting⟩) :
    h.pc = .disconnecting ∧ h.campaign = c ∧ Registered m c ws ∧
      m.connects ws = some ⟨c, ws, .returned⟩ := by
  obtain ⟨d, hpc, code⟩ := h
  cases hpc with
  | connecting =>
    have hdis := hm.1
    rw [hi] at hdis
    cases hdis
  | receiving =>
    have hdis := hm.1
    rw [hi] at hdis
    cases hdis
  | disconnecting =>
    obtain ⟨hdis, hcon, hreg⟩ := hm
    rw [hi] at hdis
    cases hdis
    exact ⟨rfl, rfl, hreg, hcon⟩
  | finished => exact absurd rfl (hm.2 _ hi)

/-- `connect` returned: the handler enters its `try` block. -/
theorem Handler.Matches.resume_returned {m : State} {ws : WebSocket} {h : Handler}
    (hpc : h.pc = .connecting) (hcon : m.connects ws = some ⟨h.campaign, ws, .returned⟩)
    (hdis : m.disconnects ws = none) (hreg : Registered m h.campaign ws) :
    (h.resume m ws).Matches m ws ∧ (h.resume m ws).pc ≠ .finished := by
  have heq : h.resume m ws = { h with pc := .receiving } := by
    simp [Handler.resume, hpc, hcon]
  rw [heq]
  exact ⟨⟨hdis, hcon, hreg⟩, by simp⟩

/-- `connect` raised: the handler ends without a `disconnect`. -/
theorem Handler.Matches.resume_raised {m : State} {ws : WebSocket} {h : Handler}
    {c : CampaignId} (hpc : h.pc = .connecting) (hcon : m.connects ws = some ⟨c, ws, .raised⟩)
    (hdis : m.disconnects ws = none) : (h.resume m ws).Matches m ws := by
  have heq : h.resume m ws = { h with pc := .finished } := by
    simp [Handler.resume, hpc, hcon]
  rw [heq]
  refine ⟨?_, ?_⟩
  · intro call hcall
    rw [hcon] at hcall
    cases hcall
    exact Or.inr rfl
  · intro call hcall
    rw [hdis] at hcall
    cases hcall

/-- `disconnect` ended, normally or not: so does the handler. -/
theorem Handler.Matches.resume_left {m : State} {ws : WebSocket} {h : Handler}
    {c : CampaignId} {pc : DisconnectPc} (hpc : h.pc = .disconnecting)
    (hcon : m.connects ws = some ⟨c, ws, .returned⟩)
    (hdis : m.disconnects ws = some ⟨c, ws, pc⟩) (hend : pc ≠ .waiting) :
    (h.resume m ws).Matches m ws := by
  have heq : h.resume m ws = { h with pc := .finished } := by
    cases pc with
    | waiting => exact absurd rfl hend
    | returned => simp [Handler.resume, hpc, hdis]
    | raised => simp [Handler.resume, hpc, hdis]
  rw [heq]
  refine ⟨?_, ?_⟩
  · intro call hcall
    rw [hcon] at hcall
    cases hcall
    exact Or.inl rfl
  · intro call hcall
    rw [hdis] at hcall
    cases hcall
    exact hend

/-- The handler goes on in step with its calls, and it has not finished with
its WebSocket registered unless a call failed. -/
theorem Handler.Matches.clientStep {m m' : State} {a : Action} {ws : WebSocket} {h : Handler}
    (hm : h.Matches m ws) (hcoh : Coherent m)
    (hcons : ∀ i call, m.connects i = some call → call.ws = i)
    (hdiss : ∀ i call, m.disconnects i = some call → call.ws = i)
    (hs : ClientStep m a m') :
    (h.resume m' ws).Matches m' ws ∧
      (¬ Fails m a → (Registered m h.campaign ws → h.pc ≠ .finished) →
        Registered m' h.campaign ws → (h.resume m' ws).pc ≠ .finished) := by
  -- what a step does to the call of another WebSocket
  have hsame : m'.connects ws = m.connects ws → m'.disconnects ws = m.disconnects ws →
      (Registered m' h.campaign ws ↔ Registered m h.campaign ws) →
      (h.resume m' ws).Matches m' ws ∧
        (¬ Fails m a → (Registered m h.campaign ws → h.pc ≠ .finished) →
          Registered m' h.campaign ws → (h.resume m' ws).pc ≠ .finished) := by
    intro hcon hdis hreg
    obtain ⟨heq, hm'⟩ := hm.of_same hcon hdis hreg
    rw [heq]
    exact ⟨hm', fun _ hq hr => hq (hreg.mp hr)⟩
  cases hs with
  | same hok hcon hdis hreg =>
    exact hsame (congrFun hcon ws) (congrFun hdis ws) (hreg _ _)
  | joined i c w pc ha hok hi hpc hcon hdis hreg =>
    obtain rfl : w = i := hcons i _ hi
    by_cases hw : ws = w
    · subst hw
      obtain ⟨hconn, rfl, hnone⟩ := hm.connecting hi (Or.inl rfl)
      have hcon' : m'.connects ws = some ⟨h.campaign, ws, pc⟩ := by
        rw [hcon, Function.update_self]
      have hdis' : m'.disconnects ws = none := by rw [hdis, hnone]
      have hreg' : Registered m' h.campaign ws := (hreg _ _).mpr (Or.inr ⟨rfl, rfl⟩)
      rcases hpc with rfl | rfl
      · obtain ⟨hmatch, hwork⟩ := resume_returned hconn hcon' hdis' hreg'
        exact ⟨hmatch, fun _ _ _ => hwork⟩
      · have heq : h.resume m' ws = h := by simp [Handler.resume, hconn, hcon']
        rw [heq]
        refine ⟨?_, by simp [hconn]⟩
        unfold Handler.Matches
        rw [hconn]
        exact ⟨hdis', Or.inr ⟨hcon', hreg'⟩⟩
    · refine hsame ?_ (congrFun hdis ws) ?_
      · rw [hcon, Function.update_of_ne hw]
      · rw [hreg]
        exact or_iff_left fun heq => hw heq.2
  | connected i c w hok hi hcon hdis hreg =>
    obtain rfl : w = i := hcons i _ hi
    by_cases hw : ws = w
    · subst hw
      obtain ⟨hconn, rfl, hnone⟩ := hm.connecting hi (Or.inr rfl)
      have hreg' := (hreg _ _).mpr (hcoh.inFactory _ _ _ hi).2.2
      obtain ⟨hmatch, hwork⟩ := resume_returned hconn (by rw [hcon, Function.update_self])
        (by rw [hdis, hnone]) hreg'
      exact ⟨hmatch, fun _ _ _ => hwork⟩
    · refine hsame ?_ (congrFun hdis ws) (hreg _ _)
      rw [hcon, Function.update_of_ne hw]
  | failed i c w hbad hi hcon hdis hreg =>
    obtain rfl : w = i := hcons i _ hi
    by_cases hw : ws = w
    · subst hw
      obtain ⟨hconn, rfl, hnone⟩ := hm.connecting hi (Or.inr rfl)
      have hcon' : m'.connects ws = some ⟨h.campaign, ws, .raised⟩ := by
        rw [hcon, Function.update_self]
      exact ⟨resume_raised hconn hcon' (by rw [hdis, hnone]), fun hok => absurd hbad hok⟩
    · refine hsame ?_ (congrFun hdis ws) (hreg _ _)
      rw [hcon, Function.update_of_ne hw]
  | refused i c w hok hi hcon hdis hreg =>
    obtain rfl : w = i := hcons i _ hi
    by_cases hw : ws = w
    · subst hw
      obtain ⟨hconn, rfl, hnone⟩ := hm.connecting hi (Or.inl rfl)
      -- `connect` was cancelled before it had the lock
      have hout : ¬ Registered m h.campaign ws := by
        unfold Handler.Matches at hm
        rw [hconn] at hm
        rcases hm.2 with ⟨_, hout⟩ | ⟨hfac, _⟩
        · exact hout
        · rw [hi] at hfac
          cases hfac
      have hcon' : m'.connects ws = some ⟨h.campaign, ws, .raised⟩ := by
        rw [hcon, Function.update_self]
      exact ⟨resume_raised hconn hcon' (by rw [hdis, hnone]),
        fun _ _ hr => absurd ((hreg _ _).mp hr) hout⟩
    · refine hsame ?_ (congrFun hdis ws) (hreg _ _)
      rw [hcon, Function.update_of_ne hw]
  | left i c w hok hi hcon hdis hreg =>
    obtain rfl : w = i := hdiss i _ hi
    by_cases hw : ws = w
    · subst hw
      obtain ⟨hconn, rfl, _, hret⟩ := hm.disconnecting hi
      have hdis' : m'.disconnects ws = some ⟨h.campaign, ws, .returned⟩ := by
        rw [hdis, Function.update_self]
      exact ⟨resume_left hconn (by rw [hcon, hret]) hdis' (by simp),
        fun _ _ hr => absurd ⟨rfl, rfl⟩ ((hreg _ _).mp hr).2⟩
    · refine hsame (congrFun hcon ws) ?_ ?_
      · rw [hdis, Function.update_of_ne hw]
      · rw [hreg]
        exact and_iff_left fun heq => hw heq.2
  | abandoned i c w hbad hi hcon hdis hreg =>
    obtain rfl : w = i := hdiss i _ hi
    by_cases hw : ws = w
    · subst hw
      obtain ⟨hconn, rfl, _, hret⟩ := hm.disconnecting hi
      have hdis' : m'.disconnects ws = some ⟨h.campaign, ws, .raised⟩ := by
        rw [hdis, Function.update_self]
      exact ⟨resume_left hconn (by rw [hcon, hret]) hdis' (by simp),
        fun hok => absurd hbad hok⟩
    · refine hsame (congrFun hcon ws) ?_ (hreg _ _)
      rw [hdis, Function.update_of_ne hw]

theorem ClientStep.connects {m m' : State} {a : Action} (hs : ClientStep m a m') {i : CallId}
    {call : ConnectCall} (hi : m'.connects i = some call) :
    ∃ old, m.connects i = some old ∧ old.ws = call.ws ∧ old.campaign = call.campaign := by
  have hset : ∀ j c ws pc pc', m.connects j = some ⟨c, ws, pc⟩ →
      m'.connects = Function.update m.connects j (some ⟨c, ws, pc'⟩) →
      ∃ old, m.connects i = some old ∧ old.ws = call.ws ∧ old.campaign = call.campaign := by
    intro j c ws pc pc' hj hcon
    rw [hcon] at hi
    rcases update_eq_some.mp hi with ⟨rfl, heq⟩ | ⟨_, hi⟩
    · cases heq
      exact ⟨_, hj, rfl, rfl⟩
    · exact ⟨call, hi, rfl, rfl⟩
  cases hs with
  | same hok hcon hdis hreg => exact ⟨call, hcon ▸ hi, rfl, rfl⟩
  | joined j c ws pc ha hok hj hpc hcon hdis hreg => exact hset j c ws _ _ hj hcon
  | connected j c ws hok hj hcon hdis hreg => exact hset j c ws _ _ hj hcon
  | failed j c ws hbad hj hcon hdis hreg => exact hset j c ws _ _ hj hcon
  | refused j c ws hok hj hcon hdis hreg => exact hset j c ws _ _ hj hcon
  | left j c ws hok hj hcon hdis hreg => exact ⟨call, hcon ▸ hi, rfl, rfl⟩
  | abandoned j c ws hbad hj hcon hdis hreg => exact ⟨call, hcon ▸ hi, rfl, rfl⟩

theorem ClientStep.disconnects {m m' : State} {a : Action} (hs : ClientStep m a m') {i : CallId}
    {call : DisconnectCall} (hi : m'.disconnects i = some call) :
    ∃ old, m.disconnects i = some old ∧ old.ws = call.ws ∧ old.campaign = call.campaign := by
  have hset : ∀ j c ws pc pc', m.disconnects j = some ⟨c, ws, pc⟩ →
      m'.disconnects = Function.update m.disconnects j (some ⟨c, ws, pc'⟩) →
      ∃ old, m.disconnects i = some old ∧ old.ws = call.ws ∧ old.campaign = call.campaign := by
    intro j c ws pc pc' hj hdis
    rw [hdis] at hi
    rcases update_eq_some.mp hi with ⟨rfl, heq⟩ | ⟨_, hi⟩
    · cases heq
      exact ⟨_, hj, rfl, rfl⟩
    · exact ⟨call, hi, rfl, rfl⟩
  cases hs with
  | same hok hcon hdis hreg => exact ⟨call, hdis ▸ hi, rfl, rfl⟩
  | joined j c ws pc ha hok hj hpc hcon hdis hreg => exact ⟨call, hdis ▸ hi, rfl, rfl⟩
  | connected j c ws hok hj hcon hdis hreg => exact ⟨call, hdis ▸ hi, rfl, rfl⟩
  | failed j c ws hbad hj hcon hdis hreg => exact ⟨call, hdis ▸ hi, rfl, rfl⟩
  | refused j c ws hok hj hcon hdis hreg => exact ⟨call, hdis ▸ hi, rfl, rfl⟩
  | left j c ws hok hj hcon hdis hreg => exact hset j c ws _ _ hj hdis
  | abandoned j c ws hbad hj hcon hdis hreg => exact hset j c ws _ _ hj hdis

theorem ClientStep.registered {m m' : State} {a : Action} (hs : ClientStep m a m')
    {d : CampaignId} {w : WebSocket} (hr : Registered m' d w) :
    Registered m d w ∨ ∃ i call, m.connects i = some call ∧ call.campaign = d ∧ call.ws = w := by
  cases hs with
  | same hok hcon hdis hreg => exact Or.inl ((hreg d w).mp hr)
  | joined i c ws pc ha hok hi hpc hcon hdis hreg =>
    rcases (hreg d w).mp hr with hr | ⟨rfl, rfl⟩
    · exact Or.inl hr
    · exact Or.inr ⟨i, _, hi, rfl, rfl⟩
  | connected i c ws hok hi hcon hdis hreg => exact Or.inl ((hreg d w).mp hr)
  | failed i c ws hbad hi hcon hdis hreg => exact Or.inl ((hreg d w).mp hr)
  | refused i c ws hok hi hcon hdis hreg => exact Or.inl ((hreg d w).mp hr)
  | left i c ws hok hi hcon hdis hreg => exact Or.inl ((hreg d w).mp hr).1
  | abandoned i c ws hbad hi hcon hdis hreg => exact Or.inl ((hreg d w).mp hr)

/-! ## Runs of the handlers -/

theorem step_arrive {s s' : Route} {ws : WebSocket} {c : CampaignId} {admission : Admission}
    (hs : s.step (.arrive ws c admission) = some s') :
    s.handlers ws = none ∧
      ((∃ code, s' = ⟨s.manager,
          Function.update s.handlers ws (some ⟨c, .finished, some code⟩)⟩) ∨
        ∃ m, step s.manager (.callConnect ws c ws) = some m ∧
          s' = ⟨m, Function.update s.handlers ws (some ⟨c, .connecting, none⟩)⟩) := by
  simp only [Route.step] at hs
  split at hs
  · rename_i hnone
    exact ⟨hnone, Or.inl ⟨_, (Option.some.inj hs).symm⟩⟩
  · rename_i hnone
    exact ⟨hnone, Or.inl ⟨_, (Option.some.inj hs).symm⟩⟩
  · rename_i hnone
    obtain ⟨m, hm, rfl⟩ := Option.map_eq_some_iff.mp hs
    exact ⟨hnone, Or.inr ⟨m, hm, rfl⟩⟩
  · cases hs

theorem step_hangup {s s' : Route} {ws : WebSocket} (hs : s.step (.hangup ws) = some s') :
    ∃ c code m, s.handlers ws = some ⟨c, .receiving, code⟩ ∧
      step s.manager (.callDisconnect ws c ws) = some m ∧
      s' = ⟨m, Function.update s.handlers ws (some ⟨c, .disconnecting, code⟩)⟩ := by
  simp only [Route.step] at hs
  split at hs
  · rename_i c code hh
    obtain ⟨m, hm, rfl⟩ := Option.map_eq_some_iff.mp hs
    exact ⟨c, code, m, hh, hm, rfl⟩
  · cases hs

theorem step_manager {s s' : Route} {a : Action} (hs : s.step (.manager a) = some s') :
    ∃ m, a.call = false ∧ step s.manager a = some m ∧
      s' = ⟨m, fun ws => (s.handlers ws).map (Handler.resume m ws)⟩ := by
  simp only [Route.step] at hs
  split at hs
  · cases hs
  · rename_i hcall
    obtain ⟨m, hm, rfl⟩ := Option.map_eq_some_iff.mp hs
    exact ⟨m, by simpa using hcall, hm, rfl⟩

/-- Adding or moving one handler, with its call. -/
theorem Routed.setHandler {s : Route} (h : Routed s) {m : State} {ws : WebSocket} {hd : Handler}
    (hcoh : Coherent m) (hmatch : hd.Matches m ws)
    (hkeep : ∀ old, s.handlers ws = some old → old.campaign = hd.campaign)
    (hreg : ∀ d w, Registered m d w ↔ Registered s.manager d w)
    (hcon : ∀ i, i ≠ ws → m.connects i = s.manager.connects i)
    (hdis : ∀ i, i ≠ ws → m.disconnects i = s.manager.disconnects i)
    (hcall : ∀ call, m.connects ws = some call → call.ws = ws ∧ call.campaign = hd.campaign)
    (hcall' : ∀ call, m.disconnects ws = some call →
      call.ws = ws ∧ call.campaign = hd.campaign) :
    Routed ⟨m, Function.update s.handlers ws (some hd)⟩ where
  coherent := hcoh
  handler := by
    intro w g hg
    rcases update_eq_some.mp hg with ⟨rfl, heq⟩ | ⟨hne, hg⟩
    · cases heq
      exact hmatch
    · exact ((h.handler w g hg).of_same (hcon w hne) (hdis w hne) (hreg _ _)).2
  connects := by
    intro i call hi
    by_cases hiw : i = ws
    · subst hiw
      obtain ⟨hws, hcamp⟩ := hcall call hi
      exact ⟨hws, hd, Function.update_self _ _ _, hcamp.symm⟩
    · change m.connects i = some call at hi
      rw [hcon i hiw] at hi
      obtain ⟨hws, g, hg, hcamp⟩ := h.connects i call hi
      exact ⟨hws, g, by simpa [hiw] using hg, hcamp⟩
  disconnects := by
    intro i call hi
    by_cases hiw : i = ws
    · subst hiw
      obtain ⟨hws, hcamp⟩ := hcall' call hi
      exact ⟨hws, hd, Function.update_self _ _ _, hcamp.symm⟩
    · change m.disconnects i = some call at hi
      rw [hdis i hiw] at hi
      obtain ⟨hws, g, hg, hcamp⟩ := h.disconnects i call hi
      exact ⟨hws, g, by simpa [hiw] using hg, hcamp⟩
  client := by
    intro c w hr
    obtain ⟨g, hg, hcamp⟩ := h.client c w ((hreg c w).mp hr)
    by_cases hw : w = ws
    · subst hw
      exact ⟨hd, Function.update_self _ _ _, (hkeep g hg).symm.trans hcamp⟩
    · exact ⟨g, by simpa [hw] using hg, hcamp⟩

theorem Routed.step {s s' : Route} {a : RouteAction} (h : Routed s) (hs : s.step a = some s') :
    Routed s' := by
  cases a with
  | arrive ws c admission =>
    obtain ⟨hnone, hcase⟩ := step_arrive hs
    have hcon : s.manager.connects ws = none := by
      by_contra hne
      obtain ⟨call, hcall⟩ := Option.ne_none_iff_exists'.mp hne
      obtain ⟨_, g, hg, _⟩ := h.connects ws call hcall
      rw [hnone] at hg
      cases hg
    have hdis : s.manager.disconnects ws = none := by
      by_contra hne
      obtain ⟨call, hcall⟩ := Option.ne_none_iff_exists'.mp hne
      obtain ⟨_, g, hg, _⟩ := h.disconnects ws call hcall
      rw [hnone] at hg
      cases hg
    rcases hcase with ⟨code, rfl⟩ | ⟨m, hm, rfl⟩
    · refine h.setHandler h.coherent ?_ (by simp [hnone]) (fun _ _ => Iff.rfl)
        (fun _ _ => rfl) (fun _ _ => rfl) (by simp [hcon]) (by simp [hdis])
      exact ⟨by simp [hcon], by simp [hdis]⟩
    · have hcoh := h.coherent.step hm
      obtain ⟨_, rfl⟩ := step_callConnect.mp hm
      refine h.setHandler hcoh ?_ (by simp [hnone]) (fun _ _ => Iff.rfl) ?_ (fun _ _ => rfl) ?_
        (by simp [hdis])
      · refine ⟨hdis, Or.inl ⟨Function.update_self _ _ _, fun hr => ?_⟩⟩
        obtain ⟨g, hg, _⟩ := h.client c ws hr
        rw [hnone] at hg
        cases hg
      · exact fun i hi => Function.update_of_ne hi _ _
      · intro call hcall
        obtain rfl : (⟨c, ws, .waiting⟩ : ConnectCall) = call := by simpa using hcall
        exact ⟨rfl, rfl⟩
  | hangup ws =>
    obtain ⟨c, code, m, hh, hm, rfl⟩ := step_hangup hs
    have hcoh := h.coherent.step hm
    obtain ⟨hdis, hcon, hreg⟩ := h.handler ws _ hh
    obtain ⟨_, rfl⟩ := step_callDisconnect.mp hm
    refine h.setHandler hcoh ⟨Function.update_self _ _ _, hcon, hreg⟩ (by simp [hh])
      (fun _ _ => Iff.rfl) (fun _ _ => rfl) ?_ ?_ ?_
    · exact fun i hi => Function.update_of_ne hi _ _
    · intro call hcall
      rw [hcon] at hcall
      cases hcall
      exact ⟨rfl, rfl⟩
    · intro call hcall
      obtain rfl : (⟨c, ws, .waiting⟩ : DisconnectCall) = call := by simpa using hcall
      exact ⟨rfl, rfl⟩
  | manager a =>
    obtain ⟨m, hcall, hm, rfl⟩ := step_manager hs
    -- calls keep their WebSocket and campaign, whatever becomes of them
    have hclient := clientStep hcall hm
    refine ⟨h.coherent.step hm, ?_, ?_, ?_, ?_⟩
    · intro ws g hg
      obtain ⟨old, hold, rfl⟩ := Option.map_eq_some_iff.mp hg
      exact ((h.handler ws old hold).clientStep h.coherent
        (fun i call hi => (h.connects i call hi).1)
        (fun i call hi => (h.disconnects i call hi).1) hclient).1
    · intro i call hi
      obtain ⟨old, hold, hws, hcamp⟩ := hclient.connects hi
      obtain ⟨hw, g, hg, hgc⟩ := h.connects i old hold
      exact ⟨hws.symm.trans hw, g.resume m i, by simp [hg], by simp [hgc, hcamp]⟩
    · intro i call hi
      obtain ⟨old, hold, hws, hcamp⟩ := hclient.disconnects hi
      obtain ⟨hw, g, hg, hgc⟩ := h.disconnects i old hold
      exact ⟨hws.symm.trans hw, g.resume m i, by simp [hg], by simp [hgc, hcamp]⟩
    · intro d w hr
      rcases hclient.registered hr with hr | ⟨i, call, hi, rfl, rfl⟩
      · obtain ⟨g, hg, hgc⟩ := h.client d w hr
        exact ⟨g.resume m w, by simp [hg], by simp [hgc]⟩
      · obtain ⟨rfl, g, hg, hgc⟩ := h.connects i call hi
        exact ⟨g.resume m call.ws, by simp [hg], by simp [hgc]⟩

/-- Every WebSocket in `_connections[c]` belongs to a handler of `c` that has
not finished. -/
def Attended (s : Route) : Prop :=
  ∀ c ws, Registered s.manager c ws →
    ∃ h, s.handlers ws = some h ∧ h.campaign = c ∧ h.pc ≠ .finished

/-- The step ends no call of a registered client by an exception. -/
def Reliable (s : Route) : RouteAction → Prop
  | .manager a => ¬ Fails s.manager a
  | _ => True

/-- A step that replaces the handler of `ws`, unregistered or still at work. -/
theorem Attended.setHandler {s : Route} (hq : Attended s) {m : State} {ws : WebSocket}
    {hd : Handler} (hreg : ∀ d w, Registered m d w ↔ Registered s.manager d w)
    (hnew : ∀ c, Registered s.manager c ws → hd.campaign = c ∧ hd.pc ≠ .finished) :
    Attended ⟨m, Function.update s.handlers ws (some hd)⟩ := by
  intro c w hr
  have hr' := (hreg c w).mp hr
  by_cases hw : w = ws
  · subst hw
    exact ⟨hd, Function.update_self _ _ _, hnew c hr'⟩
  · obtain ⟨g, hg, hgc⟩ := hq c w hr'
    exact ⟨g, by simpa [hw] using hg, hgc⟩

/-- The call that failed leaves its WebSocket registered. -/
theorem Routed.ghost {s : Route} (h : Routed s) {m : State} {a : Action}
    (hs : ClientStep s.manager a m) (hfail : Fails s.manager a) :
    ∃ c ws, Registered m c ws ∧
      ∀ g, s.handlers ws = some g → (g.resume m ws).pc = .finished := by
  cases hs with
  | failed i c w hbad hi hcon hdis hreg =>
    obtain rfl : w = i := (h.connects i _ hi).1
    refine ⟨c, w, (hreg _ _).mpr (h.coherent.inFactory _ _ _ hi).2.2, ?_⟩
    intro g hg
    have hconn := ((h.handler w g hg).connecting hi (Or.inr rfl)).1
    simp [Handler.resume, hconn, hcon]
  | abandoned i c w hbad hi hcon hdis hreg =>
    obtain ⟨rfl, g, hg, _⟩ := h.disconnects i _ hi
    refine ⟨c, _, (hreg _ _).mpr ((h.handler _ g hg).disconnecting hi).2.2.1, ?_⟩
    intro g' hg'
    have hconn := ((h.handler _ g' hg').disconnecting hi).1
    simp [Handler.resume, hconn, hdis]
  | same hok => exact absurd hfail hok
  | joined _ _ _ _ _ hok => exact absurd hfail hok
  | connected _ _ _ hok => exact absurd hfail hok
  | refused _ _ _ hok => exact absurd hfail hok
  | left _ _ _ hok => exact absurd hfail hok

theorem attended_manager_iff {s : Route} {m : State} {a : Action} (h : Routed s)
    (hq : Attended s) (hclient : ClientStep s.manager a m)
    (hroute : Routed ⟨m, fun ws => (s.handlers ws).map (Handler.resume m ws)⟩) :
    Attended ⟨m, fun ws => (s.handlers ws).map (Handler.resume m ws)⟩ ↔
      ¬ Fails s.manager a := by
  constructor
  · intro hatt hfail
    obtain ⟨c, ws, hr, hfin⟩ := h.ghost hclient hfail
    obtain ⟨g, hg, _, hpc⟩ := hatt c ws hr
    obtain ⟨old, hold, rfl⟩ := Option.map_eq_some_iff.mp hg
    exact hpc (hfin old hold)
  · intro hok c ws hr
    obtain ⟨g, hg, hgc⟩ := hroute.client c ws hr
    refine ⟨g, hg, hgc, ?_⟩
    obtain ⟨old, hold, rfl⟩ := Option.map_eq_some_iff.mp hg
    subst hgc
    have hold' := (h.handler ws old hold).clientStep h.coherent
      (fun i call hi => (h.connects i call hi).1)
      (fun i call hi => (h.disconnects i call hi).1) hclient
    refine hold'.2 hok ?_ (by simpa using hr)
    intro hr'
    obtain ⟨g', hg', _, hpc⟩ := hq _ ws hr'
    rw [hold] at hg'
    cases hg'
    exact hpc

theorem attended_step_iff {s s' : Route} {a : RouteAction} (h : Routed s) (hq : Attended s)
    (hs : s.step a = some s') : Attended s' ↔ Reliable s a := by
  cases a with
  | arrive ws c admission =>
    obtain ⟨hnone, hcase⟩ := step_arrive hs
    have hout : ∀ d, ¬ Registered s.manager d ws := by
      intro d hr
      obtain ⟨g, hg, _⟩ := h.client d ws hr
      rw [hnone] at hg
      cases hg
    refine iff_of_true ?_ trivial
    rcases hcase with ⟨code, rfl⟩ | ⟨m, hm, rfl⟩
    · exact hq.setHandler (fun _ _ => Iff.rfl) (fun d hr => absurd hr (hout d))
    · obtain ⟨_, rfl⟩ := step_callConnect.mp hm
      exact hq.setHandler (fun _ _ => Iff.rfl) (fun d hr => absurd hr (hout d))
  | hangup ws =>
    obtain ⟨c, code, m, hh, hm, rfl⟩ := step_hangup hs
    obtain ⟨_, rfl⟩ := step_callDisconnect.mp hm
    refine iff_of_true (hq.setHandler (fun _ _ => Iff.rfl) fun d hr => ⟨?_, by simp⟩) trivial
    obtain ⟨g, hg, hgc⟩ := h.client d ws hr
    rw [hh] at hg
    cases hg
    exact hgc
  | manager a =>
    obtain ⟨m, hcall, hm, rfl⟩ := step_manager hs
    exact attended_manager_iff h hq (clientStep hcall hm) (h.step hs)

/-- **Registered clients and their handlers.** In every run, every registered
WebSocket has a handler that has not finished if and only if no call of a
registered client ends by an exception. -/
theorem attended_iff_reliable (as : List RouteAction) :
    Always Route.step Attended Route.init as ↔ Along Route.step Reliable Route.init as := by
  refine always_iff_along (I := Routed) (fun _ _ _ hi hs => hi.step hs)
    (fun _ _ _ hi hq hs => attended_step_iff hi hq hs) routed_init ?_
  rintro c ws ⟨conns, hconns, _⟩
  cases hconns

/-- Redis cannot be reached when client 10 connects. -/
def factoryDown : List RouteAction :=
  [.arrive 10 1 .admitted, .manager (.enter 10), .manager (.factoryRaises 10)]

/-- The handler is gone, its WebSocket stays in `_connections[1]`. -/
theorem ghost_client : ¬ Always Route.step Attended Route.init factoryDown := by
  intro h
  have hlast : Attended _ := h.last (t := _) rfl
  obtain ⟨g, hg, _, hpc⟩ := hlast 1 10 ⟨_, rfl, by decide⟩
  cases hg
  exact hpc rfl

end IsalesApi.Ws
