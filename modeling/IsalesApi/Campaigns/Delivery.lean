import IsalesApi.Campaigns.Control

/-!
# Delivery of control messages

What the scheduler gets of the messages, in any interleaving of any number of
requests. A request that was accepted has its message on the list, once for a
client that sends each command once; one that was refused with 404 has not; and
whoever waits for the answer before asking again has their messages popped in
that order.
-/

namespace IsalesApi.Campaigns

open Foundation

variable {ι : Type} {cfg : Setting ι} {s s' t : Control ι}

/-- All messages pushed so far, in the order in which they are popped. -/
def Control.pushes (s : Control ι) : List CampaignControl := s.popped ++ s.queue.reverse

/-! ## What a step does -/

/-- A step of request `i` while there are these campaigns, with what it pushes. -/
inductive Moves (cfg : Setting ι) (campaigns : List Int) (i : ι) : ControlAction ι →
    Phase → Commands → Phase → Commands → List CampaignControl → Prop where
  | found (c : Commands) (h : (cfg.message i).campaignId ∈ campaigns) :
      Moves cfg campaigns i (.lookup i) .received c .found c []
  | unknown (c : Commands) :
      Moves cfg campaigns i (.lookup i) .received c
        (.answered (.error (notFound "campaign_not_found"))) c []
  | send (c : Commands) : Moves cfg campaigns i (.enqueue i) .found c .pushing ⟨1, 0, false⟩ []
  | resend (c : Commands) (h : c.sent ≤ cfg.retries) :
      Moves cfg campaigns i (.resend i) .pushing c .pushing ⟨c.sent + 1, c.executed, false⟩ []
  | execute (p : Phase) (c : Commands) (hlatest : c.latest = false) (hsent : 0 < c.sent) :
      Moves cfg campaigns i (.execute i) p c p ⟨c.sent, c.executed + 1, true⟩ [cfg.message i]
  | late (p : Phase) (c : Commands) (h : c.overdue) :
      Moves cfg campaigns i (.executeLate i) p c p { c with executed := c.executed + 1 }
        [cfg.message i]
  | reply (c : Commands) (h : c.latest = true) :
      Moves cfg campaigns i (.reply i) .pushing c .pushed c []
  | respond (c : Commands) :
      Moves cfg campaigns i (.respond i) .pushed c
        (.answered (.ok ⟨(cfg.message i).messageId, true⟩)) c []
  -- by a failure of its own, or where `enqueue` finds no URL
  | fail (a : ControlAction ι) (p : Phase) (c : Commands) (h : ∀ x, p ≠ .answered x) :
      Moves cfg campaigns i a p c (.answered (.error internalServerError)) c []

section Steps

variable [DecidableEq ι]

/-- The new state after a step of request `i`. -/
structure Moved (cfg : Setting ι) (i : ι) (a : ControlAction ι) (s s' : Control ι) : Prop where
  moves : ∃ ms, Moves cfg s.campaigns i a (s.phase i) (s.commands i) (s'.phase i) (s'.commands i)
    ms ∧ s'.pushes = s.pushes ++ ms
  others : ∀ j, j ≠ i → s'.phase j = s.phase j ∧ s'.commands j = s.commands j
  client : (s'.redis = s.redis ∧ s'.clients = s.clients) ∨
    (s.redis = false ∧ s'.redis = true ∧ s'.clients = s.clients + 1)

theorem pushes_lpush {i : ι} {c : Commands} :
    (s.lpush cfg i c).pushes = s.pushes ++ [cfg.message i] := by
  show s.popped ++ (cfg.message i :: s.queue).reverse = _
  rw [List.reverse_cons, ← List.append_assoc]
  rfl

theorem moved_setPhase {i : ι} {a : ControlAction ι} {p : Phase}
    (h : Moves cfg s.campaigns i a (s.phase i) (s.commands i) p (s.commands i) []) :
    Moved cfg i a s (s.setPhase i p) where
  moves := by
    refine ⟨[], ?_, (List.append_nil _).symm⟩
    show Moves cfg s.campaigns i a _ _ (Function.update s.phase i p i) (s.commands i) []
    rwa [Function.update_self]
  others := fun j hj => ⟨Function.update_of_ne hj _ _, rfl⟩
  client := .inl ⟨rfl, rfl⟩

theorem moved_setCommands {i : ι} {a : ControlAction ι} {c : Commands}
    (h : Moves cfg s.campaigns i a (s.phase i) (s.commands i) (s.phase i) c []) :
    Moved cfg i a s (s.setCommands i c) where
  moves := by
    refine ⟨[], ?_, (List.append_nil _).symm⟩
    show Moves cfg s.campaigns i a _ _ (s.phase i) (Function.update s.commands i c i) []
    rwa [Function.update_self]
  others := fun j hj => ⟨rfl, Function.update_of_ne hj _ _⟩
  client := .inl ⟨rfl, rfl⟩

theorem moved_lpush {i : ι} {a : ControlAction ι} {c : Commands}
    (h : Moves cfg s.campaigns i a (s.phase i) (s.commands i) (s.phase i) c [cfg.message i]) :
    Moved cfg i a s (s.lpush cfg i c) where
  moves := by
    refine ⟨_, ?_, pushes_lpush⟩
    show Moves cfg s.campaigns i a _ _ (s.phase i) (Function.update s.commands i c i) _
    rwa [Function.update_self]
  others := fun j hj => ⟨rfl, Function.update_of_ne hj _ _⟩
  client := .inl ⟨rfl, rfl⟩

/-- The first command, on a state that differs in its client. -/
theorem moved_send {i : ι} {m : Control ι} (hphase : s.phase i = .found)
    (hm : m.phase = s.phase ∧ m.commands = s.commands ∧ m.pushes = s.pushes)
    (hclient : (m.redis = s.redis ∧ m.clients = s.clients) ∨
      (s.redis = false ∧ m.redis = true ∧ m.clients = s.clients + 1)) :
    Moved cfg i (.enqueue i) s ((m.setPhase i .pushing).setCommands i ⟨1, 0, false⟩) where
  moves := by
    refine ⟨[], ?_, hm.2.2.trans (List.append_nil _).symm⟩
    show Moves cfg s.campaigns i _ _ _ (Function.update m.phase i .pushing i)
      (Function.update m.commands i ⟨1, 0, false⟩ i) []
    rw [Function.update_self, Function.update_self, hphase]
    exact .send _
  others := by
    intro j hj
    rw [← hm.1, ← hm.2.1]
    exact ⟨Function.update_of_ne hj _ _, Function.update_of_ne hj _ _⟩
  client := hclient

/-- A step is one of a request, or it leaves the requests and their messages
alone. -/
theorem step_cases {a : ControlAction ι} (h : s.step cfg a = some s') :
    (∃ i, Moved cfg i a s s') ∨
      ((s'.phase = s.phase ∧ s'.commands = s.commands ∧ s'.pushes = s.pushes) ∧
        s'.redis = s.redis ∧ s'.clients = s.clients) := by
  cases a with
  | lookup i =>
    simp only [Control.step] at h
    split at h
    · rename_i hphase
      cases h
      refine Or.inl ⟨i, ?_⟩
      unfold Control.lookup
      split
      · rename_i hcampaign
        exact moved_setPhase (hphase ▸ .found _ hcampaign)
      · exact moved_setPhase (hphase ▸ .unknown _)
    · cases h
  | enqueue i =>
    simp only [Control.step] at h
    split at h
    · rename_i hphase
      cases h
      refine Or.inl ⟨i, ?_⟩
      -- a client is there, or one is made, or there is no URL to make it with
      unfold Control.enqueueControl
      split
      · exact moved_send hphase ⟨rfl, rfl, rfl⟩ (.inl ⟨rfl, rfl⟩)
      · rename_i hredis
        split
        · exact moved_send hphase ⟨rfl, rfl, rfl⟩ (.inr ⟨by simpa using hredis, rfl, rfl⟩)
        · exact moved_setPhase (hphase ▸ .fail _ _ _ (by simp))
    · cases h
  | resend i =>
    simp only [Control.step] at h
    split at h
    · rename_i hphase
      split at h
      · rename_i hsent
        cases h
        exact Or.inl ⟨i, moved_setCommands (hphase ▸ .resend _ hsent)⟩
      · cases h
    · cases h
  | execute i =>
    simp only [Control.step] at h
    split at h
    · rename_i hlatest
      cases h
      exact Or.inl ⟨i, moved_lpush (.execute _ _ hlatest.1 hlatest.2)⟩
    · cases h
  | executeLate i =>
    simp only [Control.step] at h
    split at h
    · rename_i hlate
      cases h
      exact Or.inl ⟨i, moved_lpush (.late _ _ hlate)⟩
    · cases h
  | reply i =>
    simp only [Control.step] at h
    split at h
    · rename_i hphase
      split at h
      · rename_i hlatest
        cases h
        exact Or.inl ⟨i, moved_setPhase (hphase ▸ .reply _ hlatest)⟩
      · cases h
    · cases h
  | respond i =>
    simp only [Control.step] at h
    split at h
    · rename_i hphase
      cases h
      exact Or.inl ⟨i, moved_setPhase (hphase ▸ .respond _)⟩
    · cases h
  | fail i =>
    simp only [Control.step] at h
    split at h
    · cases h
    · rename_i hphase
      cases h
      exact Or.inl ⟨i, moved_setPhase (.fail _ _ _ hphase)⟩
  | pop =>
    simp only [Control.step] at h
    split at h
    · cases h
    · rename_i m hm
      cases h
      refine Or.inr ⟨⟨rfl, rfl, ?_⟩, rfl, rfl⟩
      -- the message goes from the end of the list to those that were popped
      have hqueue := List.dropLast_append_getLast? m hm
      show s.popped ++ [m] ++ s.queue.dropLast.reverse = s.popped ++ s.queue.reverse
      conv_rhs => rw [← hqueue]
      simp
  | create c =>
    cases h
    exact Or.inr ⟨⟨rfl, rfl, rfl⟩, rfl, rfl⟩
  | delete c =>
    cases h
    exact Or.inr ⟨⟨rfl, rfl, rfl⟩, rfl, rfl⟩

end Steps

/-! ## One request -/

/-- What holds of a request and of its commands at any time. -/
structure Sound (cfg : Setting ι) (i : ι) (p : Phase) (c : Commands) : Prop where
  sent : c.sent ≤ cfg.retries + 1
  executed : c.executed + (if c.latest then 0 else 1) ≤ c.sent ∨ c = ⟨0, 0, false⟩
  latest : c.latest = true → 0 < c.executed
  unsent : p = .received ∨ p = .found ∨
    p = .answered (.error (notFound "campaign_not_found")) → c.sent = 0
  accepted : (p = .pushed ∨ ∃ q, p = .answered (.ok q)) → 0 < c.executed
  answer : ∀ q, p = .answered (.ok q) → q = ⟨(cfg.message i).messageId, true⟩

theorem Sound.moves {i : ι} {campaigns : List Int} {a : ControlAction ι} {p p' : Phase}
    {c c' : Commands} {ms : List CampaignControl} (h : Sound cfg i p c)
    (hm : Moves cfg campaigns i a p c p' c' ms) : Sound cfg i p' c' := by
  obtain ⟨hsent, hexecuted, hlatest, hunsent, haccepted, hanswer⟩ := h
  cases hm with
  | found => exact ⟨hsent, hexecuted, hlatest, fun _ => hunsent (.inl rfl), by simp, by simp⟩
  | unknown => exact ⟨hsent, hexecuted, hlatest, fun _ => hunsent (.inl rfl), by simp, by simp⟩
  | send =>
    exact ⟨Nat.succ_le_succ (Nat.zero_le _), .inl le_rfl, by simp, by simp, by simp, by simp⟩
  | resend _ hless =>
    refine ⟨by simpa using hless, .inl ?_, by simp, by simp, by simp, by simp⟩
    -- the command before this one can still be executed, as a late one
    rcases hexecuted with hexecuted | rfl
    · simp only [Bool.false_eq_true, if_false]
      split at hexecuted <;> omega
    · simp
  | execute _ _ hnot hpos =>
    refine ⟨hsent, .inl ?_, by simp, hunsent, fun _ => Nat.succ_pos _, hanswer⟩
    rcases hexecuted with hexecuted | rfl
    · simpa [hnot] using hexecuted
    · exact absurd hpos (Nat.lt_irrefl 0)
  | late _ _ hless =>
    refine ⟨hsent, .inl ?_, fun _ => Nat.succ_pos _, hunsent, fun _ => Nat.succ_pos _, hanswer⟩
    unfold Commands.overdue at hless
    simp only
    omega
  | reply _ hl => exact ⟨hsent, hexecuted, hlatest, by simp, fun _ => hlatest hl, by simp⟩
  | respond =>
    refine ⟨hsent, hexecuted, hlatest, by simp, fun _ => haccepted (.inl rfl), ?_⟩
    intro q hq
    cases hq
    rfl
  | fail _ _ _ hp =>
    refine ⟨hsent, hexecuted, hlatest, ?_, by simp, by simp⟩
    -- a failure is no 404
    rintro (h | h | h) <;> simp [internalServerError, notFound] at h

theorem Sound.executed_le {i : ι} {p : Phase} {c : Commands} (h : Sound cfg i p c) :
    c.executed ≤ c.sent := by
  rcases h.executed with h | rfl
  · omega
  · exact le_rfl

/-- The request has passed its lookup. -/
def LookedUp (p : Phase) (c : Commands) : Prop := p = .found ∨ p = .pushing ∨ 0 < c.sent

theorem Moves.lookedUp {i : ι} {campaigns : List Int} {a : ControlAction ι} {p p' : Phase}
    {c c' : Commands} {ms : List CampaignControl} (h : Moves cfg campaigns i a p c p' c' ms)
    (h' : LookedUp p' c') : LookedUp p c ∨
      (a = .lookup i ∧ p = .received ∧ (cfg.message i).campaignId ∈ campaigns) := by
  cases h with
  | found c hcampaign => exact .inr ⟨rfl, rfl, hcampaign⟩
  | send c => exact .inl (.inl rfl)
  | resend c => exact .inl (.inr (.inl rfl))
  | reply c => exact .inl (.inr (.inl rfl))
  | execute p c hlatest hsent => exact .inl (.inr (.inr hsent))
  | late p c hlate => exact .inl (.inr (.inr (Nat.zero_lt_of_lt hlate)))
  | unknown | respond | fail =>
    -- the request has its answer, and only what it has sent tells of the lookup
    rcases h' with h' | h' | h'
    · cases h'
    · cases h'
    · exact .inl (.inr (.inr h'))

/-! ## All requests -/

/-- Every request is sound, and the list has its message as often as a command
was executed. -/
structure Coherent (cfg : Setting ι) (s : Control ι) : Prop where
  sound : ∀ i, Sound cfg i (s.phase i) (s.commands i)
  count : ∀ i, s.pushes.count (cfg.message i) = (s.commands i).executed
  messages : ∀ m ∈ s.pushes, ∃ i, m = cfg.message i

theorem coherent_start (campaigns : List Int) (redis : Bool) :
    Coherent cfg (Control.start campaigns redis) where
  sound := fun i => ⟨Nat.zero_le _, .inr rfl, by simp [Control.start],
    fun _ => rfl, by simp [Control.start], by simp [Control.start]⟩
  count := fun i => rfl
  messages := by simp [Control.pushes, Control.start]

/-- A step pushes the message of its request, once for an execution. -/
theorem Moves.count {i : ι} {campaigns : List Int} {a : ControlAction ι} {p p' : Phase}
    {c c' : Commands} {ms : List CampaignControl} (h : Moves cfg campaigns i a p c p' c' ms)
    (hc : Sound cfg i p c) :
    ms.count (cfg.message i) + c.executed = c'.executed ∧ ∀ m ∈ ms, m = cfg.message i := by
  cases h with
  | send =>
    have hzero : c.sent = 0 := hc.unsent (.inr (.inl rfl))
    rcases hc.executed with h | rfl
    · exact ⟨by simp only [List.count_nil]; omega, by simp⟩
    · exact ⟨rfl, by simp⟩
  | execute => exact ⟨by simp [Nat.add_comm], by simp⟩
  | late => exact ⟨by simp [Nat.add_comm], by simp⟩
  | _ => exact ⟨by simp, by simp⟩

theorem Coherent.step [DecidableEq ι] (hids : Function.Injective cfg.message) {a : ControlAction ι}
    (h : Coherent cfg s) (hs : s.step cfg a = some s') : Coherent cfg s' := by
  rcases step_cases hs with
    ⟨i, ⟨ms, hmoves, hpushes⟩, hothers, _⟩ | ⟨⟨hphase, hcommands, hpushes⟩, _⟩
  · obtain ⟨hcount, hms⟩ := hmoves.count (h.sound i)
    refine ⟨fun j => ?_, fun j => ?_, fun m hm => ?_⟩
    · by_cases hj : j = i
      · subst hj
        exact (h.sound j).moves hmoves
      · rw [(hothers j hj).1, (hothers j hj).2]
        exact h.sound j
    -- no other request has the message that is pushed
    · rw [hpushes, List.count_append, h.count]
      by_cases hj : j = i
      · subst hj
        rw [Nat.add_comm]
        exact hcount
      · rw [(hothers j hj).2, List.count_eq_zero.mpr, Nat.add_zero]
        exact fun hmem => hj (hids (hms _ hmem))
    · rw [hpushes, List.mem_append] at hm
      rcases hm with hm | hm
      · exact h.messages m hm
      · exact ⟨i, hms m hm⟩
  · refine ⟨fun j => ?_, fun j => ?_, fun m hm => ?_⟩
    · rw [hphase, hcommands]
      exact h.sound j
    · rw [hpushes, hcommands]
      exact h.count j
    · rw [hpushes] at hm
      exact h.messages m hm

/-! ## What the scheduler gets -/

/-- What the requests were told holds of the messages that were pushed, and the
client is made once at most, not at all when `lifespan` has set it. -/
structure Delivered (cfg : Setting ι) (redis : Bool) (s : Control ι) : Prop where
  messages : ∀ m ∈ s.pushes, ∃ i, m = cfg.message i
  accepted : ∀ i q, s.phase i = .answered (.ok q) →
    q = ⟨(cfg.message i).messageId, true⟩ ∧ cfg.message i ∈ s.pushes
  refused : ∀ i, s.phase i = .answered (.error (notFound "campaign_not_found")) →
    cfg.message i ∉ s.pushes
  copies : ∀ i, s.pushes.count (cfg.message i) ≤ cfg.retries + 1
  clients : s.clients ≤ if redis then 0 else 1

theorem Coherent.delivered {redis : Bool} (h : Coherent cfg s)
    (hclients : s.clients ≤ if redis then 0 else 1) : Delivered cfg redis s where
  messages := h.messages
  accepted := by
    intro i q hi
    refine ⟨(h.sound i).answer q hi, List.count_pos_iff.mp ?_⟩
    rw [h.count]
    exact (h.sound i).accepted (.inr ⟨q, hi⟩)
  refused := by
    intro i hi
    refine List.count_eq_zero.mp ?_
    rw [h.count]
    have hsent := (h.sound i).unsent (.inr (.inr hi))
    have hle := (h.sound i).executed_le
    omega
  copies := by
    intro i
    rw [h.count]
    exact (h.sound i).executed_le.trans (h.sound i).sent
  clients := hclients

section Runs

variable [DecidableEq ι]

/-- A client is made where there is none. -/
theorem clients_step {redis : Bool} {a : ControlAction ι} (hs : s.step cfg a = some s')
    (h : s.clients ≤ (if redis then 0 else 1) ∧
      (s.redis = false → redis = false ∧ s.clients = 0)) :
    s'.clients ≤ (if redis then 0 else 1) ∧
      (s'.redis = false → redis = false ∧ s'.clients = 0) := by
  obtain ⟨hle, hnone⟩ := h
  have hclient : (s'.redis = s.redis ∧ s'.clients = s.clients) ∨
      (s.redis = false ∧ s'.redis = true ∧ s'.clients = s.clients + 1) := by
    rcases step_cases hs with ⟨i, hmoved⟩ | ⟨_, hsame⟩
    · exact hmoved.client
    · exact .inl hsame
  rcases hclient with ⟨hredis, hclients⟩ | ⟨hredis, hredis', hclients⟩
  · rw [hredis, hclients]
    exact ⟨hle, hnone⟩
  · obtain ⟨rfl, hzero⟩ := hnone hredis
    rw [hclients, hzero, hredis']
    exact ⟨le_rfl, by simp⟩

theorem coherent_always (hids : Function.Injective cfg.message) (campaigns : List Int)
    (redis : Bool) (as : List (ControlAction ι)) :
    Always (Control.step cfg) (Coherent cfg) (Control.start campaigns redis) as :=
  always_of_step (fun _ _ _ h hs => h.step hids hs) (coherent_start campaigns redis) as

/-- **Control messages are delivered** as the answers say, in every interleaving
of any number of requests with the executions, failures and deletions around
them. -/
theorem control_delivered (hids : Function.Injective cfg.message) (campaigns : List Int)
    (redis : Bool) (as : List (ControlAction ι)) :
    Always (Control.step cfg) (Delivered cfg redis) (Control.start campaigns redis) as := by
  have hinv : Always (Control.step cfg)
      (fun s => Coherent cfg s ∧ s.clients ≤ (if redis then 0 else 1) ∧
        (s.redis = false → redis = false ∧ s.clients = 0))
      (Control.start campaigns redis) as := by
    refine always_of_step ?_ ⟨coherent_start campaigns redis, Nat.zero_le _, ?_⟩ as
    · rintro s a s' ⟨h, hclients⟩ hs
      exact ⟨h.step hids hs, clients_step hs hclients⟩
    · exact fun hredis => ⟨hredis, rfl⟩
  exact hinv.mono fun s h => h.1.delivered h.2.1

/-- Campaign 1 is started and paused; the client does not send twice. -/
def startThenPause : Setting (Fin 2) where
  message
    | 0 => ⟨.start, 1, "a"⟩
    | 1 => ⟨.pause, 1, "b"⟩
  retries := 0
  redisUrl := true

theorem startThenPause_injective : Function.Injective startThenPause.message := by decide

/-- The reply to the pause is lost. -/
theorem control_delivered_startThenPause :
    Always (Control.step startThenPause) (Delivered startThenPause false)
      (Control.start [1] false)
      [.lookup 0, .enqueue 0, .execute 0, .reply 0, .respond 0, .lookup 1, .enqueue 1, .fail 1,
        .delete 1, .execute 1] :=
  control_delivered startThenPause_injective [1] false _

/-- What was pushed stays where it is. -/
theorem pushes_exec {as : List (ControlAction ι)} (h : exec (Control.step cfg) s as = some t) :
    ∃ ms, t.pushes = s.pushes ++ ms := by
  refine exec_of_step (I := fun t => ∃ ms, t.pushes = s.pushes ++ ms) ?_
    ⟨[], (List.append_nil _).symm⟩ h
  rintro t a t' ⟨ms, hms⟩ hs
  rcases step_cases hs with ⟨i, ⟨vs, _, hpushes⟩, _⟩ | ⟨⟨_, _, hpushes⟩, _⟩
  · exact ⟨ms ++ vs, by rw [hpushes, hms, List.append_assoc]⟩
  · exact ⟨ms, hpushes.trans hms⟩

/-- **Control messages keep their order.** Whoever asks after another request was
accepted is behind it on the list; with a client that sends every command once,
nothing of the other comes later. -/
theorem control_ordered (hids : Function.Injective cfg.message) {campaigns : List Int}
    {redis : Bool} {as bs : List (ControlAction ι)} {i j : ι} {q : Queued}
    (hs : exec (Control.step cfg) (Control.start campaigns redis) as = some s)
    (hi : s.phase i = .answered (.ok q)) (hj : s.phase j = .received)
    (ht : exec (Control.step cfg) s bs = some t) :
    ∃ first rest, t.pushes = first ++ rest ∧ cfg.message i ∈ first ∧ cfg.message j ∉ first ∧
      (cfg.retries = 0 → cfg.message i ∉ rest) := by
  have hcoherent : Coherent cfg s := (coherent_always hids campaigns redis as).last hs
  obtain ⟨ms, hms⟩ := pushes_exec ht
  have hfirst : 0 < s.pushes.count (cfg.message i) := by
    rw [hcoherent.count]
    exact (hcoherent.sound i).accepted (.inr ⟨q, hi⟩)
  refine ⟨s.pushes, ms, hms, List.count_pos_iff.mp hfirst, ?_, fun honce => ?_⟩
  · refine List.count_eq_zero.mp ?_
    rw [hcoherent.count]
    have hsent := (hcoherent.sound j).unsent (.inl hj)
    have hle := (hcoherent.sound j).executed_le
    omega
  · have hend : Coherent cfg t :=
      exec_of_step (fun _ _ _ h hs => h.step hids hs) hcoherent ht
    have hcount := hend.count i
    have hle := (hend.sound i).executed_le.trans (hend.sound i).sent
    rw [hms, List.count_append] at hcount
    refine List.count_eq_zero.mp ?_
    omega

/-- The start is accepted; then the pause is sent. -/
theorem control_ordered_startThenPause :
    ∃ s t, exec (Control.step startThenPause) (Control.start [1] false)
        [.lookup 0, .enqueue 0, .execute 0, .reply 0, .respond 0] = some s ∧
      exec (Control.step startThenPause) s [.lookup 1, .enqueue 1, .execute 1, .pop] = some t ∧
      ∃ first rest, t.pushes = first ++ rest ∧ startThenPause.message 0 ∈ first ∧
        startThenPause.message 1 ∉ first ∧
        (startThenPause.retries = 0 → startThenPause.message 0 ∉ rest) := by
  refine ⟨_, _, rfl, rfl, ?_⟩
  exact @control_ordered (Fin 2) startThenPause _ _ _ startThenPause_injective [1] false
    [.lookup 0, .enqueue 0, .execute 0, .reply 0, .respond 0]
    [.lookup 1, .enqueue 1, .execute 1, .pop] 0 1 ⟨"a", true⟩ rfl rfl rfl rfl

/-- Where in a run a request was looked up. -/
theorem lookup_of_exec {campaigns : List Int} {redis : Bool} {as : List (ControlAction ι)}
    (h : exec (Control.step cfg) (Control.start campaigns redis) as = some t) {i : ι}
    (hi : LookedUp (t.phase i) (t.commands i)) :
    ∃ pre post mid, as = pre ++ .lookup i :: post ∧
      exec (Control.step cfg) (Control.start campaigns redis) pre = some mid ∧
      mid.phase i = .received ∧ (cfg.message i).campaignId ∈ mid.campaigns := by
  induction as using List.reverseRecOn generalizing t with
  | nil =>
    cases h
    rcases hi with h | h | h
    · cases h
    · cases h
    · exact absurd h (Nat.lt_irrefl 0)
  | append_singleton as a ih =>
    obtain ⟨s, hs, hlast⟩ := exec_append.mp h
    obtain ⟨t', hstep, hend⟩ := exec_cons.mp hlast
    cases hend
    have hearlier : LookedUp (s.phase i) (s.commands i) ∨
        (a = .lookup i ∧ s.phase i = .received ∧
          (cfg.message i).campaignId ∈ s.campaigns) := by
      rcases step_cases hstep with ⟨j, ⟨ms, hmoves, _⟩, hothers, _⟩ | ⟨⟨hphase, hcommands, _⟩, _⟩
      · by_cases hij : i = j
        · subst hij
          exact hmoves.lookedUp hi
        · rw [(hothers i hij).1, (hothers i hij).2] at hi
          exact .inl hi
      · rw [hphase, hcommands] at hi
        exact .inl hi
    rcases hearlier with hlooked | ⟨rfl, hnow⟩
    · obtain ⟨pre, post, mid, rfl, hmid⟩ := ih hs hlooked
      exact ⟨pre, post ++ [a], mid, List.append_assoc .., hmid⟩
    · exact ⟨as, [], s, rfl, hs, hnow⟩

/-- **No message without a campaign.** Each was pushed for a request whose
campaign was there when it was looked up, although it may be gone by the time the
message is pushed. -/
theorem control_found (hids : Function.Injective cfg.message) {campaigns : List Int}
    {redis : Bool} {as : List (ControlAction ι)}
    (h : exec (Control.step cfg) (Control.start campaigns redis) as = some t)
    {m : CampaignControl} (hm : m ∈ t.pushes) :
    ∃ i pre post mid, m = cfg.message i ∧ as = pre ++ .lookup i :: post ∧
      exec (Control.step cfg) (Control.start campaigns redis) pre = some mid ∧
      mid.phase i = .received ∧ m.campaignId ∈ mid.campaigns := by
  have hcoherent : Coherent cfg t := (coherent_always hids campaigns redis as).last h
  obtain ⟨i, rfl⟩ := hcoherent.messages m hm
  have hexecuted := List.count_pos_iff.mpr hm
  rw [hcoherent.count] at hexecuted
  have hsent := hexecuted.trans_le (hcoherent.sound i).executed_le
  obtain ⟨pre, post, mid, has, hmid⟩ := lookup_of_exec h (.inr (.inr hsent))
  exact ⟨i, pre, post, mid, rfl, has, hmid⟩

/-- The campaign is deleted before the message is pushed. -/
theorem control_found_startThenPause :
    ∃ t, exec (Control.step startThenPause) (Control.start [1] false)
        [.lookup 0, .delete 1, .enqueue 0, .execute 0] = some t ∧
      ∃ i pre post mid, (⟨.start, 1, "a"⟩ : CampaignControl) = startThenPause.message i ∧
        [.lookup 0, .delete 1, .enqueue 0, .execute 0] = pre ++ .lookup i :: post ∧
        exec (Control.step startThenPause) (Control.start [1] false) pre = some mid ∧
        mid.phase i = .received ∧ 1 ∈ mid.campaigns :=
  ⟨_, rfl, control_found startThenPause_injective rfl List.mem_cons_self⟩

end Runs

end IsalesApi.Campaigns
