import IsalesApi.Auth.Tokens

/-!
# Which tokens the API accepts

What is signed under the API's secret is kept in a log, and a token that
verifies under it was signed in the log. `verify_jwt` reads the expiry but
neither `aud` nor `scope`, so what is accepted is what has not expired, of
either class.
-/

namespace IsalesApi.Auth

variable {Token : Type} (jwt : Jwt Token)

/-- One call of a signing function. -/
inductive Signing where
  | signJwt (claims : Claims) (ttl : Timedelta) (now : DateTime)
  | mintEdgeToken (edgeDeviceId : String) (ttl : Timedelta) (given : Option String)
      (now : DateTime)

namespace Signing

/-- The call mints an edge token. -/
def IsEdge : Signing → Prop
  | signJwt .. => False
  | mintEdgeToken .. => True

/-- What the call returns. -/
def token (env : Option String) : Signing → Except PyError Token
  | signJwt claims ttl now => Auth.signJwt jwt env claims ttl now
  | mintEdgeToken id ttl given now => Auth.mintEdgeToken jwt env id ttl given now

/-- The claims it signs. -/
def claims : Signing → Except PyError Claims
  | signJwt claims ttl now => frontendClaims claims ttl now
  | mintEdgeToken id ttl _ now => edgeClaims id ttl now

/-- The secret it signs them under. -/
def key (env : Option String) : Signing → Except PyError String
  | signJwt .. => secret env
  | mintEdgeToken _ _ given _ => edgeSecret env given

/-- Its `exp`. -/
def expiry : Signing → Except PyError Int
  | signJwt _ ttl now => (now.add ttl).map DateTime.timestamp
  | mintEdgeToken _ ttl _ now => (now.add ttl).map DateTime.timestamp

/-- The token is what the call returns, and it is signed under the secret the
API verifies with. -/
def Signs (env : Option String) (i : Signing) (token : Token) : Prop :=
  i.token jwt env = .ok token ∧ ∃ s, secret env = .ok s ∧ i.key env = .ok s

/-- What the call signs is still good at this time. -/
def Live (i : Signing) (now : Int) : Prop := ∃ e, i.expiry = .ok e ∧ jwt.live e now = true

end Signing

/-! ## What is assumed of the verification -/

/-- `verify_jwt` checks the expiry of what was encoded under the secret. Where
`sub` is a text and there is no `nbf`, it checks nothing else: in particular it
does not check `aud`. -/
structure Jwt.Checks : Prop where
  rejects : ∀ (c c' : Claims) (s : String) (now e : Int), c.get "exp" = some (.int e) →
    jwt.verify now (jwt.encode c s) s = .ok c' → jwt.live e now = true
  accepts : ∀ (c : Claims) (s : String) (now e : Int) (subject : String),
    c.get "exp" = some (.int e) → c.get "sub" = some (.text subject) → c.get "nbf" = none →
    jwt.live e now = true → jwt.verify now (jwt.encode c s) s = .ok c

/-- No one but the signing functions makes a token that verifies under the
API's secret. -/
def Unforgeable (env : Option String) (log : List Signing) (token : Token) : Prop :=
  ∀ (s : String) (now : Int) (c : Claims), secret env = .ok s →
    jwt.verify now token s = .ok c → ∃ i ∈ log, i.Signs jwt env token

/-! ## What the two acceptance points do -/

section Acceptance

variable {jwt} {env : Option String} {token : Token} {now : Int}

theorem currentUser_ok {c : Claims} :
    currentUser jwt env now token = .ok c ↔
      ∃ s, secret env = .ok s ∧ jwt.verify now token s = .ok c := by
  unfold currentUser
  cases secret env with
  | error e => simp
  | ok s =>
    simp only [Except.ok.injEq, exists_eq_left']
    cases jwt.verify now token s <;> simp

theorem verify_of_verifyTokenOrNone {t : Option Token} {c : Claims}
    (h : verifyTokenOrNone jwt env now t = some c) :
    ∃ token s, t = some token ∧ secret env = .ok s ∧ jwt.verify now token s = .ok c := by
  unfold verifyTokenOrNone at h
  cases t with
  | none => cases h
  | some token =>
    simp only at h
    split at h
    · cases h
    · cases hs : secret env with
      | error e =>
        rw [hs] at h
        cases h
      | ok s =>
        rw [hs] at h
        cases hv : jwt.verify now token s with
        | error msg =>
          simp only [hv, Except.toOption] at h
          cases h
        | ok c' =>
          simp only [hv, Except.toOption, Option.some.injEq] at h
          exact ⟨token, s, rfl, rfl, by rw [hv, h]⟩

variable (jwt env token now)

/-- An HTTP route or the WebSocket takes the token for a user identity. -/
def Accepted : Prop :=
  (∃ c, currentUser jwt env now token = .ok c) ∨
    ∃ c, verifyTokenOrNone jwt env now (some token) = some c

variable {jwt env token now}

/-- What either accepts verifies under the secret, and `current_user` accepts
all that does. -/
theorem accepted_iff :
    Accepted jwt env token now ↔ ∃ s c, secret env = .ok s ∧ jwt.verify now token s = .ok c := by
  constructor
  · rintro (⟨c, h⟩ | ⟨c, h⟩)
    · obtain ⟨s, hs, hv⟩ := currentUser_ok.mp h
      exact ⟨s, c, hs, hv⟩
    · obtain ⟨token', s, heq, hs, hv⟩ := verify_of_verifyTokenOrNone h
      cases heq
      exact ⟨s, c, hs, hv⟩
  · rintro ⟨s, c, hs, hv⟩
    exact Or.inl ⟨c, currentUser_ok.mpr ⟨s, hs, hv⟩⟩

end Acceptance

/-! ## What is in a token -/

section Signed

variable {jwt} {env : Option String} {token : Token} {i : Signing}

theorem map_ok {α β : Type} {f : α → β} {x : Except PyError α} {b : β} (h : x.map f = .ok b) :
    ∃ a, x = .ok a ∧ b = f a := by
  cases x with
  | error e => cases h
  | ok a =>
    cases h
    exact ⟨a, rfl, rfl⟩

theorem bind_ok {α β : Type} {f : α → Except PyError β} {x : Except PyError α} {b : β}
    (h : x >>= f = .ok b) : ∃ a, x = .ok a ∧ f a = .ok b := by
  cases x with
  | error e => cases h
  | ok a => exact ⟨a, rfl, h⟩

/-- A signing call that returns has signed its claims under its secret. -/
theorem Signing.token_ok (h : i.token jwt env = .ok token) :
    ∃ c s, i.claims = .ok c ∧ i.key env = .ok s ∧ token = jwt.encode c s := by
  cases i with
  | signJwt claims ttl now =>
    obtain ⟨c, hc, h⟩ := bind_ok (x := frontendClaims claims ttl now) h
    obtain ⟨s, hs, h⟩ := bind_ok h
    exact ⟨c, s, hc, hs, (Except.ok.inj h).symm⟩
  | mintEdgeToken id ttl given now =>
    change Auth.mintEdgeToken jwt env id ttl given now = .ok token at h
    unfold Auth.mintEdgeToken at h
    simp only at h
    by_cases hid : id = ""
    · rw [if_pos hid] at h
      cases h
    · rw [if_neg hid] at h
      obtain ⟨c, hc, h⟩ := bind_ok (x := edgeClaims id ttl now) h
      obtain ⟨s, hs, h⟩ := bind_ok h
      exact ⟨c, s, hc, hs, (Except.ok.inj h).symm⟩

/-- The claims of either class carry the expiry. -/
theorem Signing.get_exp {c : Claims} (h : i.claims = .ok c) :
    ∃ e, i.expiry = .ok e ∧ c.get "exp" = some (.int e) := by
  cases i with
  | signJwt claims ttl now =>
    obtain ⟨expiry, hadd, rfl⟩ := map_ok (x := now.add ttl) h
    refine ⟨expiry.timestamp, congrArg (Except.map _) hadd, ?_⟩
    rw [Claims.get_set, if_pos rfl]
  | mintEdgeToken id ttl given now =>
    obtain ⟨expiry, hadd, rfl⟩ := map_ok (x := now.add ttl) h
    exact ⟨expiry.timestamp, congrArg (Except.map _) hadd, rfl⟩

theorem edgeClaims_get {id : String} {ttl : Timedelta} {now : DateTime} {c : Claims}
    (h : edgeClaims id ttl now = .ok c) :
    c.get "sub" = some (.text id) ∧ c.get "nbf" = none := by
  obtain ⟨expiry, _, rfl⟩ := map_ok h
  exact ⟨rfl, rfl⟩

end Signed

/-! ## The result -/

section Classes

variable {jwt} {env : Option String} {log : List Signing} {token : Token} {now : Int}

/-- What was signed and is accepted has not expired. -/
theorem live_of_accepted (hjwt : jwt.Checks) {i : Signing} (hi : i.Signs jwt env token)
    (h : Accepted jwt env token now) : i.Live jwt now := by
  obtain ⟨htoken, s, hs, hkey⟩ := hi
  obtain ⟨c, s', hc, hkey', rfl⟩ := Signing.token_ok htoken
  have hss : s' = s := Except.ok.inj (hkey'.symm.trans hkey)
  obtain ⟨s'', c', hs', hv⟩ := accepted_iff.mp h
  have hss' : s'' = s := Except.ok.inj (hs'.symm.trans hs)
  subst hss hss'
  obtain ⟨e, hexpiry, hexp⟩ := Signing.get_exp hc
  exact ⟨e, hexpiry, hjwt.rejects c c' _ now e hexp hv⟩

/-- An edge token under the API's secret is accepted until it expires. -/
theorem accepted_of_live_edge (hjwt : jwt.Checks) {i : Signing} (hedge : i.IsEdge)
    (hi : i.Signs jwt env token) (hlive : i.Live jwt now) : Accepted jwt env token now := by
  obtain ⟨htoken, s, hs, hkey⟩ := hi
  obtain ⟨c, s', hc, hkey', rfl⟩ := Signing.token_ok htoken
  have hss : s' = s := Except.ok.inj (hkey'.symm.trans hkey)
  subst hss
  obtain ⟨e, hexpiry, hexp⟩ := Signing.get_exp hc
  obtain ⟨e', hexpiry', hlive⟩ := hlive
  have hee : e' = e := Except.ok.inj (hexpiry'.symm.trans hexpiry)
  subst hee
  cases i with
  | signJwt claims ttl issued => exact hedge.elim
  | mintEdgeToken id ttl given issued =>
    obtain ⟨hsub, hnbf⟩ := edgeClaims_get hc
    exact accepted_iff.mpr ⟨s', c, hs, hjwt.accepts c s' now e' id hexp hsub hnbf hlive⟩

variable (jwt env log token now)

/-- The classes are separate at a token and a time: an edge token is not
accepted, and what is accepted was signed by `sign_jwt` and has not expired. -/
def Separate : Prop :=
  (∀ i ∈ log, i.IsEdge → i.Signs jwt env token → ¬ Accepted jwt env token now) ∧
    (Accepted jwt env token now →
      ∃ i ∈ log, ¬ i.IsEdge ∧ i.Signs jwt env token ∧ i.Live jwt now)

/-- The token is an edge token under the API's secret that has not expired. -/
def LiveEdgeToken : Prop := ∃ i ∈ log, i.IsEdge ∧ i.Signs jwt env token ∧ i.Live jwt now

end Classes

/-- **The classes are separate exactly where no live edge token is presented**:
every live edge token is accepted, and nothing else breaks the separation. -/
theorem separate_iff_no_liveEdgeToken (jwt : Jwt Token) (hjwt : jwt.Checks)
    (env : Option String) (log : List Signing) (token : Token)
    (hforge : Unforgeable jwt env log token) (now : Int) :
    Separate jwt env log token now ↔ ¬ LiveEdgeToken jwt env log token now := by
  constructor
  · rintro ⟨hedges, _⟩ ⟨i, hi, hedge, hsigns, hlive⟩
    exact hedges i hi hedge hsigns (accepted_of_live_edge hjwt hedge hsigns hlive)
  · intro hno
    have hexpired : ∀ i ∈ log, i.IsEdge → i.Signs jwt env token →
        ¬ Accepted jwt env token now := by
      intro i hi hedge hsigns haccepted
      exact hno ⟨i, hi, hedge, hsigns, live_of_accepted hjwt hsigns haccepted⟩
    refine ⟨hexpired, fun haccepted => ?_⟩
    obtain ⟨s, c, hs, hv⟩ := accepted_iff.mp haccepted
    obtain ⟨i, hi, hsigns⟩ := hforge s now c hs hv
    exact ⟨i, hi, fun hedge => hexpired i hi hedge hsigns haccepted, hsigns,
      live_of_accepted hjwt hsigns haccepted⟩

/-! ## A presented edge token -/

/-- Tokens that carry their claims and the secret they are signed under. -/
def carried : Jwt (Claims × String) where
  encode := fun c s => (c, s)
  verify := fun now token s =>
    if token.2 ≠ s then .error "Signature verification failed."
    else
      match token.1.get "exp" with
      | some (.int e) => if e < now then .error "Signature has expired." else .ok token.1
      | _ => .ok token.1
  live := fun e now => !decide (e < now)
  blank := fun _ => false

theorem carried_checks : carried.Checks := by
  refine ⟨?_, ?_⟩
  · intro c c' s now e hexp hv
    simp only [carried, ne_eq, not_true_eq_false, if_false, hexp] at hv ⊢
    split at hv
    · cases hv
    · rename_i hlive
      simpa using hlive
  · intro c s now e subject hexp _ _ hlive
    simp only [carried, Bool.not_eq_true', decide_eq_false_iff_not] at hlive
    simp only [carried, ne_eq, not_true_eq_false, if_false, hexp, if_neg hlive]

/-- 2026-05-15. -/
def issueTime : DateTime := ⟨1778803200000000, by decide, by decide⟩

/-- One edge token, for a year. -/
def edgeLog : List Signing := [.mintEdgeToken "edge-01" (365 * 86400000000) none issueTime]

def edgeToken : Claims × String :=
  ([("sub", .text "edge-01"), ("aud", .text "cloud-edge"), ("scope", .text "edge"),
    ("iat", .int 1778803200), ("exp", .int 1810339200)], "test-shared-secret")

theorem signs_edgeToken : ∀ i ∈ edgeLog, i.IsEdge ∧
    i.Signs carried (some "test-shared-secret") edgeToken ∧ i.Live carried 1778803201 := by
  intro i hi
  rw [List.mem_singleton.mp hi]
  exact ⟨trivial, ⟨rfl, "test-shared-secret", rfl, rfl⟩, 1810339200, rfl, rfl⟩

/-- A fresh edge token is a user identity. -/
theorem edgeToken_is_accepted :
    ¬ Separate carried (some "test-shared-secret") edgeLog edgeToken 1778803201 := by
  rintro ⟨hedges, _⟩
  have hi : edgeLog.head (by decide) ∈ edgeLog := List.head_mem _
  obtain ⟨hedge, hsigns, hlive⟩ := signs_edgeToken _ hi
  exact hedges _ hi hedge hsigns (accepted_of_live_edge carried_checks hedge hsigns hlive)

/-- A token signed for a login. -/
def loginLog : List Signing :=
  .signJwt [("sub", .text "admin"), ("role", .text "admin")] 86400000000 issueTime :: edgeLog

def loginToken : Claims × String :=
  ([("sub", .text "admin"), ("role", .text "admin"), ("iat", .int 1778803200),
    ("exp", .int 1778889600)], "test-shared-secret")

theorem separate_iff_no_liveEdgeToken_login :
    Separate carried (some "test-shared-secret") loginLog loginToken 1778803201 ↔
      ¬ LiveEdgeToken carried (some "test-shared-secret") loginLog loginToken 1778803201 := by
  refine separate_iff_no_liveEdgeToken carried carried_checks _ loginLog loginToken ?_ 1778803201
  intro s now c hs hv
  exact ⟨_, List.mem_cons_self, rfl, s, hs, hs⟩

end IsalesApi.Auth
