import IsalesApi.Auth.Separation

/-!
# Who is let in

`/auth/login` checks a name and a password against two variables and signs a
token, `/auth/me` gives back the claims of a token that verifies. Over any
history of logins and of edge tokens minted beside it, what `me` answers to a
token at a time is decided by the event the token comes from: a login with the
right password, or an edge token under the same secret, as long as it is good.
-/

namespace IsalesApi.Auth

/-- The variables the code reads. -/
structure Environ where
  adminUser : Option String
  adminPasswordHash : Option String
  jwtSecret : Option String

/-- What `bcrypt.checkpw` raises. -/
inductive CheckError where
  | valueError
  | typeError
  | other
deriving DecidableEq

variable {Token : Type} (jwt : Jwt Token) (checkpw : String → String → Except CheckError Bool)

/-! ## `auth/users.py` and `auth/router.py` -/

/-- `authenticate`. -/
def authenticate (env : Environ) (username password : String) : Except CheckError Bool :=
  match env.adminUser, env.adminPasswordHash with
  | some expectedUser, some expectedHash =>
    if expectedUser = "" ∨ expectedHash = "" then .ok false
    else if username ≠ expectedUser then .ok false
    else
      match checkpw password expectedHash with
      | .ok matched => .ok matched
      | .error .other => .error .other
      | .error _ => .ok false
  | _, _ => .ok false

/-- `DEFAULT_TTL`. -/
def defaultTtl : Timedelta := 24 * 60 * 60 * 1000000

structure TokenResponse (Token : Type) where
  accessToken : Token
  tokenType : String

/-- The claims a login is signed with. -/
def loginClaims (username : String) : Claims := [("sub", .text username), ("role", .text "admin")]

/-- `login`. -/
def login (env : Environ) (username password : String) (now : DateTime) :
    Except HttpException (TokenResponse Token) :=
  match authenticate checkpw env username password with
  | .error _ => .error internalServerError
  | .ok false => .error ⟨401, "invalid_credentials"⟩
  | .ok true =>
    match signJwt jwt env.jwtSecret (loginClaims username) defaultTtl now with
    | .error _ => .error internalServerError
    | .ok token => .ok ⟨token, "bearer"⟩

/-- `me`. -/
def me (env : Environ) (now : Int) (token : Token) : Except HttpException Claims :=
  currentUser jwt env.jwtSecret now token

/-! ## Histories -/

/-- A login, or a run of the command that mints edge tokens. -/
inductive Event where
  | login (username password : String) (now : DateTime)
  | mint (edgeDeviceId : String) (ttl : Timedelta) (given : Option String) (now : DateTime)

namespace Event

/-- The token it hands out. -/
def token (env : Environ) : Event → Option Token
  | .login username password now =>
    (Auth.login jwt checkpw env username password now).toOption.map TokenResponse.accessToken
  | .mint id ttl given now => (mintEdgeToken jwt env.jwtSecret id ttl given now).toOption

/-- The call that signs it. -/
def signing : Event → Signing
  | .login username _ now => .signJwt (loginClaims username) defaultTtl now
  | .mint id ttl given now => .mintEdgeToken id ttl given now

end Event

/-- The calls that have signed a token. -/
def signings (env : Environ) (events : List Event) : List Signing :=
  (events.filter fun e => (e.token jwt checkpw env).isSome).map Event.signing

/-- The password is that of the admin. -/
def IsAdmin (env : Environ) (username password : String) : Prop :=
  env.adminUser = some username ∧ username ≠ "" ∧
    ∃ hash, env.adminPasswordHash = some hash ∧ hash ≠ "" ∧ checkpw password hash = .ok true

/-- What gives a token its claims at a time. -/
inductive Granted (env : Environ) (events : List Event) (token : Token) (t : Int) (c : Claims) :
    Prop where
  | login (username password : String) (now : DateTime)
      (hmem : Event.login username password now ∈ events)
      (hadmin : IsAdmin checkpw env username password)
      (htoken : signJwt jwt env.jwtSecret (loginClaims username) defaultTtl now = .ok token)
      (hclaims : frontendClaims (loginClaims username) defaultTtl now = .ok c)
      (hlive : (Signing.signJwt (loginClaims username) defaultTtl now).Live jwt t)
  | edge (id : String) (ttl : Timedelta) (given : Option String) (now : DateTime)
      (hmem : Event.mint id ttl given now ∈ events)
      (hsigns : (Signing.mintEdgeToken id ttl given now).Signs jwt env.jwtSecret token)
      (hclaims : edgeClaims id ttl now = .ok c)
      (hlive : (Signing.mintEdgeToken id ttl given now).Live jwt t)

section Facts

variable {jwt} {checkpw} {env : Environ} {token : Token} {t : Int} {c : Claims}
  {events : List Event}

theorem authenticate_eq_true {username password : String} :
    authenticate checkpw env username password = .ok true ↔
      IsAdmin checkpw env username password := by
  unfold authenticate IsAdmin
  cases env.adminUser with
  | none => simp
  | some expectedUser =>
    cases env.adminPasswordHash with
    | none => simp
    | some expectedHash =>
      by_cases hempty : expectedUser = "" ∨ expectedHash = ""
      · simp only [if_pos hempty, Except.ok.injEq, Bool.false_eq_true, Option.some.injEq, false_iff]
        rintro ⟨rfl, huser, _, rfl, hhash, _⟩
        exact hempty.elim huser hhash
      · dsimp only
        rw [if_neg hempty]
        rw [not_or] at hempty
        by_cases huser : username = expectedUser
        · subst huser
          -- only a check that answers true is a match
          have hcheck : (match checkpw password expectedHash with
              | .ok matched => (.ok matched : Except CheckError Bool)
              | .error .other => .error .other
              | .error _ => .ok false) = .ok true ↔ checkpw password expectedHash = .ok true := by
            cases checkpw password expectedHash with
            | ok matched => simp
            | error e => cases e <;> simp
          simp [hcheck, hempty.1, hempty.2]
        · simp [huser, Ne.symm huser]

theorem login_eq_ok {username password : String} {now : DateTime}
    {response : TokenResponse Token} :
    login jwt checkpw env username password now = .ok response ↔
      IsAdmin checkpw env username password ∧ response.tokenType = "bearer" ∧
        signJwt jwt env.jwtSecret (loginClaims username) defaultTtl now =
          .ok response.accessToken := by
  unfold login
  rw [← authenticate_eq_true]
  obtain ⟨accessToken, tokenType⟩ := response
  cases authenticate checkpw env username password with
  | error e => simp
  | ok matched =>
    cases matched with
    | false => simp
    | true =>
      cases signJwt jwt env.jwtSecret (loginClaims username) defaultTtl now with
      | error e => simp
      | ok token => simp [eq_comm, and_comm]

theorem toOption_eq_some {ε α : Type} {x : Except ε α} {a : α} :
    x.toOption = some a ↔ x = .ok a := by
  cases x <;> simp [Except.toOption]

/-- What an event hands out is what its call signs. -/
theorem Event.token_eq_some {e : Event} :
    e.token jwt checkpw env = some token ↔ e.signing.token jwt env.jwtSecret = .ok token ∧
      ∀ username password now, e = .login username password now →
        IsAdmin checkpw env username password := by
  cases e with
  | login username password now =>
    simp only [Event.token, Option.map_eq_some_iff, toOption_eq_some, login_eq_ok]
    constructor
    · rintro ⟨response, ⟨hadmin, _, hsigned⟩, rfl⟩
      refine ⟨hsigned, ?_⟩
      rintro _ _ _ ⟨⟩
      exact hadmin
    · rintro ⟨hsigned, hadmin⟩
      exact ⟨⟨token, "bearer"⟩, ⟨hadmin _ _ _ rfl, rfl, hsigned⟩, rfl⟩
  | mint id ttl given now =>
    simp only [Event.token, toOption_eq_some]
    constructor
    · intro h
      exact ⟨h, by simp⟩
    · exact And.left

/-- Both kinds of claims have a text for `sub` and no `nbf`. -/
theorem Event.claims_get {e : Event} (h : e.signing.claims = .ok c) :
    (∃ subject, c.get "sub" = some (.text subject)) ∧ c.get "nbf" = none := by
  cases e with
  | login username password now =>
    obtain ⟨expiry, _, rfl⟩ := map_ok h
    refine ⟨⟨username, ?_⟩, ?_⟩
    · rw [Claims.get_set, if_neg (by decide), Claims.get_set, if_neg (by decide)]
      rfl
    · rw [Claims.get_set, if_neg (by decide), Claims.get_set, if_neg (by decide)]
      rfl
  | mint id ttl given now =>
    obtain ⟨hsub, hnbf⟩ := edgeClaims_get h
    exact ⟨⟨id, hsub⟩, hnbf⟩

/-- What was signed verifies with its claims, as long as it is good. -/
theorem me_of_signs (hjwt : jwt.Checks) {e : Event}
    (hsigns : e.signing.Signs jwt env.jwtSecret token) :
    me jwt env t token = .ok c ↔ e.signing.claims = .ok c ∧ e.signing.Live jwt t := by
  obtain ⟨htoken, s, hs, hkey⟩ := hsigns
  obtain ⟨claims, s', hclaims, hkey', rfl⟩ := Signing.token_ok htoken
  have hss : s' = s := Except.ok.inj (hkey'.symm.trans hkey)
  subst hss
  obtain ⟨expiry, hexpiry, hexp⟩ := Signing.get_exp hclaims
  obtain ⟨⟨subject, hsub⟩, hnbf⟩ := Event.claims_get hclaims
  -- the claims have what verify_jwt asks for, so only the time decides
  have hverify : ∀ c', jwt.verify t (jwt.encode claims s') s' = .ok c' ↔
      c' = claims ∧ jwt.live expiry t = true := by
    intro c'
    constructor
    · intro h
      have hlive := hjwt.rejects claims c' s' t expiry hexp h
      have haccepts := hjwt.accepts claims s' t expiry subject hexp hsub hnbf hlive
      exact ⟨Except.ok.inj (h.symm.trans haccepts), hlive⟩
    · rintro ⟨rfl, hlive⟩
      exact hjwt.accepts c' s' t expiry subject hexp hsub hnbf hlive
  have hlive : e.signing.Live jwt t ↔ jwt.live expiry t = true := by
    simp [Signing.Live, hexpiry]
  rw [me, currentUser_ok, hclaims, hlive]
  constructor
  · rintro ⟨s, hs', h⟩
    obtain rfl : s = s' := Except.ok.inj (hs'.symm.trans hs)
    obtain ⟨hc, hgood⟩ := (hverify c).mp h
    exact ⟨congrArg Except.ok hc.symm, hgood⟩
  · rintro ⟨hc, h⟩
    exact ⟨s', hs, (hverify c).mpr ⟨(Except.ok.inj hc).symm, h⟩⟩

theorem granted_iff : Granted jwt checkpw env events token t c ↔
    ∃ e ∈ events, e.token jwt checkpw env = some token ∧
      e.signing.Signs jwt env.jwtSecret token ∧ e.signing.claims = .ok c ∧
      e.signing.Live jwt t := by
  constructor
  · rintro (⟨username, password, now, hmem, hadmin, htoken, hclaims, hlive⟩ |
      ⟨id, ttl, given, now, hmem, hsigns, hclaims, hlive⟩)
    · have hissued : (Event.login username password now).token jwt checkpw env = some token := by
        refine Event.token_eq_some.mpr ⟨htoken, ?_⟩
        rintro _ _ _ ⟨⟩
        exact hadmin
      obtain ⟨_, s, _, hkey, _⟩ := Signing.token_ok
        (i := .signJwt (loginClaims username) defaultTtl now) htoken
      exact ⟨_, hmem, hissued, ⟨htoken, s, hkey, hkey⟩, hclaims, hlive⟩
    · exact ⟨_, hmem, Event.token_eq_some.mpr ⟨hsigns.1, by simp⟩, hsigns, hclaims, hlive⟩
  · rintro ⟨e, hmem, hissued, hsigns, hclaims, hlive⟩
    cases e with
    | login username password now =>
      have hadmin := (Event.token_eq_some.mp hissued).2 _ _ _ rfl
      exact .login username password now hmem hadmin hsigns.1 hclaims hlive
    | mint id ttl given now => exact .edge id ttl given now hmem hsigns hclaims hlive

/-- What verifies was handed out by an event that grants it. -/
theorem granted_of_verifies (hjwt : jwt.Checks)
    (hforge : Unforgeable jwt env.jwtSecret (signings jwt checkpw env events) token)
    (h : me jwt env t token = .ok c) : Granted jwt checkpw env events token t c := by
  obtain ⟨s, hs, hv⟩ := currentUser_ok.mp h
  obtain ⟨i, hi, hsigns⟩ := hforge s t c hs hv
  obtain ⟨e, he, rfl⟩ := List.mem_map.mp hi
  obtain ⟨hmem, hissued⟩ := List.mem_filter.mp he
  obtain ⟨token', hissued⟩ := Option.isSome_iff_exists.mp hissued
  have hsame : token' = token :=
    Except.ok.inj ((Event.token_eq_some.mp hissued).1.symm.trans hsigns.1)
  subst hsame
  obtain ⟨hclaims, hlive⟩ := (me_of_signs hjwt hsigns).mp h
  exact granted_iff.mpr ⟨e, hmem, hissued, hsigns, hclaims, hlive⟩

end Facts

/-- **`me` knows who holds the token**: over any history, it answers the claims of
the login or the edge token that the token comes from, while that is good, and
nothing else. -/
theorem me_iff_granted (jwt : Jwt Token) (hjwt : jwt.Checks)
    (checkpw : String → String → Except CheckError Bool) (env : Environ) (events : List Event)
    (token : Token)
    (hforge : Unforgeable jwt env.jwtSecret (signings jwt checkpw env events) token)
    (t : Int) (c : Claims) :
    me jwt env t token = .ok c ↔ Granted jwt checkpw env events token t c := by
  constructor
  · exact granted_of_verifies hjwt hforge
  · intro h
    obtain ⟨e, _, _, hsigns, hclaims, hlive⟩ := granted_iff.mp h
    exact (me_of_signs hjwt hsigns).mpr ⟨hclaims, hlive⟩

/-- One wrong password, one right. -/
def twoLogins : List Event :=
  [.login "admin" "guess" issueTime, .login "admin" "changeme" issueTime]

def adminEnv : Environ := ⟨some "admin", some "$changeme", some "test-shared-secret"⟩

/-- A hash is the password behind a dollar sign. -/
def checkDollar (password hash : String) : Except CheckError Bool := .ok (hash = "$" ++ password)

/-- The log knows of the login. -/
theorem unforgeable_loginToken : Unforgeable carried adminEnv.jwtSecret
    (signings carried checkDollar adminEnv twoLogins) loginToken := by
  intro s now c hs hv
  have hmem : (twoLogins[1]).signing ∈ signings carried checkDollar adminEnv twoLogins := by
    refine List.mem_map_of_mem (List.mem_filter.mpr ⟨List.getElem_mem _, rfl⟩)
  exact ⟨_, hmem, rfl, s, hs, hs⟩

theorem me_iff_granted_twoLogins :
    me carried adminEnv 1778803201 loginToken = .ok loginToken.1 ↔
      Granted carried checkDollar adminEnv twoLogins loginToken 1778803201 loginToken.1 :=
  me_iff_granted carried carried_checks checkDollar adminEnv twoLogins loginToken
    unforgeable_loginToken _ _

end IsalesApi.Auth
