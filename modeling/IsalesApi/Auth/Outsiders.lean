import IsalesApi.Auth.Login
import IsalesApi.Foundation.Replies
import IsalesApi.Leads.Handlers

/-!
# Requests without a good token

Every handler of the routers depends on `current_user`; `/auth/login` and
`/health` are the only endpoints that do not, and the WebSocket checks its token
by itself. So a router is served behind the check of the bearer token: a request
gets to its handler with a token that verifies, and is answered with an error
otherwise. Whoever has not been let in leaves no trace: the rest of the history
goes on as if they had never called.
-/

namespace IsalesApi.Auth

open Foundation

/-! ## A router behind `current_user` -/

section Router

variable {Token D W K R A : Type} [Store D W K HttpException] (jwt : Jwt Token)
  (checkpw : String → String → Except CheckError Bool) (env : Environ)
  (handler : R → Prog D W HttpException A)

/-- What `OAuth2PasswordBearer` raises when there is no `Authorization: Bearer`. -/
def notAuthenticated : HttpException := ⟨401, "Not authenticated"⟩

/-- What `Depends(current_user)` gives for the token of a request. -/
def dependCurrentUser (token : Option Token) (t : Int) : Except HttpException Claims :=
  match token with
  | none => .error notAuthenticated
  | some token => currentUser jwt env.jwtSecret t token

/-- A login or a minted token, or a request to the router with its token and the
time at which it is checked. -/
inductive Call (Token R : Type) where
  | event (e : Event)
  | request (token : Option Token) (t : Int) (r : R)

inductive Reply (Token A : Type) where
  | handedOut (token : Option Token)
  | answered (answer : Except HttpException A)

/-- The logins and minted tokens so far, and the database. -/
structure World (D : Type) where
  events : List Event
  db : D

/-- One call; a request that is turned away does not get to its handler. -/
def World.respond (w : World D) : Call Token R → Reply Token A × World D
  | .event e => (.handedOut (e.token jwt checkpw env), { w with events := w.events ++ [e] })
  | .request token t r =>
    match dependCurrentUser jwt env token t with
    | .error exc => (.answered (.error exc), w)
    | .ok _ =>
      (.answered ((handler r).session w.db).1, { w with db := ((handler r).session w.db).2 })

/-- The call is not turned away. -/
def GetsIn (jwt : Jwt Token) (env : Environ) (_ : World D) : Call Token R → Prop
  | .event _ => True
  | .request token t _ => ∃ c, dependCurrentUser jwt env token t = .ok c

/-- Logins, and the requests whose token a login with the admin's password or a
minted edge token has given, while it is good. -/
def LetIn (w : World D) : Call Token R → Prop
  | .event _ => True
  | .request token t _ => ∃ bearer c, token = some bearer ∧
      Granted jwt checkpw env w.events bearer t c

/-- `ISALES_JWT_SECRET` is not set, or is empty. -/
def NoSecret (env : Environ) : Prop := env.jwtSecret = none ∨ env.jwtSecret = some ""

instance (env : Environ) : Decidable (NoSecret env) := inferInstanceAs (Decidable (_ ∨ _))

/-- How a request with this token is refused: with 401, or with 500 where there
is a token and no secret to check it with. -/
def Refusal {Token : Type} (env : Environ) (token : Option Token) (exc : HttpException) : Prop :=
  if token.isSome ∧ NoSecret env then exc = internalServerError else exc.status = 401

/-- No token is presented that verifies and was not handed out before. -/
def NothingForged (events : List Event) : List (Call Token R) → Prop
  | [] => True
  | .event e :: calls => NothingForged (events ++ [e]) calls
  | .request token _ _ :: calls =>
    (∀ bearer ∈ token, Unforgeable jwt env.jwtSecret (signings jwt checkpw env events) bearer) ∧
      NothingForged events calls

end Router

/-! ## Who is turned away -/

section Facts

variable {Token D W K R A : Type} [Store D W K HttpException] {jwt : Jwt Token}
  {checkpw : String → String → Except CheckError Bool} {env : Environ}
  {handler : R → Prog D W HttpException A} {w : World D}

theorem letIn_iff {token : Option Token} {t : Int} {r : R} (hjwt : jwt.Checks)
    (hforge : ∀ bearer ∈ token,
      Unforgeable jwt env.jwtSecret (signings jwt checkpw env w.events) bearer) :
    LetIn jwt checkpw env w (.request token t r) ↔
      ∃ c, dependCurrentUser jwt env token t = .ok c := by
  cases token with
  | none =>
    refine iff_of_false ?_ ?_
    · rintro ⟨_, _, ⟨⟩, _⟩
    · rintro ⟨_, ⟨⟩⟩
  | some bearer =>
    constructor
    · rintro ⟨_, c, ⟨⟩, hgranted⟩
      obtain ⟨e, _, _, hsigns, hclaims, hlive⟩ := granted_iff.mp hgranted
      exact ⟨c, (me_of_signs hjwt hsigns).mpr ⟨hclaims, hlive⟩⟩
    · rintro ⟨c, hc⟩
      exact ⟨bearer, c, rfl, granted_of_verifies hjwt (hforge bearer rfl) hc⟩

theorem respond_getsIn {token : Option Token} {t : Int} {r : R} {c : Claims}
    (h : dependCurrentUser jwt env token t = .ok c) :
    w.respond jwt checkpw env handler (.request token t r) =
      (.answered ((handler r).session w.db).1, { w with db := ((handler r).session w.db).2 }) := by
  simp only [World.respond, h]

theorem respond_turnedAway {token : Option Token} {t : Int} {r : R} {exc : HttpException}
    (h : dependCurrentUser jwt env token t = .error exc) :
    w.respond jwt checkpw env handler (.request token t r) = (.answered (.error exc), w) := by
  simp only [World.respond, h]

/-- A secret is missing exactly where `_secret()` raises. -/
theorem secret_eq_error {e : PyError} (h : secret env.jwtSecret = .error e) : NoSecret env := by
  unfold secret at h
  split at h
  · exact .inl ‹_›
  · split at h
    · rename_i key hset hempty
      exact .inr (hset.trans (congrArg some hempty))
    · cases h

theorem not_noSecret {key : String} (h : secret env.jwtSecret = .ok key) : ¬ NoSecret env := by
  rintro (hnone | hempty)
  · rw [hnone] at h
    cases h
  · rw [hempty] at h
    cases h

theorem dependCurrentUser_refusal {token : Option Token} {t : Int} {exc : HttpException}
    (h : dependCurrentUser jwt env token t = .error exc) : Refusal env token exc := by
  cases token with
  | none =>
    cases h
    rw [Refusal, if_neg (by simp)]
    rfl
  | some bearer =>
    simp only [dependCurrentUser, currentUser] at h
    unfold Refusal
    split at h
    · rename_i hsecret
      cases h
      rw [if_pos ⟨rfl, secret_eq_error hsecret⟩]
    · rename_i key hsecret
      rw [if_neg fun hboth => not_noSecret hsecret hboth.2]
      split at h
      · cases h
      · cases h
        rfl

/-- Who does not get in leaves no trace. -/
theorem respond_of_not_getsIn {call : Call Token R} (h : ¬ GetsIn jwt env w call) :
    (w.respond jwt checkpw env handler call).2 = w := by
  cases call with
  | event e => exact absurd trivial h
  | request token t r =>
    cases hdepend : dependCurrentUser jwt env token t with
    | error exc => rw [respond_turnedAway hdepend]
    | ok c => exact absurd ⟨c, hdepend⟩ h

theorem events_respond_request {token : Option Token} {t : Int} {r : R} :
    (w.respond jwt checkpw env handler (.request token t r)).2.events = w.events := by
  cases hdepend : dependCurrentUser jwt env token t with
  | error exc => rw [respond_turnedAway hdepend]
  | ok c => rw [respond_getsIn hdepend]

theorem NothingForged.next {call : Call Token R} {calls : List (Call Token R)}
    (h : NothingForged jwt checkpw env w.events (call :: calls)) :
    NothingForged jwt checkpw env (w.respond jwt checkpw env handler call).2.events calls := by
  cases call with
  | event e => exact h
  | request token t r =>
    rw [events_respond_request]
    exact h.2

theorem NothingForged.letIn_iff (hjwt : jwt.Checks) {call : Call Token R}
    {calls : List (Call Token R)} (h : NothingForged jwt checkpw env w.events (call :: calls)) :
    LetIn jwt checkpw env w call ↔ GetsIn jwt env w call := by
  cases call with
  | event e => exact Iff.rfl
  | request token t r => exact Auth.letIn_iff hjwt h.1

theorem NothingForged.after {pre post : List (Call Token R)}
    (h : NothingForged jwt checkpw env w.events (pre ++ post)) :
    NothingForged jwt checkpw env
      (converse (World.respond jwt checkpw env handler) w pre).2.events post := by
  induction pre generalizing w with
  | nil => exact h
  | cons call pre ih => exact ih h.next

end Facts

section Unseen

variable {Token D W K R A : Type} [Store D W K HttpException] (jwt : Jwt Token)
  (checkpw : String → String → Except CheckError Bool) (env : Environ)
  (handler : R → Prog D W HttpException A) (db : D) (calls : List (Call Token R))

open Classical in
/-- The calls of those who are let in, each judged by what was handed out before. -/
noncomputable def insiders : List (Call Token R) :=
  sift (World.respond jwt checkpw env handler) (LetIn jwt checkpw env) ⟨[], db⟩ calls

/-- The replies to a list of calls, and what they leave. -/
def served : List (Reply Token A) × World D :=
  converse (World.respond jwt checkpw env handler) ⟨[], db⟩ calls

/-- The insiders are answered, and leave the world, as when they call alone; the
others are turned away. -/
structure Unseen : Prop where
  world : (served jwt checkpw env handler db (insiders jwt checkpw env handler db calls)).2 =
    (served jwt checkpw env handler db calls).2
  replies : ((insiders jwt checkpw env handler db calls).zip
      (served jwt checkpw env handler db (insiders jwt checkpw env handler db calls)).1).Sublist
    (calls.zip (served jwt checkpw env handler db calls).1)
  turnedAway : ∀ before token t r after, calls = before ++ .request token t r :: after →
    let w := (served jwt checkpw env handler db before).2
    ¬ LetIn jwt checkpw env w (.request token t r) →
      ∃ exc, Refusal env token exc ∧
        (w.respond jwt checkpw env handler (.request token t r)).1 = .answered (.error exc)

end Unseen

/-- **Outsiders leave no trace.** In every history of logins, minted tokens and
requests to a router, the requests that come without a token of a login by the
admin or of a minted edge token, or too late, are answered 401, or 500 where they
carry a token and no secret is set; and the database and the answers to all
others are what they are when the outsiders never call. -/
theorem outsiders_unseen {Token D W K R A : Type} [Store D W K HttpException] (jwt : Jwt Token)
    (hjwt : jwt.Checks) (checkpw : String → String → Except CheckError Bool) (env : Environ)
    (handler : R → Prog D W HttpException A) (db : D) (calls : List (Call Token R))
    (hforge : NothingForged jwt checkpw env [] calls) :
    Unseen jwt checkpw env handler db calls := by
  classical
  -- who is let in is who gets in, as long as no token is forged
  have hsame : insiders jwt checkpw env handler db calls =
      sift (World.respond jwt checkpw env handler) (GetsIn jwt env) ⟨[], db⟩ calls :=
    sift_congr (I := fun w calls => NothingForged jwt checkpw env w.events calls)
      (fun _ _ _ h => h.next) (fun _ _ _ h => h.letIn_iff hjwt) hforge
  obtain ⟨hworld, hreplies⟩ := converse_sift (World.respond jwt checkpw env handler)
    (GetsIn jwt env) (fun _ _ h => respond_of_not_getsIn h) ⟨[], db⟩ calls
  refine ⟨?_, ?_, ?_⟩
  · rw [hsame]
    exact hworld
  · rw [hsame]
    exact hreplies
  · rintro before token t r after rfl w hout
    have hafter : NothingForged jwt checkpw env w.events (.request token t r :: after) :=
      NothingForged.after hforge
    cases hdepend : dependCurrentUser jwt env token t with
    | error exc =>
      exact ⟨exc, dependCurrentUser_refusal hdepend,
        congrArg Prod.fst (respond_turnedAway hdepend)⟩
    | ok c => exact absurd ((hafter.letIn_iff hjwt).mpr ⟨c, hdepend⟩) hout

/-- A lead of the campaign 1. -/
def storedLead (id : Int) : Listings.Lead :=
  ⟨⟨1, "13800000000".toList, none, none, .object []⟩, id, ⟨"new"⟩⟩

def twoStored : Leads.LeadStore where
  table := { campaigns := [1], rowOk := fun _ => true, leads := ⟨[storedLead 7, storedLead 8], by
    decide⟩ }
  referenced := []

/-- Leads are shown by their id. -/
def byId : Leads.Service Int := ⟨fun row => .ok row.id, fun _ _ => false, Leads.cpython, 1000⟩

/-- Someone without a token, a wrong and a right password, and the admin in time
and a day later. -/
def deletions : List (Call (Claims × String) Leads.Request) :=
  [.request none 1778803200 (.deleteLead 7),
    .event (.login "admin" "guess" issueTime), .event (.login "admin" "changeme" issueTime),
    .request (some loginToken) 1778803201 (.deleteLead 7),
    .request (some loginToken) 1778889601 (.deleteLead 8)]

theorem nothingForged_deletions : NothingForged carried checkDollar adminEnv [] deletions := by
  refine ⟨?_, ?_, ?_, trivial⟩
  · rintro _ ⟨⟩
  · rintro _ ⟨⟩
    exact unforgeable_loginToken
  · rintro _ ⟨⟩
    exact unforgeable_loginToken

theorem outsiders_unseen_deletions : Unseen carried checkDollar adminEnv
    (fun r : Leads.Request => r.handler byId) twoStored deletions :=
  outsiders_unseen carried carried_checks checkDollar adminEnv _ twoStored deletions
    nothingForged_deletions

end IsalesApi.Auth
