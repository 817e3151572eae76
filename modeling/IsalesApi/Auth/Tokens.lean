import IsalesApi.Auth.Claims

/-!
# Tokens

The two functions that sign tokens, `sign_jwt` for the frontend and
`mint_edge_token` for an edge device, and the two that accept them,
`current_user` on the HTTP routes and `_verify_token_or_none` on the WebSocket.
All four go by the secret in `ISALES_JWT_SECRET`.
-/

namespace IsalesApi.Auth

inductive PyError where
  | runtimeError (msg : String)
  | valueError (msg : String)
  | overflowError (msg : String)
deriving DecidableEq

/-! ## Times -/

/-- `timedelta`, in microseconds. -/
abbrev Timedelta := Int

/-- A `datetime` in UTC, in microseconds since the epoch; the years it can have
are 1 to 9999. -/
structure DateTime where
  micros : Int
  year_pos : -62135596800000000 ≤ micros
  year_lt : micros < 253402300800000000
deriving DecidableEq

/-- `int(t.timestamp())`, of the exact instant: the rounding of the seconds to a
float is left out. -/
def DateTime.timestamp (t : DateTime) : Int := t.micros.tdiv 1000000

/-- `t + d`. -/
def DateTime.add (t : DateTime) (d : Timedelta) : Except PyError DateTime :=
  if h : -62135596800000000 ≤ t.micros + d ∧ t.micros + d < 253402300800000000 then
    .ok ⟨t.micros + d, h.1, h.2⟩
  else .error (.overflowError "date value out of range")

/-! ## Signing and verifying -/

/-- `jose_jwt.encode` with HS256, and `verify_jwt` at a time in seconds, which is
not part of this repository: `error` is `InvalidJWT` with its text. `live` says
whether a token that expires at the first time is still good at the second, and
`blank` whether the text of a token is empty. -/
structure Jwt (Token : Type) where
  encode : Claims → String → Token
  verify : Int → Token → String → Except String Claims
  live : Int → Int → Bool
  blank : Token → Bool

variable {Token : Type} (jwt : Jwt Token)

/-- `_secret()`, in `auth/jwt.py`, `auth/deps.py` and `edge_token.py`; `env` is
the value of `ISALES_JWT_SECRET`. -/
def secret (env : Option String) : Except PyError String :=
  match env with
  | none => .error (.runtimeError "ISALES_JWT_SECRET is not set")
  | some s => if s = "" then .error (.runtimeError "ISALES_JWT_SECRET is not set") else .ok s

/-- The `payload` of `sign_jwt`. -/
def frontendClaims (claims : Claims) (ttl : Timedelta) (now : DateTime) : Except PyError Claims :=
  (now.add ttl).map fun expiry =>
    (claims.set "iat" (.int now.timestamp)).set "exp" (.int expiry.timestamp)

def signJwt (env : Option String) (claims : Claims) (ttl : Timedelta) (now : DateTime) :
    Except PyError Token := do
  let payload ← frontendClaims claims ttl now
  let key ← secret env
  return jwt.encode payload key

/-- `AUDIENCE` and `SCOPE`. -/
def audience : String := "cloud-edge"

def scope : String := "edge"

/-- The `claims` of `mint_edge_token`. -/
def edgeClaims (edgeDeviceId : String) (ttl : Timedelta) (now : DateTime) :
    Except PyError Claims :=
  (now.add ttl).map fun expiry =>
    [("sub", .text edgeDeviceId), ("aud", .text audience), ("scope", .text scope),
      ("iat", .int now.timestamp), ("exp", .int expiry.timestamp)]

/-- `secret or _secret()`. -/
def edgeSecret (env given : Option String) : Except PyError String :=
  match given with
  | some s => if s = "" then secret env else .ok s
  | none => secret env

def mintEdgeToken (env : Option String) (edgeDeviceId : String) (ttl : Timedelta)
    (given : Option String) (now : DateTime) : Except PyError Token := do
  if edgeDeviceId = "" then throw (.valueError "edge_device_id is required")
  let claims ← edgeClaims edgeDeviceId ttl now
  let key ← edgeSecret env given
  return jwt.encode claims key

/-! ## Accepting -/

/-- `current_user`: a token that does not verify is answered 401. -/
def currentUser (env : Option String) (now : Int) (token : Token) : Except HttpException Claims :=
  match secret env with
  | .error _ => .error internalServerError
  | .ok key =>
    match jwt.verify now token key with
    | .ok claims => .ok claims
    | .error msg => .error ⟨401, msg⟩

/-- `_verify_token_or_none`. -/
def verifyTokenOrNone (env : Option String) (now : Int) (token : Option Token) : Option Claims :=
  match token with
  | none => none
  | some token =>
    if jwt.blank token then none
    else
      match secret env with
      | .error _ => none
      | .ok key => (jwt.verify now token key).toOption

end IsalesApi.Auth
