import IsalesApi.Auth.Tokens
import IsalesApi.Python.Text

/-!
# The lifetime of an edge token on the command line

`_parse_ttl` and the command that mints a token with it. `lower` is `str.lower`
and `isPrintable` what the Unicode database calls printable, which the messages
depend on.
-/

namespace IsalesApi.Auth

open Python

/-! ## `timedelta` -/

/-- `timedelta(seconds=seconds)`. The days must fit into a C `int` to be looked at,
and then be less than 1000000000 in magnitude. -/
def timedeltaOfSeconds (seconds : Int) : Except PyError Timedelta :=
  let days := seconds / 86400
  if days < -2 ^ 31 ∨ 2 ^ 31 ≤ days then
    .error (.overflowError "Python int too large to convert to C int")
  else if days < -999999999 ∨ 999999999 < days then
    .error (.overflowError ("days=" ++ toString days ++ "; must have magnitude <= 999999999"))
  else .ok (seconds * 1000000)

/-- The seconds a `timedelta` can have. -/
def Representable (seconds : Int) : Prop :=
  -999999999 ≤ seconds / 86400 ∧ seconds / 86400 ≤ 999999999

instance (seconds : Int) : Decidable (Representable seconds) :=
  inferInstanceAs (Decidable (_ ∧ _))

theorem timedeltaOfSeconds_ok {seconds : Int} (h : Representable seconds) :
    timedeltaOfSeconds seconds = .ok (seconds * 1000000) := by
  obtain ⟨hlow, hhigh⟩ := h
  unfold timedeltaOfSeconds
  rw [if_neg (by omega), if_neg (by omega)]

theorem timedeltaOfSeconds_error {seconds : Int} (h : ¬ Representable seconds) :
    ∃ msg, timedeltaOfSeconds seconds = .error (.overflowError msg) := by
  unfold timedeltaOfSeconds
  simp only
  split
  · exact ⟨_, rfl⟩
  · split
    · exact ⟨_, rfl⟩
    · exact absurd ⟨by omega, by omega⟩ h

/-! ## `_parse_ttl` -/

/-- `unit_seconds`. -/
def unitSeconds (c : Char) : Option Int := [('s', 1), ('m', 60), ('h', 3600), ('d', 86400)].lookup c

section Parser

variable (lower : Str → Str) (isPrintable : Char → Bool)

/-- `f"bad ttl value: {text!r}"`. -/
def badTtlValue (text : Str) : String := "bad ttl value: " ++ String.ofList (repr isPrintable text)

/-- `f"bad ttl {text!r}: use e.g. 365d / 24h / 30m / 86400"`. -/
def badTtl (text : Str) : String :=
  "bad ttl " ++ String.ofList (repr isPrintable text) ++ ": use e.g. 365d / 24h / 30m / 86400"

/-- `_parse_ttl`. The `except` clauses catch a `ValueError` only. -/
def parseTtl (text : Str) : Except PyError Timedelta :=
  let text := lower (strip text)
  if text = [] then .error (.valueError "ttl is required")
  else
    match text.getLast?.bind unitSeconds with
    | some unit =>
      match parseInt isPrintable text.dropLast with
      | .error _ => .error (.valueError (badTtlValue isPrintable text))
      | .ok value => timedeltaOfSeconds (value * unit)
    | none =>
      match parseInt isPrintable text with
      | .error _ => .error (.valueError (badTtl isPrintable text))
      | .ok value => timedeltaOfSeconds value

end Parser

/-! ## The command -/

/-- What `parse_args` gives. -/
structure Arguments where
  deviceId : String
  ttl : Str
  signingSecret : Option String

inductive Printed (Token : Type) where
  | stdout (token : Token)
  | stderr (msg : String)

/-- The exit code and what is printed. -/
structure Exit (Token : Type) where
  code : Nat
  printed : Printed Token

/-- `a or b` for optional strings. -/
def orElse (a b : Option String) : Option String := if a = none ∨ a = some "" then b else a

/-- `main` of `mint_edge_token.py`, after `parse_args`. -/
def mintMain {Token : Type} (lower : Str → Str) (isPrintable : Char → Bool) (jwt : Jwt Token)
    (env : Option String) (args : Arguments) (now : DateTime) : Except PyError (Exit Token) :=
  match parseTtl lower isPrintable args.ttl with
  | .error (.valueError exc) => .ok ⟨2, .stderr ("error: " ++ exc)⟩
  | .error exc => .error exc
  | .ok ttl =>
    match orElse args.signingSecret env with
    | none | some "" =>
      .ok ⟨2, .stderr "error: --signing-secret not provided and ISALES_JWT_SECRET not set"⟩
    | some secret =>
      (mintEdgeToken jwt env args.deviceId ttl (some secret) now).map fun token =>
        ⟨0, .stdout token⟩

end IsalesApi.Auth
