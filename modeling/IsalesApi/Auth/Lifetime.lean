import IsalesApi.Auth.TtlGrammar

/-!
# The lifetime of a minted token

`iat` and `exp` are cut to whole seconds one by one. The lifetime is a whole
number of seconds, so the cut takes the same fraction from both.
-/

namespace IsalesApi.Auth

open Python

/-- A unit as it is typed, in either case, and its seconds. -/
def typedUnits : List (Str × Int) :=
  [([], 1), (['s'], 1), (['S'], 1), (['m'], 60), (['M'], 60), (['h'], 3600), (['H'], 3600),
    (['d'], 86400), (['D'], 86400)]

theorem one_le_of_mem_typedUnits {suffix : Str × Int} (h : suffix ∈ typedUnits) :
    1 ≤ suffix.2 := by
  simp only [typedUnits, List.mem_cons, List.not_mem_nil, or_false] at h
  rcases h with rfl | rfl | rfl | rfl | rfl | rfl | rfl | rfl | rfl <;> decide

/-! ## The text -/

/-- A character that is neither a blank nor beyond ASCII. -/
def Solid (c : Char) : Prop := Config.isPySpace c = false ∧ c.toNat < 128

theorem solid_digit {c : Char} (h : isAsciiDigit c = true) : Solid c := by
  have hrange := toNat_of_isAsciiDigit h
  refine ⟨?_, by omega⟩
  simp only [Config.isPySpace, Bool.or_eq_false_iff, Bool.and_eq_false_iff, decide_eq_false_iff_not,
    beq_eq_false_iff_ne]
  omega

theorem toLower_digit {c : Char} (h : isAsciiDigit c = true) : c.toLower = c := by
  have hrange := toNat_of_isAsciiDigit h
  refine dif_neg fun hupper => ?_
  have hlow : 65 ≤ c.toNat := UInt32.le_iff_toNat_le.mp hupper.1
  omega

section Typed

variable {lower : Str → Str}
  (hlower : ∀ s : Str, (∀ c ∈ s, c.toNat < 128) → lower s = s.map Char.toLower)
  {number : Str} {suffix : Str × Int} (hnumber : AsciiNumber number) (hsuffix : suffix ∈ typedUnits)

include hnumber hsuffix in
theorem solid_typed : ∀ c ∈ number ++ suffix.1, Solid c := by
  intro c hc
  rcases List.mem_append.mp hc with hc | hc
  · exact solid_digit (hnumber.2 c hc)
  · simp only [typedUnits, List.mem_cons, List.not_mem_nil, or_false] at hsuffix
    rcases hsuffix with rfl | rfl | rfl | rfl | rfl | rfl | rfl | rfl | rfl
    · cases hc
    all_goals
      rw [List.mem_singleton.mp hc]
      exact ⟨by decide, by decide⟩

include hlower hnumber hsuffix in
/-- What the parser makes of the typed text. -/
theorem lower_strip_typed {before after : Str}
    (hbefore : ∀ c ∈ before, Config.isPySpace c = true)
    (hafter : ∀ c ∈ after, Config.isPySpace c = true) :
    ∃ unit ∈ ttlUnits, unit.2 = suffix.2 ∧
      lower (strip (before ++ (number ++ suffix.1) ++ after)) = number ++ unit.1 := by
  have hsolid := solid_typed hnumber hsuffix
  have hne : number ++ suffix.1 ≠ [] := by simp [hnumber.1]
  rw [strip_surrounded hbefore hafter hne (hsolid _ (List.head_mem hne)).1
    (hsolid _ (List.getLast_mem hne)).1, hlower _ fun c hc => (hsolid c hc).2, List.map_append]
  have hdigits : number.map Char.toLower = number := by
    calc number.map Char.toLower = number.map id :=
          List.map_congr_left fun c hc => toLower_digit (hnumber.2 c hc)
      _ = number := List.map_id number
  rw [hdigits]
  simp only [typedUnits, List.mem_cons, List.not_mem_nil, or_false] at hsuffix
  rcases hsuffix with rfl | rfl | rfl | rfl | rfl | rfl | rfl | rfl | rfl
  · exact ⟨([], 1), by decide, rfl, rfl⟩
  · exact ⟨(['s'], 1), by decide, rfl, rfl⟩
  · exact ⟨(['s'], 1), by decide, rfl, rfl⟩
  · exact ⟨(['m'], 60), by decide, rfl, rfl⟩
  · exact ⟨(['m'], 60), by decide, rfl, rfl⟩
  · exact ⟨(['h'], 3600), by decide, rfl, rfl⟩
  · exact ⟨(['h'], 3600), by decide, rfl, rfl⟩
  · exact ⟨(['d'], 86400), by decide, rfl, rfl⟩
  · exact ⟨(['d'], 86400), by decide, rfl, rfl⟩

end Typed

/-! ## The claims -/

/-- A whole number of seconds later. -/
theorem timestamp_add {now expiry : DateTime} {seconds : Int} (hnow : 0 ≤ now.micros)
    (hseconds : 0 ≤ seconds) (hexpiry : expiry.micros = now.micros + seconds * 1000000) :
    expiry.timestamp - now.timestamp = seconds := by
  unfold DateTime.timestamp
  rw [Int.tdiv_eq_ediv_of_nonneg hnow, Int.tdiv_eq_ediv_of_nonneg (by omega), hexpiry]
  omega

theorem timestamp_le {now : DateTime} (hnow : 0 ≤ now.micros) :
    now.timestamp * 1000000 ≤ now.micros ∧ now.micros < (now.timestamp + 1) * 1000000 := by
  unfold DateTime.timestamp
  rw [Int.tdiv_eq_ediv_of_nonneg hnow]
  omega

/-- **A minted token lives exactly as long as asked.** -/
theorem minted_lifetime (lower : Str → Str) (isPrintable : Char → Bool)
    (hlower : ∀ s : Str, (∀ c ∈ s, c.toNat < 128) → lower s = s.map Char.toLower)
    (n : Nat) (suffix : Str × Int) (hsuffix : suffix ∈ typedUnits) (before after : Str)
    (hbefore : ∀ c ∈ before, Config.isPySpace c = true)
    (hafter : ∀ c ∈ after, Config.isPySpace c = true) (deviceId : String) (hid : deviceId ≠ "")
    (now : DateTime) (hnow : 0 ≤ now.micros)
    (hexpiry : now.micros + n * suffix.2 * 1000000 < 253402300800000000) :
    ∃ ttl claims iat exp,
      parseTtl lower isPrintable (before ++ (Nat.toDigits 10 n ++ suffix.1) ++ after) = .ok ttl ∧
      (∀ (Token : Type) (jwt : Jwt Token) (env given : Option String),
        mintEdgeToken jwt env deviceId ttl given now =
          (edgeSecret env given).map fun key => jwt.encode claims key) ∧
      claims.get "iat" = some (.int iat) ∧ claims.get "exp" = some (.int exp) ∧
      exp - iat = n * suffix.2 ∧
      iat * 1000000 ≤ now.micros ∧ now.micros < (iat + 1) * 1000000 ∧
      claims.get "sub" = some (.text deviceId) := by
  have hnumber := asciiNumber_toDigits n
  obtain ⟨unit, hunit, hseconds, htext⟩ :=
    lower_strip_typed hlower hnumber hsuffix hbefore hafter
  obtain ⟨hpart, hunitOf⟩ := parts_append hnumber hunit
  have hpos : 1 ≤ suffix.2 := one_le_of_mem_typedUnits hsuffix
  have hn : (n : Int) ≤ n * suffix.2 := le_mul_of_one_le_right (Int.natCast_nonneg n) hpos
  -- a date far enough in the future to need more digits does not exist
  have hlength : (Nat.toDigits 10 n).length ≤ maxStrDigits := by
    have hlt : n < 10 ^ 12 := by omega
    exact ((Nat.length_toDigits_le_iff (by decide) (by decide)).mpr hlt).trans (by decide)
  have hint : parseInt isPrintable (Nat.toDigits 10 n) = .ok (n : Int) := by
    rw [parseInt_asciiNumber isPrintable hnumber, if_neg (not_lt.mpr hlength),
      digitsValue_toDigits]
  have hparse : parseTtl lower isPrintable (before ++ (Nat.toDigits 10 n ++ suffix.1) ++ after) =
      .ok (n * suffix.2 * 1000000) := by
    rw [parseTtl_of_ok (by rw [htext, hpart]; exact hint), htext, hunitOf, hseconds]
    exact timedeltaOfSeconds_ok ⟨by omega, by omega⟩
  let expiry : DateTime := ⟨now.micros + n * suffix.2 * 1000000, by omega, hexpiry⟩
  have hadd : now.add (n * suffix.2 * 1000000) = .ok expiry := dif_pos ⟨by omega, hexpiry⟩
  let claims : Claims := [("sub", .text deviceId), ("aud", .text audience), ("scope", .text scope),
    ("iat", .int now.timestamp), ("exp", .int expiry.timestamp)]
  have hclaims : edgeClaims deviceId (n * suffix.2 * 1000000) now = .ok claims := by
    rw [edgeClaims, hadd]
    rfl
  refine ⟨_, claims, now.timestamp, expiry.timestamp, hparse, fun Token jwt env given => ?_, rfl,
    rfl, timestamp_add hnow (by omega) rfl, (timestamp_le hnow).1, (timestamp_le hnow).2, rfl⟩
  unfold mintEdgeToken
  simp only [if_neg hid, hclaims]
  cases edgeSecret env given <;> rfl

/-- Three quarters of a second after the epoch. -/
def lateInSecond : DateTime := ⟨750000, by decide, by decide⟩

/-- `" 24H\n"`. -/
theorem minted_lifetime_day : ∃ ttl claims iat exp,
    parseTtl (List.map Char.toLower) (fun _ => true)
      ([' '] ++ (Nat.toDigits 10 24 ++ ['H']) ++ ['\n']) = .ok ttl ∧
    (∀ (Token : Type) (jwt : Jwt Token) (env given : Option String),
      mintEdgeToken jwt env "edge-01" ttl given lateInSecond =
        (edgeSecret env given).map fun key => jwt.encode claims key) ∧
    claims.get "iat" = some (.int iat) ∧ claims.get "exp" = some (.int exp) ∧
    exp - iat = 24 * 3600 ∧
    iat * 1000000 ≤ lateInSecond.micros ∧ lateInSecond.micros < (iat + 1) * 1000000 ∧
    claims.get "sub" = some (.text "edge-01") :=
  minted_lifetime (List.map Char.toLower) (fun _ => true) (fun _ _ => rfl) 24 (['H'], 3600)
    (by decide) [' '] ['\n'] (List.forall_mem_singleton.mpr rfl) (List.forall_mem_singleton.mpr rfl)
    "edge-01" (by decide) lateInSecond (by decide) (by decide)

end IsalesApi.Auth
