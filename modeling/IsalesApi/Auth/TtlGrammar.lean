import IsalesApi.Auth.Ttl

/-!
# The texts `_parse_ttl` accepts

The grammar of a lifetime is a number in ASCII digits and an optional unit. The
parser leaves the number to `int()`, which also takes signs, underscores, blanks
and the digits of other scripts, and not too many digits, and it lets the
`OverflowError` of `timedelta` escape.
-/

namespace IsalesApi.Auth

open Python

/-! ## The grammar -/

def ttlUnits : List (Str × Int) := [([], 1), (['s'], 1), (['m'], 60), (['h'], 3600), (['d'], 86400)]

/-- A number, a unit or none, and the seconds they stand for. -/
def TtlText (u : Str) (seconds : Int) : Prop :=
  ∃ number, AsciiNumber number ∧ ∃ suffix ∈ ttlUnits,
    u = number ++ suffix.1 ∧ seconds = digitsValue number * suffix.2

/-- What the parser takes for the number. -/
def numberPart (u : Str) : Str := if (u.getLast?.bind unitSeconds).isSome then u.dropLast else u

def unitOf (u : Str) : Int := (u.getLast?.bind unitSeconds).getD 1

theorem unitSeconds_digit {c : Char} (h : isAsciiDigit c = true) : unitSeconds c = none := by
  have hrange := toNat_of_isAsciiDigit h
  have hne : ∀ x : Char, 57 < x.toNat → (c == x) = false := by
    intro x hx
    rw [beq_eq_false_iff_ne]
    rintro rfl
    omega
  simp [unitSeconds, List.lookup_cons, hne 's' (by decide), hne 'm' (by decide),
    hne 'h' (by decide), hne 'd' (by decide)]

theorem mem_ttlUnits_of_unitSeconds {c : Char} {unit : Int} (h : unitSeconds c = some unit) :
    ([c], unit) ∈ ttlUnits := by
  have hmem : (c, unit) ∈ [('s', 1), ('m', 60), ('h', 3600), ('d', (86400 : Int))] := by
    obtain ⟨l₁, l₂, heq, _⟩ := List.lookup_eq_some_iff.mp h
    rw [heq]
    simp
  simp only [List.mem_cons, Prod.mk.injEq, List.not_mem_nil, or_false] at hmem
  rcases hmem with ⟨rfl, rfl⟩ | ⟨rfl, rfl⟩ | ⟨rfl, rfl⟩ | ⟨rfl, rfl⟩ <;> decide

theorem parts_append {number : Str} {suffix : Str × Int} (hnumber : AsciiNumber number)
    (hsuffix : suffix ∈ ttlUnits) :
    numberPart (number ++ suffix.1) = number ∧ unitOf (number ++ suffix.1) = suffix.2 := by
  have hplain : (number.getLast?.bind unitSeconds) = none := by
    rw [List.getLast?_eq_getLast_of_ne_nil hnumber.1]
    exact unitSeconds_digit (hnumber.2 _ (List.getLast_mem hnumber.1))
  simp only [ttlUnits, List.mem_cons, List.not_mem_nil, or_false] at hsuffix
  rcases hsuffix with rfl | rfl | rfl | rfl | rfl
  · rw [List.append_nil, numberPart, unitOf, hplain]
    exact ⟨rfl, rfl⟩
  all_goals
    simp only [numberPart, unitOf, List.getLast?_concat, List.dropLast_concat, Option.bind_some]
    exact ⟨rfl, rfl⟩

/-- The grammar is read off the last character. -/
theorem ttlText_iff {u : Str} {seconds : Int} : TtlText u seconds ↔
    AsciiNumber (numberPart u) ∧ seconds = digitsValue (numberPart u) * unitOf u := by
  constructor
  · rintro ⟨number, hnumber, suffix, hsuffix, rfl, rfl⟩
    obtain ⟨hpart, hunit⟩ := parts_append hnumber hsuffix
    rw [hpart, hunit]
    exact ⟨hnumber, rfl⟩
  · rintro ⟨hnumber, rfl⟩
    refine ⟨numberPart u, hnumber, ?_⟩
    unfold unitOf
    cases hunit : u.getLast?.bind unitSeconds with
    | none =>
      refine ⟨([], 1), by simp [ttlUnits], ?_, rfl⟩
      simp [numberPart, hunit]
    | some unit =>
      obtain ⟨c, hc, hcu⟩ := Option.bind_eq_some_iff.mp hunit
      refine ⟨([c], unit), mem_ttlUnits_of_unitSeconds hcu, ?_, rfl⟩
      simp only [numberPart, hunit, Option.isSome_some, if_true]
      exact (List.dropLast_append_getLast? c hc).symm

/-! ## What the parser does -/

section Parser

variable {lower : Str → Str} {isPrintable : Char → Bool} {t : Str}

theorem parseTtl_of_error {msg : String}
    (h : parseInt isPrintable (numberPart (lower (strip t))) = .error msg) :
    ∃ msg, parseTtl lower isPrintable t = .error (.valueError msg) := by
  unfold parseTtl
  unfold numberPart at h
  simp only
  split
  · exact ⟨_, rfl⟩
  · cases hunit : (lower (strip t)).getLast?.bind unitSeconds with
    | some unit =>
      simp only [hunit, Option.isSome_some, if_true] at h
      exact ⟨_, by simp only [h]; rfl⟩
    | none =>
      simp only [hunit, Option.isSome_none, Bool.false_eq_true, if_false] at h
      exact ⟨_, by simp only [h]; rfl⟩

theorem parseTtl_of_ok {value : Int}
    (h : parseInt isPrintable (numberPart (lower (strip t))) = .ok value) :
    parseTtl lower isPrintable t = timedeltaOfSeconds (value * unitOf (lower (strip t))) := by
  unfold parseTtl
  unfold numberPart at h
  simp only
  split
  · rename_i hnil
    rw [hnil] at h
    cases h
  · unfold unitOf
    cases hunit : (lower (strip t)).getLast?.bind unitSeconds with
    | some unit =>
      simp only [hunit, Option.isSome_some, if_true] at h
      simp only [h, Option.getD_some]
    | none =>
      simp only [hunit, Option.isSome_none, Bool.false_eq_true, if_false] at h
      simp only [h, Option.getD_none, mul_one]

/-- A `ValueError` of the parser ends the command with code 2. -/
theorem mintMain_of_valueError {Token : Type} {jwt : Jwt Token} {env : Option String}
    {args : Arguments} {now : DateTime} {msg : String}
    (h : parseTtl lower isPrintable args.ttl = .error (.valueError msg)) :
    mintMain lower isPrintable jwt env args now = .ok ⟨2, .stderr ("error: " ++ msg)⟩ := by
  simp only [mintMain, h]

end Parser

/-! ## The result -/

section Result

variable (lower : Str → Str) (isPrintable : Char → Bool) (t : Str)

/-- The parser accepts the text by the grammar, or refuses it with a `ValueError`
and the command ends with code 2. -/
structure FollowsGrammar : Prop where
  accepts : ∀ d, parseTtl lower isPrintable t = .ok d ↔ ∃ seconds,
    TtlText (lower (strip t)) seconds ∧ Representable seconds ∧ d = seconds * 1000000
  rejects : (¬ ∃ seconds, TtlText (lower (strip t)) seconds ∧ Representable seconds) →
    (∃ msg, parseTtl lower isPrintable t = .error (.valueError msg)) ∧
    ∀ (Token : Type) (jwt : Jwt Token) (env : Option String) (args : Arguments) (now : DateTime),
      args.ttl = t → ∃ printed, mintMain lower isPrintable jwt env args now = .ok ⟨2, printed⟩

/-- The number is in ASCII digits and in range. -/
def InRange (u : Str) : Prop :=
  AsciiNumber (numberPart u) ∧ Representable (digitsValue (numberPart u) * unitOf u)

variable {lower isPrintable t}

theorem exists_ttlText_iff {u : Str} :
    (∃ seconds, TtlText u seconds ∧ Representable seconds) ↔ InRange u := by
  simp only [ttlText_iff]
  constructor
  · rintro ⟨_, ⟨hnumber, rfl⟩, hrange⟩
    exact ⟨hnumber, hrange⟩
  · rintro ⟨hnumber, hrange⟩
    exact ⟨_, ⟨hnumber, rfl⟩, hrange⟩

/-- A text `int()` refuses. -/
theorem followsGrammar_of_error {msg : String}
    (h : parseInt isPrintable (numberPart (lower (strip t))) = .error msg) :
    FollowsGrammar lower isPrintable t ↔ ¬ InRange (lower (strip t)) := by
  obtain ⟨msg, hparse⟩ := parseTtl_of_error h
  rw [← exists_ttlText_iff]
  constructor
  · rintro ⟨haccepts, _⟩ ⟨seconds, htext, hrange⟩
    have hok := (haccepts _).mpr ⟨seconds, htext, hrange, rfl⟩
    rw [hparse] at hok
    cases hok
  · intro hnone
    refine ⟨fun d => ?_, fun _ => ⟨⟨msg, hparse⟩, ?_⟩⟩
    · rw [hparse]
      exact iff_of_false nofun fun ⟨seconds, htext, hrange, _⟩ => hnone ⟨seconds, htext, hrange⟩
    · rintro Token jwt env args now rfl
      exact ⟨_, mintMain_of_valueError hparse⟩

/-- A text `int()` reads. -/
theorem followsGrammar_of_ok {value : Int}
    (h : parseInt isPrintable (numberPart (lower (strip t))) = .ok value) :
    FollowsGrammar lower isPrintable t ↔ InRange (lower (strip t)) := by
  have hparse := parseTtl_of_ok h
  -- what `int()` reads from plain digits is their value
  have hvalue : AsciiNumber (numberPart (lower (strip t))) →
      value = digitsValue (numberPart (lower (strip t))) := by
    intro hnumber
    rw [parseInt_asciiNumber isPrintable hnumber] at h
    split at h <;> cases h
    rfl
  constructor
  · rintro ⟨haccepts, hrejects⟩
    by_contra hrange
    rw [← exists_ttlText_iff] at hrange
    obtain ⟨msg, herror⟩ := (hrejects hrange).1
    by_cases hrep : Representable (value * unitOf (lower (strip t)))
    · rw [hparse, timedeltaOfSeconds_ok hrep] at herror
      cases herror
    · obtain ⟨msg', hoverflow⟩ := timedeltaOfSeconds_error hrep
      rw [hparse, hoverflow] at herror
      cases herror
  · rintro ⟨hnumber, hrep⟩
    have hseconds := hvalue hnumber
    rw [hseconds, timedeltaOfSeconds_ok hrep] at hparse
    refine ⟨fun d => ?_, fun hnone => absurd ⟨hnumber, hrep⟩ (exists_ttlText_iff.not.mp hnone)⟩
    rw [hparse]
    simp only [ttlText_iff]
    constructor
    · rintro ⟨⟩
      exact ⟨_, ⟨hnumber, rfl⟩, hrep, rfl⟩
    · rintro ⟨_, ⟨_, rfl⟩, _, rfl⟩
      rfl

variable (lower isPrintable t)

/-- **When the parser follows its grammar**: on a number in plain digits, when it
has no more digits than `int()` takes exactly if it is in range; on any other text,
when `int()` refuses what stands for the number. -/
theorem ttl_followsGrammar_iff : FollowsGrammar lower isPrintable t ↔
    if AsciiNumber (numberPart (lower (strip t))) then
      (numberPart (lower (strip t))).length ≤ maxStrDigits ↔
        Representable (digitsValue (numberPart (lower (strip t))) * unitOf (lower (strip t)))
    else ∃ msg, parseInt isPrintable (numberPart (lower (strip t))) = .error msg := by
  by_cases hnumber : AsciiNumber (numberPart (lower (strip t)))
  · have hrange : InRange (lower (strip t)) ↔
        Representable (digitsValue (numberPart (lower (strip t))) * unitOf (lower (strip t))) :=
      and_iff_right hnumber
    have hint := parseInt_asciiNumber isPrintable hnumber
    rw [if_pos hnumber, ← hrange]
    by_cases hlong : maxStrDigits < (numberPart (lower (strip t))).length
    · rw [if_pos hlong] at hint
      rw [followsGrammar_of_error hint, iff_iff_implies_and_implies]
      exact ⟨fun h => ⟨fun hle => absurd hlong (not_lt.mpr hle), fun hin => absurd hin h⟩,
        fun h hin => absurd hlong (not_lt.mpr (h.2 hin))⟩
    · rw [if_neg hlong] at hint
      rw [followsGrammar_of_ok hint]
      exact (iff_true_left (not_lt.mp hlong)).symm
  · rw [if_neg hnumber]
    cases hint : parseInt isPrintable (numberPart (lower (strip t))) with
    | error msg =>
      rw [followsGrammar_of_error hint]
      exact iff_of_true (fun h => hnumber h.1) ⟨msg, rfl⟩
    | ok value =>
      rw [followsGrammar_of_ok hint]
      exact iff_of_false (fun h => hnumber h.1) nofun

end Result

/-- `-5d` is taken for a lifetime of minus five days. -/
theorem negative_ttl_accepted :
    ¬ ∀ t, FollowsGrammar (List.map Char.toLower) (fun _ => true) t := by
  intro h
  have hparse : parseTtl (List.map Char.toLower) (fun _ => true) ['-', '5', 'd'] =
      .ok (-432000000000) := by rfl
  obtain ⟨seconds, htext, _⟩ := ((h ['-', '5', 'd']).accepts _).mp hparse
  exact absurd (ttlText_iff.mp htext).1 (by decide)

end IsalesApi.Auth
