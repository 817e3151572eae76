import IsalesApi.Config.Routing
import Mathlib.Data.List.DropRight

/-!
# Texts and integers in Python

A `str` is the list of its characters. `strip`, `repr` and `int()` are the
built-ins the importer and its messages use.
-/

namespace IsalesApi.Python

open Config (isPySpace)

abbrev Str := List Char

/-! ## `str.strip` -/

def strip (s : Str) : Str := (s.dropWhile isPySpace).rdropWhile isPySpace

/-- A stripped text is stripped already. -/
theorem strip_strip (s : Str) : strip (strip s) = strip s := by
  have hhead : (strip s).dropWhile isPySpace = strip s := by
    rw [List.dropWhile_eq_self_iff]
    intro hpos
    have hprefix : strip s <+: s.dropWhile isPySpace := List.rdropWhile_prefix _ _
    obtain ⟨t, ht⟩ := hprefix
    have hpos' : 0 < (s.dropWhile isPySpace).length := by
      rw [← ht, List.length_append]
      omega
    have hfirst : (s.dropWhile isPySpace)[0] = (strip s)[0] := by
      simp only [← ht, List.getElem_append_left hpos]
    rw [← hfirst]
    exact List.dropWhile_get_zero_not _ _ hpos'
  show ((strip s).dropWhile isPySpace).rdropWhile isPySpace = strip s
  rw [hhead]
  exact List.rdropWhile_idempotent _ _

/-- Blanks around a text that neither starts nor ends with one. -/
theorem strip_surrounded {before s after : Str} (hbefore : ∀ c ∈ before, isPySpace c = true)
    (hafter : ∀ c ∈ after, isPySpace c = true) (hne : s ≠ [])
    (hhead : isPySpace (s.head hne) = false) (hlast : isPySpace (s.getLast hne) = false) :
    strip (before ++ s ++ after) = s := by
  have hdrop : ∀ {t u : Str}, (∀ c ∈ t, isPySpace c = true) → (hu : u ≠ []) →
      isPySpace (u.head hu) = false → (t ++ u).dropWhile isPySpace = u := by
    intro t u ht hu hfirst
    obtain ⟨c, v, rfl⟩ := List.exists_cons_of_ne_nil hu
    rw [List.dropWhile_append_of_pos ht]
    exact List.dropWhile_cons_of_neg (by simpa using hfirst)
  unfold strip List.rdropWhile
  rw [List.append_assoc, hdrop hbefore (by simp [hne]) (by simpa [List.head_append_of_ne_nil, hne]),
    List.reverse_append, hdrop (by simpa using hafter) (by simpa using hne) (by simpa using hlast),
    List.reverse_reverse]

/-! ## `repr` -/

def hexDigits (width n : Nat) : Str :=
  let digits := Nat.toDigits 16 n
  List.replicate (width - digits.length) '0' ++ digits

/-- The printable characters: in ASCII those from the blank to `~`, beyond it
those the Unicode database calls so. -/
def printable (isPrintable : Char → Bool) (c : Char) : Bool :=
  let n := c.toNat
  if n < 0x7f then 0x20 ≤ n else if n = 0x7f then false else isPrintable c

def reprChar (isPrintable : Char → Bool) (quote c : Char) : Str :=
  if c = quote ∨ c = '\\' then ['\\', c]
  else if c = '\t' then ['\\', 't']
  else if c = '\n' then ['\\', 'n']
  else if c = '\r' then ['\\', 'r']
  else if printable isPrintable c then [c]
  else if c.toNat ≤ 0xff then '\\' :: 'x' :: hexDigits 2 c.toNat
  else if c.toNat ≤ 0xffff then '\\' :: 'u' :: hexDigits 4 c.toNat
  else '\\' :: 'U' :: hexDigits 8 c.toNat

/-- `repr(s)`. -/
def repr (isPrintable : Char → Bool) (s : Str) : Str :=
  let quote := if '\'' ∈ s ∧ '"' ∉ s then '"' else '\''
  quote :: s.flatMap (reprChar isPrintable quote) ++ [quote]

/-! ## `int()` -/

/-- The zeros of the decimal digits in the Unicode database; the other digits
follow each of them. -/
def decimalZeros : List Nat :=
  [0x30, 0x660, 0x6f0, 0x7c0, 0x966, 0x9e6, 0xa66, 0xae6, 0xb66, 0xbe6, 0xc66, 0xce6, 0xd66, 0xde6,
    0xe50, 0xed0, 0xf20, 0x1040, 0x1090, 0x17e0, 0x1810, 0x1946, 0x19d0, 0x1a80, 0x1a90, 0x1b50,
    0x1bb0, 0x1c40, 0x1c50, 0xa620, 0xa8d0, 0xa900, 0xa9d0, 0xa9f0, 0xaa50, 0xabf0, 0xff10, 0x104a0,
    0x10d30, 0x11066, 0x110f0, 0x11136, 0x111d0, 0x112f0, 0x11450, 0x114d0, 0x11650, 0x116c0,
    0x11730, 0x118e0, 0x11950, 0x11c50, 0x11d50, 0x11da0, 0x16a60, 0x16ac0, 0x16b50, 0x1d7ce,
    0x1d7d8, 0x1d7e2, 0x1d7ec, 0x1d7f6, 0x1e140, 0x1e2f0, 0x1e950, 0x1fbf0]

/-- The value of a decimal digit of any script. -/
def decimalValue (c : Char) : Option Nat :=
  (decimalZeros.find? fun z => z ≤ c.toNat && c.toNat < z + 10).map fun z => c.toNat - z

/-- What `int()` reads: blanks and digits beyond ASCII in their ASCII form, up
to the first character that is neither. A text in ASCII is read as it is. -/
def asciiDecimal : Str → Str
  | [] => []
  | c :: s =>
    if c.toNat < 127 then c :: asciiDecimal s
    else if isPySpace c then ' ' :: asciiDecimal s
    else
      match decimalValue c with
      | some d => Char.ofNat (0x30 + d) :: asciiDecimal s
      | none => ['?']

def toAsciiDecimal (s : Str) : Str :=
  if s.all fun c => c.toNat < 128 then s else asciiDecimal s

/-- The blanks `int()` skips. -/
def isAsciiSpace (c : Char) : Bool := (9 ≤ c.toNat && c.toNat ≤ 13) || c.toNat == 32

def isAsciiDigit (c : Char) : Bool := '0' ≤ c && c ≤ '9'

def isDigitOrUnderscore (c : Char) : Bool := isAsciiDigit c || c == '_'

/-- Digits with single underscores between them; `prev` is the character
before. -/
def underscoresOk : Char → Str → Bool
  | prev, [] => prev != '_'
  | prev, c :: s => !(prev == '_' && c == '_') && underscoresOk c s

def digitsValue (digits : Str) : Nat :=
  digits.foldl (fun n c => 10 * n + (c.toNat - 0x30)) 0

/-- The limit of `sys.set_int_max_str_digits`. -/
def maxStrDigits : Nat := 4300

def digitLimitMessage (n : Nat) : String :=
  "Exceeds the limit (4300 digits) for integer string conversion: value has " ++ toString n ++
    " digits; use sys.set_int_max_str_digits() to increase the limit"

def invalidLiteral (isPrintable : Char → Bool) (s : Str) : String :=
  "invalid literal for int() with base 10: " ++ String.ofList ((repr isPrintable s).take 200)

/-- `int(s)`; `error` is the text of the `ValueError`. -/
def parseInt (isPrintable : Char → Bool) (s : Str) : Except String Int :=
  let t := (toAsciiDecimal s).dropWhile isAsciiSpace
  let negative := t.head? = some '-'
  let t := if negative ∨ t.head? = some '+' then t.tail else t
  let body := t.takeWhile isDigitOrUnderscore
  let rest := t.dropWhile isDigitOrUnderscore
  let digits := body.filter isAsciiDigit
  if !underscoresOk '_' body then .error (invalidLiteral isPrintable s)
  else if maxStrDigits < digits.length then .error (digitLimitMessage digits.length)
  else if rest.dropWhile isAsciiSpace ≠ [] then .error (invalidLiteral isPrintable s)
  else .ok (if negative then -(digitsValue digits : Int) else digitsValue digits)

/-! ## Plain digits -/

/-- One or more ASCII digits. -/
def AsciiNumber (s : Str) : Prop := s ≠ [] ∧ ∀ c ∈ s, isAsciiDigit c = true

instance (s : Str) : Decidable (AsciiNumber s) :=
  decidable_of_iff ((!s.isEmpty && s.all isAsciiDigit) = true) (by simp [AsciiNumber])

theorem toNat_of_isAsciiDigit {c : Char} (h : isAsciiDigit c = true) :
    48 ≤ c.toNat ∧ c.toNat ≤ 57 := by
  simp only [isAsciiDigit, Bool.and_eq_true, decide_eq_true_eq] at h
  exact h

theorem underscoresOk_digits {s : Str} (h : ∀ c ∈ s, isAsciiDigit c = true) {prev : Char}
    (hprev : prev ≠ '_' ∨ s ≠ []) : underscoresOk prev s = true := by
  induction s generalizing prev with
  | nil =>
    have hne : prev ≠ '_' := hprev.resolve_right fun hnil => hnil rfl
    simpa [underscoresOk] using hne
  | cons c s ih =>
    have hc : c ≠ '_' := by
      rintro rfl
      exact absurd (h '_' List.mem_cons_self) (by decide)
    rw [underscoresOk, ih (fun x hx => h x (List.mem_cons_of_mem c hx)) (Or.inl hc)]
    simp [hc]

theorem asciiNumber_toDigits (n : Nat) : AsciiNumber (Nat.toDigits 10 n) := by
  refine ⟨Nat.toDigits_ne_nil, fun c hc => ?_⟩
  exact Nat.isDigit_of_mem_toDigits (by decide) (by decide) hc

theorem digitsValue_toDigits (n : Nat) : digitsValue (Nat.toDigits 10 n) = n :=
  Nat.ofDigitChars_ten_toDigits

theorem digitsValue_zeros (k : Nat) (s : Str) :
    digitsValue (List.replicate k '0' ++ s) = digitsValue s := by
  induction k with
  | zero => rfl
  | succ k ih => exact ih

theorem digitsValue_snoc (s : Str) (c : Char) :
    digitsValue (s ++ [c]) = 10 * digitsValue s + (c.toNat - 48) := by
  simp [digitsValue]

theorem digitsValue_lt {s : Str} (h : ∀ c ∈ s, isAsciiDigit c = true) :
    digitsValue s < 10 ^ s.length := by
  induction s using List.reverseRecOn with
  | nil => decide
  | append_singleton s c ih =>
    have hs := ih fun x hx => h x (List.mem_append_left _ hx)
    have hc := toNat_of_isAsciiDigit (h c (List.mem_append_right _ (List.mem_singleton_self c)))
    rw [digitsValue_snoc, List.length_append, List.length_singleton, pow_succ]
    omega

/-- Digits are determined by their number and their value. -/
theorem digitsValue_inj {s t : Str} (hs : ∀ c ∈ s, isAsciiDigit c = true)
    (ht : ∀ c ∈ t, isAsciiDigit c = true) (hlength : s.length = t.length)
    (h : digitsValue s = digitsValue t) : s = t := by
  induction s using List.reverseRecOn generalizing t with
  | nil => exact (List.length_eq_zero_iff.mp hlength.symm).symm
  | append_singleton s c ih =>
    induction t using List.reverseRecOn with
    | nil => simp at hlength
    | append_singleton t d =>
      have hc := toNat_of_isAsciiDigit (hs c (List.mem_append_right _ (List.mem_singleton_self c)))
      have hd := toNat_of_isAsciiDigit (ht d (List.mem_append_right _ (List.mem_singleton_self d)))
      rw [digitsValue_snoc, digitsValue_snoc] at h
      have hinit : s = t := by
        refine ih (fun x hx => hs x (List.mem_append_left _ hx))
          (fun x hx => ht x (List.mem_append_left _ hx)) (by simpa using hlength) ?_
        omega
      have hlast : c = d := Char.toNat_inj.mp (by omega)
      rw [hinit, hlast]

/-- `int()` of plain digits. -/
theorem parseInt_asciiNumber (isPrintable : Char → Bool) {s : Str} (h : AsciiNumber s) :
    parseInt isPrintable s =
      if maxStrDigits < s.length then .error (digitLimitMessage s.length)
      else .ok (digitsValue s) := by
  obtain ⟨hne, hdigits⟩ := h
  have hrange : ∀ c ∈ s, 48 ≤ c.toNat ∧ c.toNat ≤ 57 := fun c hc =>
    toNat_of_isAsciiDigit (hdigits c hc)
  have hascii : toAsciiDecimal s = s := by
    refine if_pos (List.all_eq_true.mpr fun c hc => ?_)
    have := hrange c hc
    simp only [decide_eq_true_eq]
    omega
  have hhead : ∃ c t, s = c :: t ∧ 48 ≤ c.toNat ∧ c.toNat ≤ 57 := by
    obtain ⟨c, t, rfl⟩ := List.exists_cons_of_ne_nil hne
    exact ⟨c, t, rfl, hrange c List.mem_cons_self⟩
  have hspace : s.dropWhile isAsciiSpace = s := by
    obtain ⟨c, t, rfl, hlow, hhigh⟩ := hhead
    refine List.dropWhile_cons_of_neg ?_
    simp only [isAsciiSpace, Bool.or_eq_true, Bool.and_eq_true, decide_eq_true_eq, beq_iff_eq]
    omega
  have hsign : ∀ c : Char, c.toNat < 48 → s.head? ≠ some c := by
    obtain ⟨c, t, rfl, hlow, hhigh⟩ := hhead
    rintro _ hc ⟨⟩
    omega
  have hbody : ∀ c ∈ s, isDigitOrUnderscore c = true := fun c hc => by
    simp [isDigitOrUnderscore, hdigits c hc]
  have hunderscores : underscoresOk '_' s = true := underscoresOk_digits hdigits (Or.inr hne)
  unfold parseInt
  simp only [hascii, hspace, hsign '-' (by decide), hsign '+' (by decide), or_self, if_false,
    List.takeWhile_eq_self_iff.mpr hbody, List.dropWhile_eq_nil_iff.mpr hbody,
    List.filter_eq_self.mpr hdigits, hunderscores]
  simp

end IsalesApi.Python
