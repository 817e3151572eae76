import IsalesApi.Python.Text

/-!
# `json.loads`

The decoder of the standard library, on a text. A string may hold lone
surrogates, so it is kept as its code points, and of a float its literal is
kept. `depth` is how many nested containers the interpreter's stack still has
room for; the scanner raises `RecursionError` beyond it. The errors carry the
text of a `JSONDecodeError` and what was left to read where it was found.

The scanner recurses on a number of steps, of which a text never takes more than
`loads` gives it (`loads_ne_outOfSteps`).
-/

namespace IsalesApi.Python

inductive Json where
  | null
  | bool (b : Bool)
  | int (n : Int)
  | float (literal : Str)
  | str (codes : List Nat)
  | array (items : List Json)
  | object (fields : List (List Nat × Json))

namespace Json

inductive Error where
  | decode (msg : String) (rest : Str)
  | valueError (msg : String)
  | recursion
  | outOfSteps

abbrev Scan (α : Type) := Except Error (α × Str)

def isWhitespace (c : Char) : Bool := c == ' ' || c == '\t' || c == '\n' || c == '\r'

def skipWhitespace (s : Str) : Str := s.dropWhile isWhitespace

/-! ## Strings -/

def hexValue (c : Char) : Option Nat :=
  if '0' ≤ c ∧ c ≤ '9' then some (c.toNat - 0x30)
  else if 'a' ≤ c ∧ c ≤ 'f' then some (c.toNat - 0x57)
  else if 'A' ≤ c ∧ c ≤ 'F' then some (c.toNat - 0x37)
  else none

/-- The value of `\uXXXX`. -/
def hex4 (a b c d : Char) : Option Nat := do
  let a ← hexValue a
  let b ← hexValue b
  let c ← hexValue c
  let d ← hexValue d
  return a * 0x1000 + b * 0x100 + c * 0x10 + d

def isHighSurrogate (n : Nat) : Bool := 0xd800 ≤ n && n ≤ 0xdbff

def isLowSurrogate (n : Nat) : Bool := 0xdc00 ≤ n && n ≤ 0xdfff

def joinSurrogates (hi lo : Nat) : Nat := 0x10000 + (hi - 0xd800) * 0x400 + (lo - 0xdc00)

/-- What a backslash and this character stand for. -/
def escapeValue (c : Char) : Option Nat :=
  if c = '"' ∨ c = '\\' ∨ c = '/' then some c.toNat
  else if c = 'b' then some 8
  else if c = 'f' then some 12
  else if c = 'n' then some 10
  else if c = 'r' then some 13
  else if c = 't' then some 9
  else none

def unterminated (start : Str) : Error := .decode "Unterminated string starting at" start

def badHex (rest : Str) : Error := .decode "Invalid \\uXXXX escape" rest

/-- The rest of a string whose opening quote is the first character of `start`;
`codes` are those read, the last first. An escape in hex is only read when the
text goes on after it. -/
def scanString (start : Str) (codes : List Nat) : Str → Scan (List Nat)
  | [] => .error (unterminated start)
  | '"' :: s => .ok (codes.reverse, s)
  | ['\\'] => .error (unterminated start)
  | '\\' :: 'u' :: a :: b :: c :: d :: '\\' :: 'u' :: a' :: b' :: c' :: d' :: e :: s =>
    match hex4 a b c d with
    | none =>
      .error (badHex ('u' :: a :: b :: c :: d :: '\\' :: 'u' :: a' :: b' :: c' :: d' :: e :: s))
    | some n =>
      if isHighSurrogate n then
        match hex4 a' b' c' d' with
        | none => .error (badHex ('u' :: a' :: b' :: c' :: d' :: e :: s))
        | some m =>
          if isLowSurrogate m then scanString start (joinSurrogates n m :: codes) (e :: s)
          else scanString start (n :: codes) ('\\' :: 'u' :: a' :: b' :: c' :: d' :: e :: s)
      else scanString start (n :: codes) ('\\' :: 'u' :: a' :: b' :: c' :: d' :: e :: s)
  | '\\' :: 'u' :: a :: b :: c :: d :: e :: s =>
    match hex4 a b c d with
    | none => .error (badHex ('u' :: a :: b :: c :: d :: e :: s))
    | some n => scanString start (n :: codes) (e :: s)
  | '\\' :: 'u' :: s => .error (badHex ('u' :: s))
  | '\\' :: c :: s =>
    match escapeValue c with
    | none => .error (.decode "Invalid \\escape" ('\\' :: c :: s))
    | some n => scanString start (n :: codes) s
  | c :: s =>
    if c.toNat ≤ 0x1f then .error (.decode "Invalid control character at" (c :: s))
    else scanString start (c.toNat :: codes) s

/-! ## Numbers -/

def expectingValue (s : Str) : Error := .decode "Expecting value" s

/-- What is consumed as a fraction, and the rest. -/
def scanFraction : Str → Str × Str
  | '.' :: d :: s =>
    if isAsciiDigit d then ('.' :: d :: s.takeWhile isAsciiDigit, s.dropWhile isAsciiDigit)
    else ([], '.' :: d :: s)
  | s => ([], s)

/-- The sign of an exponent. -/
def exponentSign (s : Str) : Str :=
  if s.head? = some '-' ∨ s.head? = some '+' then s.take 1 else []

/-- What is consumed as an exponent, and the rest: an `e` without digits is not
one. -/
def scanExponent : Str → Str × Str
  | [] => ([], [])
  | e :: s =>
    let sign := exponentSign s
    let t := s.drop sign.length
    if (e = 'e' ∨ e = 'E') ∧ t.takeWhile isAsciiDigit ≠ [] then
      (e :: sign ++ t.takeWhile isAsciiDigit, t.dropWhile isAsciiDigit)
    else ([], e :: s)

/-- The digits of an integer after the first: none after a zero. -/
def moreDigits (c : Char) (s : Str) : Str := if c = '0' then [] else s.takeWhile isAsciiDigit

def intValue (negative : Bool) (digits : Str) : Int :=
  if negative then -(digitsValue digits : Int) else digitsValue digits

/-- `_match_number`. -/
def scanNumber (s : Str) : Scan Json :=
  let negative := s.head? = some '-'
  match if negative then s.tail else s with
  | [] => .error (expectingValue s)
  | c :: t =>
    if !isAsciiDigit c then .error (expectingValue s)
    else
      let more := moreDigits c t
      let (fraction, u) := scanFraction (t.drop more.length)
      let (exponent, rest) := scanExponent u
      if fraction ++ exponent ≠ [] then
        .ok (.float (s.take (if negative then 1 else 0) ++ c :: more ++ fraction ++ exponent), rest)
      else if maxStrDigits < (c :: more).length then
        .error (.valueError (digitLimitMessage (c :: more).length))
      else .ok (.int (intValue negative (c :: more)), rest)

/-! ## Values -/

/-- `d[k] = v`. -/
def dictSet (k : List Nat) (v : Json) : List (List Nat × Json) → List (List Nat × Json)
  | [] => [(k, v)]
  | p :: d => if p.1 = k then (k, v) :: d else p :: dictSet k v d

/-- The `dict` of the pairs of an object: the last value of a key counts. -/
def dictOf (pairs : List (List Nat × Json)) : List (List Nat × Json) :=
  pairs.foldl (fun d p => dictSet p.1 p.2 d) []

def expectingComma (s : Str) : Error := .decode "Expecting ',' delimiter" s

mutual

/-- `_scan_once`. -/
def scanOnce : Nat → Nat → Str → Scan Json
  | 0, _, _ => .error .outOfSteps
  | steps + 1, depth, s =>
    match s with
    | '"' :: t => (scanString s [] t).map fun r => (.str r.1, r.2)
    | '{' :: t =>
      match depth, skipWhitespace t with
      | 0, _ => .error .recursion
      | _ + 1, '}' :: u => .ok (.object [], u)
      | depth + 1, u => (scanFields steps depth u).map fun r => (.object (dictOf r.1), r.2)
    | '[' :: t =>
      match depth, skipWhitespace t with
      | 0, _ => .error .recursion
      | _ + 1, ']' :: u => .ok (.array [], u)
      | depth + 1, u => (scanItems steps depth u).map fun r => (.array r.1, r.2)
    | 'n' :: 'u' :: 'l' :: 'l' :: t => .ok (.null, t)
    | 't' :: 'r' :: 'u' :: 'e' :: t => .ok (.bool true, t)
    | 'f' :: 'a' :: 'l' :: 's' :: 'e' :: t => .ok (.bool false, t)
    | 'N' :: 'a' :: 'N' :: t => .ok (.float "NaN".toList, t)
    | 'I' :: 'n' :: 'f' :: 'i' :: 'n' :: 'i' :: 't' :: 'y' :: t =>
      .ok (.float "Infinity".toList, t)
    | '-' :: 'I' :: 'n' :: 'f' :: 'i' :: 'n' :: 'i' :: 't' :: 'y' :: t =>
      .ok (.float "-Infinity".toList, t)
    | s => scanNumber s

/-- The items of an array, from the first on. -/
def scanItems : Nat → Nat → Str → Scan (List Json)
  | 0, _, _ => .error .outOfSteps
  | steps + 1, depth, s =>
    match scanOnce steps depth s with
    | .error e => .error e
    | .ok (v, t) =>
      match skipWhitespace t with
      | ']' :: u => .ok ([v], u)
      | ',' :: u => (scanItems steps depth (skipWhitespace u)).map fun r => (v :: r.1, r.2)
      | u => .error (expectingComma u)

/-- The fields of an object, from the first key on. -/
def scanFields : Nat → Nat → Str → Scan (List (List Nat × Json))
  | 0, _, _ => .error .outOfSteps
  | steps + 1, depth, s =>
    match s with
    | '"' :: t =>
      match scanString s [] t with
      | .error e => .error e
      | .ok (k, t) =>
        match skipWhitespace t with
        | ':' :: u =>
          match scanOnce steps depth (skipWhitespace u) with
          | .error e => .error e
          | .ok (v, w) =>
            match skipWhitespace w with
            | '}' :: x => .ok ([(k, v)], x)
            | ',' :: x =>
              (scanFields steps depth (skipWhitespace x)).map fun r => ((k, v) :: r.1, r.2)
            | x => .error (expectingComma x)
        | u => .error (.decode "Expecting ':' delimiter" u)
    | s => .error (.decode "Expecting property name enclosed in double quotes" s)

end

/-- `json.loads(s)`. -/
def loads (depth : Nat) (s : Str) : Except Error Json :=
  if s.head? = some '\ufeff' then
    .error (.decode "Unexpected UTF-8 BOM (decode using utf-8-sig)" s)
  else
    match scanOnce (2 * s.length + 1) depth (skipWhitespace s) with
    | .error e => .error e
    | .ok (v, t) =>
      match skipWhitespace t with
      | [] => .ok v
      | rest => .error (.decode "Extra data" rest)

/-- `str(exc)` of a `JSONDecodeError` in the text `doc`. -/
def decodeErrorText (doc : Str) (msg : String) (rest : Str) : String :=
  let pos := doc.length - rest.length
  let before := doc.take pos
  let line := before.count '\n' + 1
  let column := (before.reverse.takeWhile (· ≠ '\n')).length + 1
  msg ++ ": line " ++ toString line ++ " column " ++ toString column ++ " (char " ++ toString pos ++
    ")"

/-! ## The scanner ends -/

/-- What a scan that has read something leaves, and that it did not stop for
want of steps. -/
def Ends {α : Type} (n : Nat) : Scan α → Prop
  | .ok r => r.2.length < n
  | .error e => e ≠ .outOfSteps

theorem Ends.mono {α : Type} {n m : Nat} {x : Scan α} (h : Ends n x) (hnm : n ≤ m) : Ends m x := by
  cases x with
  | error e => exact h
  | ok r => exact Nat.lt_of_lt_of_le h hnm

theorem Ends.map {α β : Type} {n : Nat} {x : Scan α} (h : Ends n x) (f : α → β) :
    Ends n (x.map fun r => (f r.1, r.2)) := by
  cases x with
  | error e => exact h
  | ok r => exact h

theorem Ends.read {α : Type} {n : Nat} {x : Scan α} {a : α} {t : Str} (h : Ends n x)
    (hx : x = .ok (a, t)) : t.length < n := by
  rw [hx] at h
  exact h

theorem Ends.raised {α β : Type} {n m : Nat} {x : Scan α} {e : Error} (h : Ends n x)
    (hx : x = .error e) : Ends m (.error e : Scan β) := by
  rw [hx] at h
  exact h

theorem length_skipWhitespace (s : Str) : (skipWhitespace s).length ≤ s.length :=
  (List.dropWhile_suffix _).length_le

theorem length_of_skipWhitespace {s u : Str} {c : Char} (h : skipWhitespace s = c :: u) :
    u.length < s.length := by
  have hskip := length_skipWhitespace s
  rw [h] at hskip
  exact hskip

theorem ends_scanString (start : Str) (codes : List Nat) (s : Str) :
    Ends s.length (scanString start codes s) := by
  fun_induction scanString start codes s with
  | case2 => exact Nat.lt_succ_self _
  | case1 | case3 | case4 | case5 | case9 | case11 | case12 | case14 => exact nofun
  | case6 | case7 | case8 | case10 | case13 | case15 =>
    -- the string goes on
    rename_i ih
    refine ih.mono ?_
    simp only [List.length_cons]
    omega

theorem length_scanFraction (s : Str) : (scanFraction s).2.length ≤ s.length := by
  unfold scanFraction
  split
  · rename_i d t
    split
    · have := (List.dropWhile_suffix (p := isAsciiDigit) (l := t)).length_le
      simp only [List.length_cons]
      omega
    · exact le_refl _
  · exact le_refl _

theorem length_scanExponent (s : Str) : (scanExponent s).2.length ≤ s.length := by
  unfold scanExponent
  split
  · exact le_refl _
  · rename_i e t
    simp only
    split
    · refine le_trans (List.dropWhile_suffix _).length_le ?_
      simp only [List.length_drop, List.length_cons]
      omega
    · exact le_refl _

theorem ends_scanNumber (s : Str) : Ends s.length (scanNumber s) := by
  unfold scanNumber
  simp only
  have hsign : (if s.head? = some '-' then s.tail else s).length ≤ s.length := by
    split <;> simp
  split
  · exact nofun
  · rename_i c t heq
    rw [heq] at hsign
    split
    · exact nofun
    · have hrest : ∀ k, (scanExponent (scanFraction (t.drop k)).2).2.length < s.length := by
        intro k
        have hexponent := length_scanExponent (scanFraction (t.drop k)).2
        have hfraction := length_scanFraction (t.drop k)
        have hdrop : (t.drop k).length ≤ t.length := by simp
        simp only [List.length_cons] at hsign
        omega
      split
      · exact hrest _
      · split
        · exact nofun
        · exact hrest _

/-! The three scanners, given that what they call ends on shorter texts. -/

section Values

variable {steps depth : Nat} {s : Str}

theorem ends_scanOnce
    (hitems : ∀ depth t, t.length < s.length → Ends t.length (scanItems steps depth t))
    (hfields : ∀ depth t, t.length < s.length → Ends t.length (scanFields steps depth t)) :
    Ends s.length (scanOnce (steps + 1) depth s) := by
  unfold scanOnce
  split
  · rename_i t
    exact ((ends_scanString _ [] t).mono (Nat.le_succ _)).map Json.str
  · rename_i t
    have hskip := Nat.lt_succ_of_le (length_skipWhitespace t)
    split
    · exact nofun
    · rename_i u hu
      exact Nat.lt_succ_of_lt (length_of_skipWhitespace hu)
    · exact ((hfields _ _ hskip).mono hskip.le).map fun f => Json.object (dictOf f)
  · rename_i t
    have hskip := Nat.lt_succ_of_le (length_skipWhitespace t)
    split
    · exact nofun
    · rename_i u hu
      exact Nat.lt_succ_of_lt (length_of_skipWhitespace hu)
    · exact ((hitems _ _ hskip).mono hskip.le).map Json.array
  -- the literals
  iterate 6
    · show List.length _ < List.length _
      simp only [List.length_cons]
      omega
  · exact ends_scanNumber s

theorem ends_scanItems (hvalue : Ends s.length (scanOnce steps depth s))
    (hitems : ∀ t, t.length < s.length → Ends t.length (scanItems steps depth t)) :
    Ends s.length (scanItems (steps + 1) depth s) := by
  unfold scanItems
  split
  · rename_i e heq
    exact hvalue.raised heq
  · rename_i v t heq
    have hlt := hvalue.read heq
    split
    · rename_i u hu
      exact (length_of_skipWhitespace hu).trans hlt
    · rename_i u hu
      have hrest : (skipWhitespace u).length < s.length :=
        (length_skipWhitespace u).trans_lt ((length_of_skipWhitespace hu).trans hlt)
      exact ((hitems _ hrest).mono hrest.le).map fun vs => v :: vs
    · exact nofun

theorem ends_scanFields
    (honce : ∀ t, t.length < s.length → Ends t.length (scanOnce steps depth t))
    (hfields : ∀ t, t.length < s.length → Ends t.length (scanFields steps depth t)) :
    Ends s.length (scanFields (steps + 1) depth s) := by
  unfold scanFields
  split
  · rename_i t
    have hkey := (ends_scanString ('"' :: t) [] t).mono (Nat.le_succ _)
    split
    · rename_i e heq
      exact hkey.raised heq
    · rename_i k w heq
      have hlt := hkey.read heq
      split
      · rename_i u hu
        have hcolon : (skipWhitespace u).length < ('"' :: t).length :=
          (length_skipWhitespace u).trans_lt ((length_of_skipWhitespace hu).trans hlt)
        have hvalue := (honce _ hcolon).mono hcolon.le
        split
        · rename_i e heq'
          exact hvalue.raised heq'
        · rename_i v x heq'
          have hlt' := hvalue.read heq'
          split
          · rename_i y hy
            exact (length_of_skipWhitespace hy).trans hlt'
          · rename_i y hy
            have hrest : (skipWhitespace y).length < ('"' :: t).length :=
              (length_skipWhitespace y).trans_lt ((length_of_skipWhitespace hy).trans hlt')
            exact ((hfields _ hrest).mono hrest.le).map fun ps => (k, v) :: ps
          · exact nofun
      · exact nofun
  · exact nofun

end Values

/-- **The steps suffice**: every character read pays for two. -/
theorem ends_scan (steps : Nat) :
    (∀ depth s, 2 * s.length + 1 ≤ steps → Ends s.length (scanOnce steps depth s)) ∧
    (∀ depth s, 2 * s.length + 2 ≤ steps → Ends s.length (scanItems steps depth s)) ∧
    (∀ depth s, 2 * s.length + 2 ≤ steps → Ends s.length (scanFields steps depth s)) := by
  induction steps with
  | zero => exact ⟨by intros; omega, by intros; omega, by intros; omega⟩
  | succ steps ih =>
    obtain ⟨honce, hitems, hfields⟩ := ih
    refine ⟨?_, ?_, ?_⟩
    · intro depth s hsteps
      refine ends_scanOnce ?_ ?_
      · intro depth t ht
        exact hitems depth t (by omega)
      · intro depth t ht
        exact hfields depth t (by omega)
    · intro depth s hsteps
      refine ends_scanItems (honce depth s (by omega)) ?_
      intro t ht
      exact hitems depth t (by omega)
    · intro depth s hsteps
      refine ends_scanFields ?_ ?_
      · intro t ht
        exact honce depth t (by omega)
      · intro t ht
        exact hfields depth t (by omega)

theorem loads_ne_outOfSteps (depth : Nat) (s : Str) : loads depth s ≠ .error .outOfSteps := by
  unfold loads
  have hskip := length_skipWhitespace s
  have hvalue := (ends_scan (2 * s.length + 1)).1 depth (skipWhitespace s) (by omega)
  split
  · exact nofun
  · split
    · rename_i e heq
      rw [heq] at hvalue
      intro h
      exact hvalue (Except.error.inj h)
    · split
      · exact nofun
      · exact nofun

end Json

end IsalesApi.Python
