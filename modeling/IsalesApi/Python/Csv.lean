import Mathlib.Tactic

/-!
# `csv.reader` and `csv.DictReader`

The reader of the standard library with the `excel` dialect: a comma, the double
quote doubled inside quotes, not strict. It takes a text line by line and each
line character by character, with an end-of-line mark after it; a record ends
when it stands at the start of one again.
-/

namespace IsalesApi.Python.Csv

/-- A text is the list of its characters. -/
abbrev Text := List Char

abbrev Row := List Text

/-- `csv.Error`. -/
inductive Error where
  | fieldLimit
  | newLineInUnquotedField
deriving DecidableEq

inductive Mode where
  | startRecord
  | startField
  | inField
  | inQuotedField
  | quoteInQuotedField
  | eatCrNl
deriving DecidableEq

/-- The state of the parser: the fields it has saved and the one it is in. -/
structure ReaderState where
  mode : Mode
  fields : Row
  field : Text
deriving DecidableEq

namespace ReaderState

/-- `parse_reset`. -/
def start : ReaderState := ⟨.startRecord, [], []⟩

/-- `csv.field_size_limit()`. -/
def fieldLimit : Nat := 131072

/-- `parse_add_char`, and the state after it. -/
def addChar (p : ReaderState) (c : Char) (mode : Mode) : Except Error ReaderState :=
  if fieldLimit ≤ p.field.length then .error .fieldLimit
  else .ok { p with field := p.field ++ [c], mode := mode }

/-- `parse_save_field`, and the state after it. -/
def saveField (p : ReaderState) (mode : Mode) : ReaderState := ⟨mode, p.fields ++ [p.field], []⟩

def isNewline (c : Char) : Bool := c == '\n' || c == '\r'

/-- A character at the start of a field. -/
def processStartField (p : ReaderState) (c : Char) : Except Error ReaderState :=
  if isNewline c then .ok (p.saveField .eatCrNl)
  else if c = '"' then .ok { p with mode := .inQuotedField }
  else if c = ',' then .ok (p.saveField .startField)
  else p.addChar c .inField

/-- `parse_process_char`. -/
def process (p : ReaderState) (c : Char) : Except Error ReaderState :=
  match p.mode with
  | .startRecord =>
    if isNewline c then .ok { p with mode := .eatCrNl } else p.processStartField c
  | .startField => p.processStartField c
  | .inField =>
    if isNewline c then .ok (p.saveField .eatCrNl)
    else if c = ',' then .ok (p.saveField .startField)
    else p.addChar c .inField
  | .inQuotedField =>
    if c = '"' then .ok { p with mode := .quoteInQuotedField } else p.addChar c .inQuotedField
  | .quoteInQuotedField =>
    if c = '"' then p.addChar c .inQuotedField
    else if c = ',' then .ok (p.saveField .startField)
    else if isNewline c then .ok (p.saveField .eatCrNl)
    else p.addChar c .inField
  | .eatCrNl => if isNewline c then .ok p else .error .newLineInUnquotedField

/-- `parse_process_char` of the end-of-line mark. -/
def processEol (p : ReaderState) : ReaderState :=
  match p.mode with
  | .startRecord => p
  | .startField | .inField | .quoteInQuotedField => p.saveField .startRecord
  | .inQuotedField => p
  | .eatCrNl => { p with mode := .startRecord }

/-- One line. -/
def processLine (p : ReaderState) (line : Text) : Except Error ReaderState :=
  (line.foldlM process p).map processEol

end ReaderState

open ReaderState

/-- The lines of an `io.StringIO`: each but the last ends in `\n`. -/
def lines : Text → List Text
  | [] => []
  | c :: t =>
    if c = '\n' then [c] :: lines t
    else
      match lines t with
      | [] => [[c]]
      | l :: ls => (c :: l) :: ls

/-- The rows `csv.reader` gives from the parser's state on, up to the error it
raises, if it does. The text may end inside quotes. -/
def readRows : ReaderState → List Text → List Row × Option Error
  | p, [] => if p.field ≠ [] ∨ p.mode = .inQuotedField then ([p.fields ++ [p.field]], none)
    else ([], none)
  | p, line :: rest =>
    match p.processLine line with
    | .error e => ([], some e)
    | .ok q =>
      if q.mode = .startRecord then
        (q.fields :: (readRows start rest).1, (readRows start rest).2)
      else readRows q rest

/-- `csv.reader(io.StringIO(text))`. -/
def reader (text : Text) : List Row × Option Error := readRows start (lines text)

/-- `csv.DictReader` over the same text: the first row is the header, blank rows
after it are skipped. -/
structure DictReader where
  fieldnames : Row
  records : List Row
  error : Option Error

/-- The reader when its `fieldnames` are asked for; `none` when there is no row.
-/
def dictReader (text : Text) : Except Error (Option DictReader) :=
  match reader text with
  | ([], none) => .ok none
  | ([], some e) => .error e
  | (header :: rows, e) => .ok (some ⟨header, rows.filter (· ≠ []), e⟩)

/-- `row[key]` of the `dict` of a row, `none` when there is no such key. A short
row is filled up with `None`; of two columns of one name the last counts. -/
def cell : Row → Row → Text → Option (Option Text)
  | [], _, _ => none
  | name :: names, row, key =>
    match cell names row.tail key with
    | some v => some v
    | none => if name = key then some row.head? else none

theorem cell_eq_none {names row : Row} {key : Text} : cell names row key = none ↔ key ∉ names := by
  induction names generalizing row with
  | nil => simp [cell]
  | cons name names ih =>
    unfold cell
    cases hrest : cell names row.tail key with
    | some v =>
      have hin : key ∈ names := by
        by_contra hnot
        rw [ih.mpr hnot] at hrest
        cases hrest
      simp [hin]
    | none =>
      have hnot : key ∉ names := ih.mp hrest
      by_cases hname : name = key
      · simp [hname]
      · have hne : key ≠ name := fun h => hname h.symm
        simp [hname, hne, hnot]

/-! ## Reading a text in parts -/

theorem lines_newline (t : Text) : lines ('\n' :: t) = ['\n'] :: lines t := rfl

theorem lines_cons {c : Char} {t l : Text} {ls : List Text} (hc : c ≠ '\n')
    (h : lines t = l :: ls) : lines (c :: t) = (c :: l) :: ls := by
  unfold lines
  rw [if_neg hc, h]

theorem exists_lines {t : Text} (ht : t ≠ []) : ∃ l ls, lines t = l :: ls := by
  cases t with
  | nil => exact absurd rfl ht
  | cons c t =>
    by_cases hc : c = '\n'
    · rw [hc, lines_newline]
      exact ⟨_, _, rfl⟩
    · unfold lines
      rw [if_neg hc]
      cases lines t with
      | nil => exact ⟨_, _, rfl⟩
      | cons l ls => exact ⟨_, _, rfl⟩

theorem lines_append {a b : Text} (ha : a = [] ∨ a.getLast? = some '\n') :
    lines (a ++ b) = lines a ++ lines b := by
  induction a with
  | nil => rfl
  | cons c a ih =>
    rw [List.cons_append]
    by_cases hnil : a = []
    · subst hnil
      have hc : c = '\n' := by simpa using ha
      subst hc
      rfl
    · have hlast : a.getLast? = some '\n' := by
        rcases ha with h | h
        · cases h
        · rwa [List.getLast?_cons_of_ne_nil hnil] at h
      have ih := ih (Or.inr hlast)
      by_cases hc : c = '\n'
      · rw [hc, lines_newline, lines_newline, ih]
        rfl
      · obtain ⟨l, ls, hlines⟩ := exists_lines hnil
        rw [hlines, List.cons_append] at ih
        rw [lines_cons hc hlines, lines_cons hc ih]
        rfl

/-- A line that ends a record. -/
theorem readRows_record {p q : ReaderState} {line : Text} {rest : List Text}
    (hline : p.processLine line = .ok q) (hq : q.mode = .startRecord) :
    readRows p (line :: rest) = (q.fields :: (readRows start rest).1, (readRows start rest).2) := by
  simp only [readRows, hline, hq, if_true]

/-- A line that ends inside quotes. -/
theorem readRows_continues {p q : ReaderState} {line : Text} {rest : List Text}
    (hline : p.processLine line = .ok q) (hq : q.mode ≠ .startRecord) :
    readRows p (line :: rest) = readRows q rest := by
  simp only [readRows, hline, hq, if_false]

/-- The rows of lines that end where a record ends. -/
def wholeRows : ReaderState → List Text → Option (List Row)
  | p, [] => if p = start then some [] else none
  | p, line :: rest =>
    match p.processLine line with
    | .error _ => none
    | .ok q =>
      if q.mode = .startRecord then (wholeRows start rest).map fun rows => q.fields :: rows
      else wholeRows q rest

/-- After them the reader starts anew. -/
theorem readRows_append {p : ReaderState} {ls ms : List Text} {rows : List Row}
    (h : wholeRows p ls = some rows) :
    readRows p (ls ++ ms) = (rows ++ (readRows start ms).1, (readRows start ms).2) := by
  induction ls generalizing p rows with
  | nil =>
    unfold wholeRows at h
    split at h
    · rename_i hp
      cases h
      rw [hp]
      rfl
    · cases h
  | cons line rest ih =>
    unfold wholeRows at h
    rw [List.cons_append]
    cases hline : p.processLine line with
    | error e =>
      rw [hline] at h
      cases h
    | ok q =>
      rw [hline] at h
      by_cases hq : q.mode = .startRecord
      · simp only [hq, if_true] at h
        obtain ⟨rows', hrest, rfl⟩ := Option.map_eq_some_iff.mp h
        rw [readRows_record hline hq, ih hrest]
        rfl
      · simp only [hq, if_false] at h
        rw [readRows_continues hline hq, ih h]

/-- The text is made of whole rows: it can be followed by another without either
changing how the other is read. -/
structure Whole (text : Text) (rows : List Row) : Prop where
  ends : text = [] ∨ text.getLast? = some '\n'
  reads : wholeRows start (lines text) = some rows

theorem reader_append {a b : Text} {rows : List Row} (h : Whole a rows) :
    reader (a ++ b) = (rows ++ (reader b).1, (reader b).2) := by
  unfold reader
  rw [lines_append h.ends, readRows_append h.reads]

end IsalesApi.Python.Csv
