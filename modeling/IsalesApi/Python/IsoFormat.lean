import IsalesApi.Python.Dates

/-!
# `date.fromisoformat`

The texts Python 3.11 reads a date from: `YYYY-MM-DD`, the same without the
dashes, and a week with or without its day. What is left of a text of 7, 8 or 10
bytes when its fields are read is ignored.
-/

namespace IsalesApi.Python

/-! ## Ordinals and weeks -/

/-- `date(year, month, day)`; `error` is the text of the `ValueError`. -/
def newDate (year month day : Nat) : Except String Date :=
  if hyear : 1 ≤ year ∧ year ≤ 9999 then
    if hmonth : 1 ≤ month ∧ month ≤ 12 then
      if hday : 1 ≤ day ∧ day ≤ daysInMonth year month then
        .ok ⟨year, month, day, hyear, hmonth, hday⟩
      else .error "day is out of range for month"
    else .error "month must be in 1..12"
  else .error ("year " ++ toString year ++ " is out of range")

def daysBeforeYear (year : Nat) : Nat :=
  let y := year - 1
  y * 365 + y / 4 - y / 100 + y / 400

def daysBeforeMonth (month : Nat) : Nat :=
  [0, 0, 31, 59, 90, 120, 151, 181, 212, 243, 273, 304, 334].getD month 0

/-- `weekday(year, 1, 1)`, which is 0 on a Monday. -/
def firstWeekday (year : Nat) : Nat := (daysBeforeYear year + 7) % 7

/-- The ordinal of the Monday of week 1. -/
def isoWeek1Monday (year : Nat) : Nat :=
  let firstDay := daysBeforeYear year + 1
  let week1Monday := firstDay - firstWeekday year
  if 3 < firstWeekday year then week1Monday + 7 else week1Monday

/-- `ord_to_ymd`. -/
def ordToYmd (ordinal : Nat) : Nat × Nat × Nat :=
  let n := ordinal - 1
  let n400 := n / 146097
  let n := n % 146097
  let n100 := n / 36524
  let n := n % 36524
  let n4 := n / 1461
  let n := n % 1461
  let n1 := n / 365
  let n := n % 365
  let year := n400 * 400 + 1 + n100 * 100 + n4 * 4 + n1
  if n1 = 4 ∨ n100 = 4 then (year - 1, 12, 31)
  else
    let leapyear := n1 = 3 ∧ (n4 ≠ 24 ∨ n100 = 3)
    let month := (n + 50) / 32
    let preceding := daysBeforeMonth month + if 2 < month ∧ leapyear then 1 else 0
    if n < preceding then
      (year, month - 1, n - (preceding - daysInMonth year (month - 1)) + 1)
    else (year, month, n - preceding + 1)

/-- `iso_to_ymd`. The days of the ISO year 0 lie before the first ordinal, and no
month comes out for them. -/
def isoToYmd (isoYear isoWeek isoDay : Nat) : Option (Nat × Nat × Nat) :=
  let longYear := firstWeekday isoYear = 3 ∨ firstWeekday isoYear = 2 ∧ isLeap isoYear
  if isoWeek = 0 ∨ 53 < isoWeek ∨ isoWeek = 53 ∧ (isoYear = 0 ∨ ¬ longYear) then none
  else if isoDay = 0 ∨ 7 < isoDay then none
  else if isoYear = 0 then some (1, 0, 0)
  else some (ordToYmd (isoWeek1Monday isoYear + (isoWeek - 1) * 7 + isoDay - 1))

/-! ## The reader -/

/-- `parse_digits`: exactly `n` digits, their value and what comes after. -/
def parseDigits (n : Nat) (s : Str) : Option (Nat × Str) :=
  if (s.take n).length = n ∧ (s.take n).all isAsciiDigit then
    some (digitsValue (s.take n), s.drop n)
  else none

/-- `*(p++) == '-'`, when the fields are separated. -/
def separator : Bool → Str → Option Str
  | false, s => some s
  | true, '-' :: s => some s
  | true, _ => none

/-- The fields after the year of a week date. -/
def parseWeek (usesSeparator : Bool) (year : Nat) (s : Str) : Option (Nat × Nat × Nat) :=
  (parseDigits 2 s).bind fun (isoWeek, s) =>
  if s = [] then isoToYmd year isoWeek 1
  else
    (separator usesSeparator s).bind fun s =>
    (parseDigits 1 s).bind fun (isoDay, _) =>
    isoToYmd year isoWeek isoDay

/-- The fields after the year of a calendar date. -/
def parseCalendar (usesSeparator : Bool) (year : Nat) (s : Str) : Option (Nat × Nat × Nat) :=
  (parseDigits 2 s).bind fun (month, s) =>
  (separator usesSeparator s).bind fun s =>
  (parseDigits 2 s).bind fun (day, _) =>
  some (year, month, day)

/-- `parse_isoformat_date`. -/
def parseIsoformatDate (s : Str) : Option (Nat × Nat × Nat) :=
  (parseDigits 4 s).bind fun (year, s) =>
  let usesSeparator := s.head? = some '-'
  let s := if usesSeparator then s.tail else s
  if s.head? = some 'W' then parseWeek usesSeparator year s.tail
  else parseCalendar usesSeparator year s

/-- The length of the text in UTF-8. -/
def byteLength (s : Str) : Nat := (s.map Char.utf8Size).sum

/-- `date.fromisoformat(s)`; `error` is the text of the `ValueError`. -/
def fromisoformat (isPrintable : Char → Bool) (s : Str) : Except String Date :=
  let invalid := "Invalid isoformat string: " ++ String.ofList (repr isPrintable s)
  if byteLength s ∈ [7, 8, 10] then
    match parseIsoformatDate s with
    | none => .error invalid
    | some (year, month, day) => newDate year month day
  else .error invalid

/-! ## Fields -/

theorem newDate_eq_ok {year month day : Nat} {d : Date} :
    newDate year month day = .ok d ↔ d.year = year ∧ d.month = month ∧ d.day = day := by
  constructor
  · intro h
    unfold newDate at h
    split at h
    · split at h
      · split at h
        · cases h
          exact ⟨rfl, rfl, rfl⟩
        · cases h
      · cases h
    · cases h
  · rintro ⟨rfl, rfl, rfl⟩
    unfold newDate
    rw [dif_pos d.year_mem, dif_pos d.month_mem, dif_pos d.day_mem]

theorem parseDigits_eq_some {n v : Nat} {s t : Str} : parseDigits n s = some (v, t) ↔
    ∃ digits : Str, digits.length = n ∧ (∀ c ∈ digits, isAsciiDigit c = true) ∧
      s = digits ++ t ∧ v = digitsValue digits := by
  unfold parseDigits
  constructor
  · intro h
    split at h
    · rename_i hread
      cases h
      exact ⟨s.take n, hread.1, List.all_eq_true.mp hread.2, (List.take_append_drop n s).symm, rfl⟩
    · cases h
  · rintro ⟨digits, rfl, hdigits, rfl, rfl⟩
    rw [List.take_left, List.drop_left, if_pos ⟨rfl, List.all_eq_true.mpr hdigits⟩]

theorem separator_true {s t : Str} : separator true s = some t ↔ s = '-' :: t := by
  constructor
  · intro h
    unfold separator at h
    split at h
    · contradiction
    · cases h
      rfl
    · cases h
  · rintro rfl
    rfl

/-- A calendar date with dashes is read field by field. -/
theorem parseCalendar_true {year : Nat} {s : Str} {ymd : Nat × Nat × Nat} :
    parseCalendar true year s = some ymd ↔
      ∃ month day rest : Str, month.length = 2 ∧ (∀ c ∈ month, isAsciiDigit c = true) ∧
        day.length = 2 ∧ (∀ c ∈ day, isAsciiDigit c = true) ∧
        s = month ++ '-' :: (day ++ rest) ∧
        ymd = (year, digitsValue month, digitsValue day) := by
  simp only [parseCalendar, Option.bind_eq_some_iff, Prod.exists, parseDigits_eq_some,
    separator_true]
  constructor
  · rintro ⟨_, _, ⟨month, hmonth, hmonths, rfl, rfl⟩, _, rfl, _, rest,
      ⟨day, hday, hdays, rfl, rfl⟩, h⟩
    cases h
    exact ⟨month, day, rest, hmonth, hmonths, hday, hdays, rfl, rfl⟩
  · rintro ⟨month, day, rest, hmonth, hmonths, hday, hdays, rfl, rfl⟩
    exact ⟨_, _, ⟨month, hmonth, hmonths, rfl, rfl⟩, _, rfl, _, rest,
      ⟨day, hday, hdays, rfl, rfl⟩, rfl⟩

/-- The text has a dash after the year, and no week. -/
def Dashed (s : Str) : Prop := s[4]? = some '-' ∧ s[5]? ≠ some 'W'

instance (s : Str) : Decidable (Dashed s) := inferInstanceAs (Decidable (_ ∧ _))

theorem parseIsoformatDate_dashed {s : Str} {ymd : Nat × Nat × Nat} :
    parseIsoformatDate s = some ymd ∧ Dashed s ↔
      ∃ year month day rest : Str, year.length = 4 ∧ (∀ c ∈ year, isAsciiDigit c = true) ∧
        month.length = 2 ∧ (∀ c ∈ month, isAsciiDigit c = true) ∧
        day.length = 2 ∧ (∀ c ∈ day, isAsciiDigit c = true) ∧
        s = year ++ '-' :: (month ++ '-' :: (day ++ rest)) ∧
        ymd = (digitsValue year, digitsValue month, digitsValue day) := by
  unfold parseIsoformatDate Dashed
  simp only [Option.bind_eq_some_iff, Prod.exists, parseDigits_eq_some]
  constructor
  · rintro ⟨⟨_, t, ⟨year, hyear, hyears, rfl, rfl⟩, h⟩, hdash, hweek⟩
    rw [List.getElem?_append_right (by omega), hyear] at hdash hweek
    obtain ⟨u, rfl⟩ : ∃ u, t = '-' :: u :=
      List.head?_eq_some_iff.mp (by simpa [List.head?_eq_getElem?] using hdash)
    have hcalendar : u.head? ≠ some 'W' := by simpa [List.head?_eq_getElem?] using hweek
    simp only [List.head?_cons, if_true, List.tail_cons, decide_true, if_neg hcalendar] at h
    obtain ⟨month, day, rest, hmonth, hmonths, hday, hdays, rfl, rfl⟩ := parseCalendar_true.mp h
    exact ⟨year, month, day, rest, hyear, hyears, hmonth, hmonths, hday, hdays, rfl, rfl⟩
  · rintro ⟨year, month, day, rest, hyear, hyears, hmonth, hmonths, hday, hdays, rfl, rfl⟩
    obtain ⟨c, d, rfl⟩ := List.length_eq_two.mp hmonth
    have hc : c ≠ 'W' := by
      rintro rfl
      exact absurd (hmonths 'W' List.mem_cons_self) (by decide)
    refine ⟨⟨_, _, ⟨year, hyear, hyears, rfl, rfl⟩, ?_⟩, ?_, ?_⟩
    · simp only [List.head?_cons, if_true, List.tail_cons, decide_true, List.cons_append,
        Option.some.injEq, hc, if_false]
      exact parseCalendar_true.mpr ⟨[c, d], day, rest, rfl, hmonths, hday, hdays, rfl, rfl⟩
    · rw [List.getElem?_append_right (by omega), hyear]
      rfl
    · rw [List.getElem?_append_right (by omega), hyear]
      simpa using hc

/-! ## Texts that read back unchanged -/

theorem byteLength_append (s t : Str) : byteLength (s ++ t) = byteLength s + byteLength t := by
  simp [byteLength]

theorem byteLength_cons (c : Char) (s : Str) : byteLength (c :: s) = c.utf8Size + byteLength s := by
  simp [byteLength]

theorem byteLength_digits {s : Str} (h : ∀ c ∈ s, isAsciiDigit c = true) :
    byteLength s = s.length := by
  have hone : ∀ c ∈ s, c.utf8Size = 1 := by
    intro c hc
    have hrange := toNat_of_isAsciiDigit (h c hc)
    refine if_pos (UInt32.le_iff_toNat_le.mpr ?_)
    show c.toNat ≤ 127
    omega
  unfold byteLength
  rw [List.map_congr_left hone, List.map_const', List.sum_replicate, smul_eq_mul, mul_one]

theorem eq_nil_of_byteLength {s : Str} (h : byteLength s = 0) : s = [] := by
  cases s with
  | nil => rfl
  | cons c s =>
    have hpos := c.utf8Size_pos
    rw [byteLength_cons] at h
    omega

/-- The bytes of a calendar date, up to what is ignored. -/
theorem byteLength_calendar {year month day : Str} (rest : Str)
    (hyears : ∀ c ∈ year, isAsciiDigit c = true) (hmonths : ∀ c ∈ month, isAsciiDigit c = true)
    (hdays : ∀ c ∈ day, isAsciiDigit c = true) :
    byteLength (year ++ '-' :: (month ++ '-' :: (day ++ rest))) =
      year.length + month.length + day.length + 2 + byteLength rest := by
  have hdash : '-'.utf8Size = 1 := rfl
  rw [byteLength_append, byteLength_cons, byteLength_append, byteLength_cons, byteLength_append,
    byteLength_digits hyears, byteLength_digits hmonths, byteLength_digits hdays, hdash]
  omega

variable {isPrintable : Char → Bool}

theorem fromisoformat_eq_ok {s : Str} {d : Date} : fromisoformat isPrintable s = .ok d ↔
    byteLength s ∈ [7, 8, 10] ∧ parseIsoformatDate s = some (d.year, d.month, d.day) := by
  unfold fromisoformat
  by_cases hlength : byteLength s ∈ [7, 8, 10]
  · simp only [hlength, if_true, true_and]
    cases parseIsoformatDate s with
    | none => simp
    | some ymd =>
      obtain ⟨year, month, day⟩ := ymd
      simp only [newDate_eq_ok, Option.some.injEq, Prod.mk.injEq]
      constructor
      · rintro ⟨rfl, rfl, rfl⟩
        exact ⟨rfl, rfl, rfl⟩
      · rintro ⟨rfl, rfl, rfl⟩
        exact ⟨rfl, rfl, rfl⟩
  · simp only [hlength, if_false, false_and, iff_false]
    exact nofun

/-- **The texts that read back unchanged** are those with dashes and no week:
they leave nothing to ignore. -/
theorem fromisoformat_dashed_iff {s : Str} {d : Date} :
    fromisoformat isPrintable s = .ok d ∧ Dashed s ↔ d.isoformat = s := by
  obtain ⟨hyear, hmonth, hday⟩ := d.length_fields
  have hdigits : ∀ width n, ∀ c ∈ padded width n, isAsciiDigit c = true :=
    fun _ _ _ hc => isAsciiDigit_of_mem_padded hc
  have hiso : d.isoformat =
      padded 4 d.year ++ '-' :: (padded 2 d.month ++ '-' :: (padded 2 d.day ++ [])) := by
    simp [Date.isoformat]
  rw [fromisoformat_eq_ok, and_assoc, parseIsoformatDate_dashed]
  constructor
  · rintro ⟨hlength, year, month, day, rest, hy, hys, hm, hms, hd, hds, rfl, hymd⟩
    -- the fields and dashes take ten bytes, so nothing is left to ignore
    rw [byteLength_calendar rest hys hms hds] at hlength
    have hrest : rest = [] := by
      refine eq_nil_of_byteLength ?_
      simp only [List.mem_cons, List.not_mem_nil, or_false] at hlength
      omega
    simp only [Prod.mk.injEq] at hymd
    obtain ⟨hyv, hmv, hdv⟩ := hymd
    have hyp : padded 4 (digitsValue year) = year := padded_digitsValue (by decide) hy hys
    have hmp : padded 2 (digitsValue month) = month := padded_digitsValue (by decide) hm hms
    have hdp : padded 2 (digitsValue day) = day := padded_digitsValue (by decide) hd hds
    rw [hiso, hyv, hmv, hdv, hyp, hmp, hdp, hrest]
  · rintro rfl
    refine ⟨?_, padded 4 d.year, padded 2 d.month, padded 2 d.day, [], hyear, hdigits 4 _, hmonth,
      hdigits 2 _, hday, hdigits 2 _, hiso, ?_⟩
    · rw [hiso, byteLength_calendar [] (hdigits 4 _) (hdigits 2 _) (hdigits 2 _), hyear, hmonth,
        hday]
      decide
    · simp only [digitsValue_padded]

/-- A date is read from its own text. -/
theorem fromisoformat_isoformat (isPrintable : Char → Bool) (d : Date) :
    fromisoformat isPrintable d.isoformat = .ok d := (fromisoformat_dashed_iff.mpr rfl).1

end IsalesApi.Python
