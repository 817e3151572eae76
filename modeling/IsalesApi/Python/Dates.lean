import IsalesApi.Python.Text
import Mathlib.Data.Prod.Lex

/-!
# `datetime.date`

A date of the proleptic Gregorian calendar, in the years 1 to 9999. Dates are
ordered as their fields are, the year first.
-/

namespace IsalesApi.Python

def isLeap (year : Nat) : Bool := year % 4 = 0 && (year % 100 ≠ 0 || year % 400 = 0)

def daysInMonth (year month : Nat) : Nat :=
  if month = 2 then if isLeap year then 29 else 28
  else if month ∈ [4, 6, 9, 11] then 30
  else 31

theorem daysInMonth_le (year month : Nat) : daysInMonth year month ≤ 31 := by
  unfold daysInMonth
  split
  · split <;> decide
  · split <;> decide

@[ext] structure Date where
  year : Nat
  month : Nat
  day : Nat
  year_mem : 1 ≤ year ∧ year ≤ 9999
  month_mem : 1 ≤ month ∧ month ≤ 12
  day_mem : 1 ≤ day ∧ day ≤ daysInMonth year month
deriving DecidableEq

/-- `(year, month, day)`, as dates are compared. -/
def Date.fields (d : Date) : Nat ×ₗ Nat ×ₗ Nat := toLex (d.year, toLex (d.month, d.day))

theorem Date.fields_injective : Function.Injective Date.fields := by
  intro d e h
  have h := toLex_inj.mp h
  have hday := toLex_inj.mp (Prod.mk.inj h).2
  exact Date.ext (Prod.mk.inj h).1 (Prod.mk.inj hday).1 (Prod.mk.inj hday).2

instance : LinearOrder Date := LinearOrder.lift' Date.fields Date.fields_injective

/-- A number with leading zeros. -/
def padded (width n : Nat) : Str :=
  let digits := Nat.toDigits 10 n
  List.replicate (width - digits.length) '0' ++ digits

theorem isAsciiDigit_of_mem_padded {width n : Nat} {c : Char} (h : c ∈ padded width n) :
    isAsciiDigit c = true := by
  rcases List.mem_append.mp h with h | h
  · rw [(List.mem_replicate.mp h).2]
    decide
  · exact (asciiNumber_toDigits n).2 c h

theorem length_padded {width n : Nat} (hwidth : 0 < width) (h : n < 10 ^ width) :
    (padded width n).length = width := by
  have hle : (Nat.toDigits 10 n).length ≤ width :=
    (Nat.length_toDigits_le_iff (by decide) hwidth).mpr h
  rw [padded, List.length_append, List.length_replicate]
  omega

theorem digitsValue_padded (width n : Nat) : digitsValue (padded width n) = n :=
  (digitsValue_zeros _ _).trans (digitsValue_toDigits n)

/-- A number is written with the digits it was read from. -/
theorem padded_digitsValue {width : Nat} {s : Str} (hwidth : 0 < width) (hs : s.length = width)
    (h : ∀ c ∈ s, isAsciiDigit c = true) : padded width (digitsValue s) = s := by
  subst hs
  refine digitsValue_inj (fun c hc => isAsciiDigit_of_mem_padded hc) h ?_ (digitsValue_padded _ _)
  exact length_padded hwidth (digitsValue_lt h)

/-- `d.isoformat()`. -/
def Date.isoformat (d : Date) : Str :=
  padded 4 d.year ++ '-' :: padded 2 d.month ++ '-' :: padded 2 d.day

/-- The lengths of the three fields. -/
theorem Date.length_fields (d : Date) : (padded 4 d.year).length = 4 ∧
    (padded 2 d.month).length = 2 ∧ (padded 2 d.day).length = 2 := by
  have hyear := d.year_mem.2
  have hmonth := d.month_mem.2
  have hday := d.day_mem.2.trans (daysInMonth_le d.year d.month)
  refine ⟨length_padded (by decide) ?_, length_padded (by decide) ?_,
    length_padded (by decide) ?_⟩
  · omega
  · omega
  · omega

end IsalesApi.Python
