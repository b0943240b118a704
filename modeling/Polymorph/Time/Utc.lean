import Mathlib.Algebra.GroupWithZero.Nat
import Mathlib.Data.List.Lex
import Mathlib.Order.Defs.LinearOrder

/-!
# Timezone-aware instants in UTC

An aware `datetime` normalised to UTC is the tuple of its civil fields, years 1 to 9999. Two such
values compare by their fields in order. Adding a duration goes through the proleptic Gregorian
day number and overflows outside the supported years. `isoformat` drops a zero fraction.
-/

set_option autoImplicit false

namespace Utc

/-- Gregorian leap years. -/
def isLeap (year : Nat) : Bool := year % 4 = 0 && (year % 100 ≠ 0 || year % 400 = 0)

/-- Days of a month. -/
def daysInMonth (year month : Nat) : Nat :=
  match month with
  | 2 => if isLeap year then 29 else 28
  | 4 | 6 | 9 | 11 => 30
  | _ => 31

/-- Civil fields of an instant. -/
structure CivilFields where
  year : Nat
  month : Nat
  day : Nat
  hour : Nat
  minute : Nat
  second : Nat
  microsecond : Nat
deriving DecidableEq, Repr

/-- The ranges a `datetime` enforces. -/
def CivilFields.Valid (c : CivilFields) : Prop :=
  1 ≤ c.year ∧ c.year ≤ 9999 ∧ 1 ≤ c.month ∧ c.month ≤ 12 ∧
  1 ≤ c.day ∧ c.day ≤ daysInMonth c.year c.month ∧
  c.hour < 24 ∧ c.minute < 60 ∧ c.second < 60 ∧ c.microsecond < 1000000

instance (c : CivilFields) : Decidable c.Valid := inferInstanceAs (Decidable (_ ∧ _))

theorem valid_newYear2026 : CivilFields.Valid ⟨2026, 1, 1, 0, 0, 0, 0⟩ := by decide

theorem valid_fifthMinute2026 : CivilFields.Valid ⟨2026, 1, 1, 0, 5, 0, 0⟩ := by decide

/-- An aware `datetime` in UTC. -/
structure Instant extends CivilFields where
  valid : toCivilFields.Valid
deriving DecidableEq

/-- The fields in order of significance. -/
def Instant.fields (i : Instant) : List Nat :=
  [i.year, i.month, i.day, i.hour, i.minute, i.second, i.microsecond]

instance : LT Instant := ⟨fun a b => a.fields < b.fields⟩

instance (a b : Instant) : Decidable (a < b) := inferInstanceAs (Decidable (a.fields < b.fields))

/-- Days before January 1 of a year. -/
def daysBeforeYear (year : Nat) : Nat :=
  (year - 1) * 365 + (year - 1) / 4 - (year - 1) / 100 + (year - 1) / 400

/-- Days before the first of a month. -/
def daysBeforeMonth (year month : Nat) : Nat :=
  ((List.range (month - 1)).map fun m => daysInMonth year (m + 1)).sum

/-- Month and day of the zero-based day `n` of a year, counting from month `m`. -/
def monthDay (year : Nat) : Nat → Nat → Nat → Nat × Nat
  | 0, m, n => (m, n + 1)
  | fuel + 1, m, n =>
      if n < daysInMonth year m then (m, n + 1)
      else monthDay year fuel (m + 1) (n - daysInMonth year m)

/-- Year, month and day of the zero-based day number since January 1 of year 1. -/
def civilOfDays (days : Nat) : Nat × Nat × Nat :=
  let n400 := days / 146097
  let r400 := days % 146097
  let n100 := r400 / 36524
  let r100 := r400 % 36524
  let n4 := r100 / 1461
  let r4 := r100 % 1461
  let n1 := r4 / 365
  let year := n400 * 400 + n100 * 100 + n4 * 4 + n1 + 1
  if n1 = 4 ∨ n100 = 4 then (year - 1, 12, 31)
  else (year, monthDay year 12 1 (r4 % 365))

/-- Microseconds since January 1 of year 1. -/
def Instant.micros (i : Instant) : Nat :=
  let days := daysBeforeYear i.year + daysBeforeMonth i.year i.month + (i.day - 1)
  ((((days * 24 + i.hour) * 60 + i.minute) * 60 + i.second) * 1000000) + i.microsecond

/-- The civil fields of a count of microseconds since January 1 of year 1. -/
def civilOfMicros (n : Nat) : CivilFields :=
  let seconds := n / 1000000
  let date := civilOfDays (seconds / 86400)
  { year := date.1, month := date.2.1, day := date.2.2
    hour := seconds / 3600 % 24, minute := seconds / 60 % 60, second := seconds % 60
    microsecond := n % 1000000 }

/-- `instant + timedelta` in microseconds; `none` is an overflow. -/
def Instant.add (i : Instant) (micros : Int) : Option Instant :=
  let total : Int := i.micros + micros
  if total < 0 then none
  else
    let civil := civilOfMicros total.toNat
    if h : civil.Valid then some ⟨civil, h⟩ else none

/-- `width` decimal digits of a number. -/
def digits : Nat → Nat → List Char
  | 0, _ => []
  | width + 1, n => digits width (n / 10) ++ [Nat.digitChar (n % 10)]

/-- `instant.isoformat()`. -/
def Instant.isoformat (i : Instant) : String :=
  String.ofList (digits 4 i.year ++ '-' :: digits 2 i.month ++ '-' :: digits 2 i.day ++
    'T' :: digits 2 i.hour ++ ':' :: digits 2 i.minute ++ ':' :: digits 2 i.second ++
    (if i.microsecond = 0 then [] else '.' :: digits 6 i.microsecond) ++
    ['+', '0', '0', ':', '0', '0'])

end Utc
