import Polymorph.Text.Utf8
import Polymorph.Time.Isoformat

/-!
# Texts of instants in chronological order

The fields of an instant are the digits of a number in a mixed base: its microseconds since the
start of year 1. So the order of the fields is the order of time (`lt_iff_micros`), and with
`isoformat_lt_iff` the texts are in that order too, as characters and as bytes.
-/

set_option autoImplicit false

namespace Utc

/-! ## Days -/

/-- Days of a year. -/
def daysInYear (year : Nat) : Nat := if isLeap year then 366 else 365

theorem isLeap_iff (year : Nat) :
    isLeap year = true ↔ year % 4 = 0 ∧ (year % 100 ≠ 0 ∨ year % 400 = 0) := by
  simp [isLeap]

/-- Among the first `n` years, one more is a multiple of `k` when `n` is. -/
theorem div_eq_pred {n : Nat} (h : 1 ≤ n) (k : Nat) :
    n / k = (n - 1) / k + if n % k = 0 then 1 else 0 := by
  obtain ⟨m, rfl⟩ := Nat.exists_eq_add_of_le' h
  rw [Nat.add_sub_cancel, Nat.succ_div]
  simp only [Nat.dvd_iff_mod_eq_zero]

theorem daysBeforeYear_succ {year : Nat} (h : 1 ≤ year) :
    daysBeforeYear (year + 1) = daysBeforeYear year + daysInYear year := by
  have hfour := div_eq_pred h 4
  have hcentury := div_eq_pred h 100
  have hlong := div_eq_pred h 400
  have hcenturies : (year - 1) / 100 ≤ (year - 1) / 4 := Nat.div_le_div_left (by decide) (by decide)
  have hnested : year % 400 = 0 → year % 100 = 0 := by omega
  have hnested' : year % 100 = 0 → year % 4 = 0 := by omega
  unfold daysBeforeYear daysInYear
  rw [Nat.add_sub_cancel, hfour, hcentury, hlong]
  clear hfour hcentury hlong
  simp only [isLeap_iff]
  generalize (year - 1) / 4 = a at *
  generalize (year - 1) / 100 = b at *
  generalize (year - 1) / 400 = c at *
  split_ifs <;> omega

/-- A year ends before every later one starts. -/
theorem daysBeforeYear_le {year later : Nat} (h : 1 ≤ year) (hlater : year < later) :
    daysBeforeYear year + daysInYear year ≤ daysBeforeYear later := by
  induction later, hlater using Nat.le_induction with
  | base => exact Nat.le_of_eq (daysBeforeYear_succ h).symm
  | succ later hlater ih =>
      have hpositive : 1 ≤ later := Nat.le_trans h (Nat.le_of_succ_le hlater)
      rw [daysBeforeYear_succ hpositive]
      exact Nat.le_trans ih (Nat.le_add_right _ _)

theorem daysBeforeMonth_succ (year : Nat) {month : Nat} (h : 1 ≤ month) :
    daysBeforeMonth year (month + 1) = daysBeforeMonth year month + daysInMonth year month := by
  obtain ⟨m, rfl⟩ := Nat.exists_eq_add_of_le' h
  unfold daysBeforeMonth
  rw [Nat.add_sub_cancel, Nat.add_sub_cancel, List.range_succ, List.map_append, List.sum_append,
    List.map_singleton, List.sum_singleton]

/-- A month ends before every later one starts. -/
theorem daysBeforeMonth_le (year : Nat) {month later : Nat} (h : 1 ≤ month)
    (hlater : month < later) :
    daysBeforeMonth year month + daysInMonth year month ≤ daysBeforeMonth year later := by
  induction later, hlater using Nat.le_induction with
  | base => exact Nat.le_of_eq (daysBeforeMonth_succ year h).symm
  | succ later hlater ih =>
      have hpositive : 1 ≤ later := Nat.le_trans h (Nat.le_of_succ_le hlater)
      rw [daysBeforeMonth_succ year hpositive]
      exact Nat.le_trans ih (Nat.le_add_right _ _)

/-- Twelve months make a year. -/
theorem daysBeforeMonth_thirteen (year : Nat) : daysBeforeMonth year 13 = daysInYear year := by
  unfold daysBeforeMonth daysInYear
  cases hleap : isLeap year with
  | false => simp [List.range_succ, daysInMonth, hleap]
  | true => simp [List.range_succ, daysInMonth, hleap]

/-- The zero-based number of a day since January 1 of year 1. -/
def dayNumber (year month day : Nat) : Nat :=
  daysBeforeYear year + daysBeforeMonth year month + (day - 1)

/-- A valid date. -/
def ValidDate (year month day : Nat) : Prop :=
  1 ≤ year ∧ 1 ≤ month ∧ month ≤ 12 ∧ 1 ≤ day ∧ day ≤ daysInMonth year month

theorem dayNumber_lt {year month day year' month' day' : Nat} (h : ValidDate year month day)
    (h' : ValidDate year' month' day')
    (hlt : year < year' ∨ year = year' ∧ (month < month' ∨ month = month' ∧ day < day')) :
    dayNumber year month day < dayNumber year' month' day' := by
  obtain ⟨hy, hm, hm12, hd, hdays⟩ := h
  obtain ⟨hy', hm', hm12', hd', hdays'⟩ := h'
  unfold dayNumber
  rcases hlt with hyear | ⟨rfl, hmonth | ⟨rfl, hday⟩⟩
  · have hyears := daysBeforeYear_le hy hyear
    have hmonths := daysBeforeMonth_le year hm (Nat.lt_succ_of_le hm12)
    rw [daysBeforeMonth_thirteen] at hmonths
    omega
  · have hmonths := daysBeforeMonth_le year hm hmonth
    omega
  · omega

/-! ## Instants -/

theorem Instant.validDate (i : Instant) : ValidDate i.year i.month i.day := by
  obtain ⟨hy, -, hm, hm12, hd, hdays, -⟩ := i.valid
  exact ⟨hy, hm, hm12, hd, hdays⟩

theorem Instant.micros_eq (i : Instant) : i.micros =
    ((((dayNumber i.year i.month i.day * 24 + i.hour) * 60 + i.minute) * 60 + i.second) *
      1000000) + i.microsecond := rfl

/-- The order of the fields, one after the other. -/
theorem lt_iff_fields {i j : Instant} : i < j ↔
    i.year < j.year ∨ i.year = j.year ∧ (i.month < j.month ∨ i.month = j.month ∧
      (i.day < j.day ∨ i.day = j.day ∧ (i.hour < j.hour ∨ i.hour = j.hour ∧
        (i.minute < j.minute ∨ i.minute = j.minute ∧ (i.second < j.second ∨ i.second = j.second ∧
          i.microsecond < j.microsecond))))) := by
  change i.fields < j.fields ↔ _
  simp [Instant.fields, List.cons_lt_cons_iff]

theorem micros_lt {i j : Instant} (h : i < j) : i.micros < j.micros := by
  have hdates := @dayNumber_lt _ _ _ _ _ _ i.validDate j.validDate
  obtain ⟨-, -, -, -, -, -, hh, hmi, hs, hus⟩ := i.valid
  obtain ⟨-, -, -, -, -, -, hh', hmi', hs', hus'⟩ := j.valid
  rw [lt_iff_fields] at h
  rw [i.micros_eq, j.micros_eq]
  have hday : dayNumber i.year i.month i.day < dayNumber j.year j.month j.day ∨
      dayNumber i.year i.month i.day = dayNumber j.year j.month j.day ∧
        (i.hour < j.hour ∨ i.hour = j.hour ∧ (i.minute < j.minute ∨ i.minute = j.minute ∧
          (i.second < j.second ∨ i.second = j.second ∧ i.microsecond < j.microsecond))) := by
    rcases h with h | ⟨hy, h | ⟨hm, h | ⟨hd, h⟩⟩⟩
    · exact .inl (hdates (.inl h))
    · exact .inl (hdates (.inr ⟨hy, .inl h⟩))
    · exact .inl (hdates (.inr ⟨hy, .inr ⟨hm, h⟩⟩))
    · exact .inr ⟨by rw [hy, hm, hd], h⟩
  omega

theorem lt_trichotomy' (i j : Instant) : i < j ∨ i = j ∨ j < i := by
  rw [lt_iff_fields, lt_iff_fields]
  by_cases hsame : i.toCivilFields = j.toCivilFields
  · obtain ⟨ci, hi⟩ := i
    obtain ⟨cj, hj⟩ := j
    cases hsame
    exact .inr (.inl rfl)
  · have hdiffer : ¬(i.year = j.year ∧ i.month = j.month ∧ i.day = j.day ∧ i.hour = j.hour ∧
        i.minute = j.minute ∧ i.second = j.second ∧ i.microsecond = j.microsecond) := by
      rintro ⟨h₁, h₂, h₃, h₄, h₅, h₆, h₇⟩
      refine hsame ?_
      cases hi : i.toCivilFields
      cases hj : j.toCivilFields
      rw [hi, hj] at h₁ h₂ h₃ h₄ h₅ h₆ h₇
      cases h₁; cases h₂; cases h₃; cases h₄; cases h₅; cases h₆; cases h₇
      rfl
    omega

/-- Instants are ordered as their microseconds are. -/
theorem lt_iff_micros {i j : Instant} : i < j ↔ i.micros < j.micros := by
  refine ⟨micros_lt, fun h => ?_⟩
  rcases lt_trichotomy' i j with hlt | rfl | hgt
  · exact hlt
  · exact absurd h (Nat.lt_irrefl _)
  · exact absurd (micros_lt hgt) (Nat.lt_asymm h)

/-- An instant is determined by its microseconds. -/
theorem micros_injective : Function.Injective Instant.micros := by
  intro i j h
  rcases lt_trichotomy' i j with hlt | hsame | hgt
  · exact absurd (micros_lt hlt) (by omega)
  · exact hsame
  · exact absurd (micros_lt hgt) (by omega)

/-! ## Bytes of the texts -/

/-- The UTF-8 bytes of a text, which SQLite compares. -/
def textBytes (text : String) : List UInt8 := JsonText.utf8Bytes text.toList

theorem utf8EncodeChar_ascii {c : Char} (h : c.toNat < 128) :
    String.utf8EncodeChar c = [c.toNat.toUInt8] := by
  have hval : c.val.toNat ≤ 127 := Nat.le_of_lt_succ h
  rw [String.utf8EncodeChar, if_pos hval]
  rfl

theorem toNat_toUInt8_ascii {n : Nat} (h : n < 128) : n.toUInt8.toNat = n := by
  simp only [Nat.toUInt8, UInt8.toNat_ofNat']
  omega

theorem toUInt8_lt_iff {n m : Nat} (hn : n < 128) (hm : m < 128) :
    n.toUInt8 < m.toUInt8 ↔ n < m := by
  rw [UInt8.lt_iff_toNat_lt, toNat_toUInt8_ascii hn, toNat_toUInt8_ascii hm]

theorem toUInt8_inj {n m : Nat} (hn : n < 128) (hm : m < 128) :
    n.toUInt8 = m.toUInt8 ↔ n = m := by
  rw [← UInt8.toNat_inj, toNat_toUInt8_ascii hn, toNat_toUInt8_ascii hm]

/-- Bytes of ASCII texts compare as the texts do. -/
theorem utf8Bytes_lt_iff {cs ds : List Char} (hcs : ∀ c ∈ cs, c.toNat < 128)
    (hds : ∀ d ∈ ds, d.toNat < 128) :
    JsonText.utf8Bytes cs < JsonText.utf8Bytes ds ↔ cs < ds := by
  induction cs generalizing ds with
  | nil =>
      cases ds with
      | nil => simp [JsonText.utf8Bytes]
      | cons d ds =>
          have hd := utf8EncodeChar_ascii (hds d List.mem_cons_self)
          rw [JsonText.utf8Bytes_cons, hd]
          simp [JsonText.utf8Bytes]
  | cons c cs ih =>
      have hc := hcs c List.mem_cons_self
      cases ds with
      | nil =>
          rw [JsonText.utf8Bytes_cons, utf8EncodeChar_ascii hc]
          simp [JsonText.utf8Bytes]
      | cons d ds =>
          have hd := hds d List.mem_cons_self
          have hrest := @ih ds (fun c hmem => hcs c (List.mem_cons_of_mem _ hmem))
            (fun d hmem => hds d (List.mem_cons_of_mem _ hmem))
          have hsame : c.toNat = d.toNat ↔ c = d :=
            ⟨fun h => Char.ext (UInt32.toNat_inj.mp h), fun h => h ▸ rfl⟩
          rw [JsonText.utf8Bytes_cons, JsonText.utf8Bytes_cons, utf8EncodeChar_ascii hc,
            utf8EncodeChar_ascii hd, List.singleton_append, List.singleton_append,
            List.cons_lt_cons_iff, List.cons_lt_cons_iff, toUInt8_lt_iff hc hd,
            toUInt8_inj hc hd, hrest, hsame]
          rfl

/-! ## Texts of instants -/

theorem digitChar_ascii {n : Nat} (h : n < 10) : (Nat.digitChar n).toNat < 128 := by
  revert n
  decide

theorem digits_ascii (width n : Nat) : ∀ c ∈ digits width n, c.toNat < 128 := by
  induction width generalizing n with
  | zero =>
      intro c hc
      cases hc
  | succ width ih =>
      intro c hc
      rw [digits, List.mem_append, List.mem_singleton] at hc
      cases hc with
      | inl hmem => exact ih (n / 10) c hmem
      | inr hlast => exact hlast ▸ digitChar_ascii (Nat.mod_lt n (by decide))

theorem isoformat_ascii (i : Instant) : ∀ c ∈ i.isoformat.toList, c.toNat < 128 := by
  have hfraction : ∀ c ∈ fractionChars i.microsecond, c.toNat < 128 := by
    unfold fractionChars
    split
    · exact List.forall_mem_nil _
    · exact List.forall_mem_cons.mpr ⟨by decide, digits_ascii 6 _⟩
  rw [toList_isoformat]
  simp only [List.forall_mem_append, List.forall_mem_cons]
  refine ⟨digits_ascii 4 _, by decide, digits_ascii 2 _, by decide, digits_ascii 2 _, by decide,
    digits_ascii 2 _, by decide, digits_ascii 2 _, by decide, digits_ascii 2 _, hfraction, ?_⟩
  exact ⟨by decide, by decide, by decide, by decide, by decide, by decide, List.forall_mem_nil _⟩

/-- The bytes of the texts of instants are ordered as time is. -/
theorem textBytes_lt_iff {i j : Instant} :
    textBytes i.isoformat < textBytes j.isoformat ↔ i.micros < j.micros := by
  rw [textBytes, textBytes, utf8Bytes_lt_iff (isoformat_ascii i) (isoformat_ascii j), ← String.lt_iff,
    isoformat_lt_iff, lt_iff_micros]

/-- Texts of instants compare as time does. -/
theorem isoformat_le_iff {i j : Instant} : i.isoformat ≤ j.isoformat ↔ i.micros ≤ j.micros := by
  rw [← Nat.not_lt, ← lt_iff_micros, ← isoformat_lt_iff]
  exact Iff.rfl

end Utc
