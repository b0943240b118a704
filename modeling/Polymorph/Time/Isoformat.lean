import Polymorph.Time.Utc
import Mathlib.Tactic.Common

/-!
# Instants and their texts

`isoformat` writes every field with a fixed width, so the text of an instant determines it.
-/

set_option autoImplicit false

namespace Utc

theorem length_digits (width n : Nat) : (digits width n).length = width := by
  induction width generalizing n with
  | zero => rfl
  | succ width ih => rw [digits, List.length_append, ih, List.length_singleton]

/-- The number a digit stands for. -/
def digitValue (c : Char) : Nat := c.toNat - '0'.toNat

/-- The number a list of digits stands for. -/
def readDigits (cs : List Char) : Nat := cs.foldl (fun n c => 10 * n + digitValue c) 0

theorem digitValue_digitChar {n : Nat} (h : n < 10) : digitValue (Nat.digitChar n) = n := by
  revert n
  decide

/-- Reading the digits of a number gives the number, up to the digits that do not fit. -/
theorem readDigits_digits (width n : Nat) : readDigits (digits width n) = n % 10 ^ width := by
  induction width generalizing n with
  | zero => rw [Nat.pow_zero, Nat.mod_one]; rfl
  | succ width ih =>
      have hsplit : readDigits (digits (width + 1) n) =
          10 * readDigits (digits width (n / 10)) + digitValue (Nat.digitChar (n % 10)) := by
        rw [readDigits, digits, List.foldl_append]
        rfl
      rw [hsplit, ih, digitValue_digitChar (Nat.mod_lt _ (by decide)), Nat.pow_succ, Nat.mul_comm _ 10,
        Nat.mod_mul, Nat.add_comm]

/-- Two numbers that fit are equal when their digits are. -/
theorem digits_inj {width n m : Nat} (hn : n < 10 ^ width) (hm : m < 10 ^ width)
    (h : digits width n = digits width m) : n = m := by
  have hread := congrArg readDigits h
  rwa [readDigits_digits, readDigits_digits, Nat.mod_eq_of_lt hn, Nat.mod_eq_of_lt hm] at hread

/-- A field of fixed width and what follows it. -/
theorem digits_append_inj {width n m : Nat} {cs ds : List Char} (hn : n < 10 ^ width)
    (hm : m < 10 ^ width) (h : digits width n ++ cs = digits width m ++ ds) : n = m ∧ cs = ds := by
  obtain ⟨hdigits, hrest⟩ := List.append_inj h (by rw [length_digits, length_digits])
  exact ⟨digits_inj hn hm hdigits, hrest⟩

/-- The optional fraction of a text. -/
def fractionChars (microsecond : Nat) : List Char :=
  if microsecond = 0 then [] else '.' :: digits 6 microsecond

theorem fraction_append_inj {n m : Nat} (hn : n < 10 ^ 6) (hm : m < 10 ^ 6) {cs : List Char}
    (h : fractionChars n ++ '+' :: cs = fractionChars m ++ '+' :: cs) : n = m := by
  unfold fractionChars at h
  by_cases hn0 : n = 0 <;> by_cases hm0 : m = 0
  · rw [hn0, hm0]
  · simp [hn0, hm0] at h
  · simp [hn0, hm0] at h
  · rw [if_neg hn0, if_neg hm0] at h
    have h := (List.cons_eq_cons.1 h).2
    exact (digits_append_inj hn hm h).1

theorem daysInMonth_le (year month : Nat) : daysInMonth year month ≤ 31 := by
  unfold daysInMonth
  split
  · split <;> decide
  all_goals decide

/-- The text of an instant determines it. -/
theorem isoformat_injective : Function.Injective Instant.isoformat := by
  intro i j h
  obtain ⟨⟨y, mo, d, hh, mi, s, us⟩, hi⟩ := i
  obtain ⟨⟨y', mo', d', hh', mi', s', us'⟩, hj⟩ := j
  have hd := daysInMonth_le y mo
  have hd' := daysInMonth_le y' mo'
  simp only [CivilFields.Valid] at hi hj
  have hchars := congrArg String.toList h
  simp only [Instant.isoformat, String.toList_ofList, List.append_assoc, List.cons_append] at hchars
  obtain ⟨rfl, hmo⟩ := @digits_append_inj 4 _ _ _ _ (by omega) (by omega) hchars
  obtain ⟨rfl, hday⟩ := @digits_append_inj 2 _ _ _ _ (by omega) (by omega)
    (List.cons_eq_cons.1 hmo).2
  obtain ⟨rfl, hhour⟩ := @digits_append_inj 2 _ _ _ _ (by omega) (by omega)
    (List.cons_eq_cons.1 hday).2
  obtain ⟨rfl, hminute⟩ := @digits_append_inj 2 _ _ _ _ (by omega) (by omega)
    (List.cons_eq_cons.1 hhour).2
  obtain ⟨rfl, hsecond⟩ := @digits_append_inj 2 _ _ _ _ (by omega) (by omega)
    (List.cons_eq_cons.1 hminute).2
  obtain ⟨rfl, hfraction⟩ := @digits_append_inj 2 _ _ _ _ (by omega) (by omega)
    (List.cons_eq_cons.1 hsecond).2
  have hus : us = us' := fraction_append_inj (by omega) (by omega) hfraction
  subst hus
  rfl

/-! ## Order -/

theorem digitChar_lt_iff {n m : Nat} (hn : n < 10) (hm : m < 10) :
    Nat.digitChar n < Nat.digitChar m ↔ n < m := by
  have hall : ∀ n < 10, ∀ m < 10, Nat.digitChar n < Nat.digitChar m ↔ n < m := by decide
  exact hall n hn m hm

theorem digitChar_inj {n m : Nat} (hn : n < 10) (hm : m < 10)
    (h : Nat.digitChar n = Nat.digitChar m) : n = m := by
  have hvalue := congrArg digitValue h
  rwa [digitValue_digitChar hn, digitValue_digitChar hm] at hvalue

/-- Texts that start with a field of fixed width compare by the field, then by what follows. -/
theorem digits_append_lt_iff {width n m : Nat} {cs ds : List Char} (hn : n < 10 ^ width)
    (hm : m < 10 ^ width) :
    digits width n ++ cs < digits width m ++ ds ↔ n < m ∨ n = m ∧ cs < ds := by
  induction width generalizing n m cs ds with
  | zero =>
      have hsame : n = m := by omega
      simp [digits, hsame]
  | succ width ih =>
      have hlast : Nat.digitChar (n % 10) = Nat.digitChar (m % 10) ↔ n % 10 = m % 10 :=
        ⟨digitChar_inj (Nat.mod_lt _ (by decide)) (Nat.mod_lt _ (by decide)),
          congrArg Nat.digitChar⟩
      have hsplit : ∀ k, digits (width + 1) k = digits width (k / 10) ++
          [Nat.digitChar (k % 10)] := fun _ => rfl
      rw [hsplit, hsplit, List.append_assoc, List.append_assoc,
        ih (by omega) (by omega), List.singleton_append, List.singleton_append,
        List.cons_lt_cons_iff, hlast,
        digitChar_lt_iff (Nat.mod_lt _ (by decide)) (Nat.mod_lt _ (by decide))]
      have hlt : n / 10 < m / 10 ∨ n / 10 = m / 10 ∧ n % 10 < m % 10 ↔ n < m := by omega
      have heq : n / 10 = m / 10 ∧ n % 10 = m % 10 ↔ n = m := by omega
      rw [← hlt, ← heq]
      tauto

theorem fraction_append_lt_iff {n m : Nat} (hn : n < 10 ^ 6) (hm : m < 10 ^ 6)
    {cs : List Char} :
    fractionChars n ++ '+' :: cs < fractionChars m ++ '+' :: cs ↔ n < m := by
  have hirreflexive : ¬cs < cs := List.lt_irrefl cs
  unfold fractionChars
  by_cases hn0 : n = 0 <;> by_cases hm0 : m = 0
  · rw [if_pos hn0, if_pos hm0, hn0, hm0]
    simp [hirreflexive]
  · rw [if_pos hn0, if_neg hm0]
    have hlt : '+' < '.' := by decide
    simp only [List.nil_append, List.cons_append, List.cons_lt_cons_iff, hlt, true_or, true_iff]
    omega
  · rw [if_neg hn0, if_pos hm0]
    have hnlt : ¬('.' < '+') := by decide
    have hne : ¬('.' = '+') := by decide
    simp only [List.nil_append, List.cons_append, List.cons_lt_cons_iff, hnlt, hne, false_and,
      or_self, false_iff]
    omega
  · rw [if_neg hn0, if_neg hm0, List.cons_append, List.cons_append, List.cons_lt_cons_iff,
      digits_append_lt_iff hn hm]
    have hirreflexive' : ¬('+' :: cs < '+' :: cs) := List.lt_irrefl _
    simp [hirreflexive']

theorem toList_isoformat (i : Instant) :
    i.isoformat.toList = digits 4 i.year ++ '-' :: (digits 2 i.month ++ '-' :: (digits 2 i.day ++
      'T' :: (digits 2 i.hour ++ ':' :: (digits 2 i.minute ++ ':' :: (digits 2 i.second ++
        (fractionChars i.microsecond ++ '+' :: ['0', '0', ':', '0', '0'])))))) := by
  unfold Instant.isoformat
  rw [String.toList_ofList]
  simp only [List.append_assoc, List.cons_append]
  rfl

/-- Texts of instants are ordered as the instants are. -/
theorem isoformat_lt_iff {i j : Instant} : i.isoformat < j.isoformat ↔ i < j := by
  obtain ⟨⟨y, mo, d, hh, mi, s, us⟩, hi⟩ := i
  obtain ⟨⟨y', mo', d', hh', mi', s', us'⟩, hj⟩ := j
  have hd := daysInMonth_le y mo
  have hd' := daysInMonth_le y' mo'
  have hi' := hi
  have hj' := hj
  simp only [CivilFields.Valid] at hi' hj'
  rw [String.lt_iff, toList_isoformat, toList_isoformat]
  change _ ↔ [y, mo, d, hh, mi, s, us] < [y', mo', d', hh', mi', s', us']
  rw [digits_append_lt_iff (by simp only []; omega) (by simp only []; omega),
    List.cons_lt_cons_iff,
    digits_append_lt_iff (by simp only []; omega) (by simp only []; omega), List.cons_lt_cons_iff,
    digits_append_lt_iff (by simp only []; omega) (by simp only []; omega), List.cons_lt_cons_iff,
    digits_append_lt_iff (by simp only []; omega) (by simp only []; omega), List.cons_lt_cons_iff,
    digits_append_lt_iff (by simp only []; omega) (by simp only []; omega), List.cons_lt_cons_iff,
    digits_append_lt_iff (by simp only []; omega) (by simp only []; omega),
    fraction_append_lt_iff (by simp only []; omega) (by simp only []; omega)]
  simp [List.cons_lt_cons_iff]

end Utc
