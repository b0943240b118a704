import Mathlib.Data.List.Sort
import Mathlib.Data.Rat.Defs
import Mathlib.Algebra.Order.Ring.Rat

/-!
# Scores

Matching evidence is computed with floats. A `ScoreArith` is the arithmetic such a computation
uses, without laws, so that a result over every `ScoreArith` holds of floats with their rounding
and their unordered values. The rationals are the exact instance.
-/

set_option autoImplicit false

namespace Polymorph

/-- Score arithmetic. -/
class ScoreArith (S : Type) where
  /-- A float literal. -/
  lit : Rat → S
  add : S → S → S
  sub : S → S → S
  mul : S → S → S
  div : S → S → S
  /-- `a < b` -/
  lt : S → S → Bool
  /-- `a <= b` -/
  le : S → S → Bool
  /-- `a == b` -/
  eq : S → S → Bool
  /-- `f"{a:.2f}"` -/
  format2 : S → String
  /-- `sorted(items, reverse=True)` where `less` is the items' `<`. -/
  sortedReverse {α : Type} (less : α → α → Bool) (items : List α) : List α
  /-- Sorting rearranges the items. -/
  sortedReverse_perm {α : Type} (less : α → α → Bool) (items : List α) :
    (sortedReverse less items).Perm items

namespace ScoreArith

variable {S : Type} [ScoreArith S] {α : Type}

/-- `max(a, b)` -/
def pyMax (a b : S) : S := if lt a b then b else a

/-- `min(a, b)` -/
def pyMin (a b : S) : S := if lt b a then b else a

/-- `max(0.0, min(a, 1.0))` -/
def clamp (a : S) : S := pyMax (lit 0) (pyMin a (lit 1))

/-- `sorted(items, key=key, reverse=True)` -/
def sortedByReverse (key : α → S) (items : List α) : List α :=
  sortedReverse (S := S) (fun a b => lt (key a) (key b)) items

theorem sortedByReverse_perm (key : α → S) (items : List α) :
    (sortedByReverse key items).Perm items := sortedReverse_perm _ _

theorem mem_sortedByReverse {key : α → S} {items : List α} {a : α} :
    a ∈ sortedByReverse key items ↔ a ∈ items := (sortedByReverse_perm key items).mem_iff

end ScoreArith

/-- A fraction with two decimals, rounded half to even. -/
def twoDecimals (q : Rat) : String :=
  let scaled := q.num.natAbs * 100
  let low := scaled / q.den
  let rest := 2 * (scaled % q.den)
  let cents := if rest < q.den ∨ (rest = q.den ∧ low % 2 = 0) then low else low + 1
  let digits := toString (cents % 100)
  (if q < 0 then "-" else "") ++ toString (cents / 100) ++ "." ++
    (if digits.length = 1 then "0" ++ digits else digits)

/-- Exact scores. Sorting is stable and descending. -/
instance : ScoreArith Rat where
  lit q := q
  add := (· + ·)
  sub := (· - ·)
  mul := (· * ·)
  div := (· / ·)
  lt a b := decide (a < b)
  le a b := decide (a ≤ b)
  eq a b := decide (a = b)
  format2 := twoDecimals
  sortedReverse less items := items.insertionSort fun a b => less a b = false
  sortedReverse_perm _ items := List.perm_insertionSort _ items

end Polymorph
