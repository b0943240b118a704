import Polymorph.Time.Utc
import Mathlib.Algebra.Group.Int.Defs
import Mathlib.Data.Rat.Defs

/-!
# Runtime values

The Python values that a source yields and a destination receives. A text is a sequence of code
points, lone surrogates included. A float is its IEEE 754 bit pattern. A decimal is a coefficient
with an exponent, or a special value.
-/

set_option autoImplicit false

namespace Polymorph

open Utc

/-- A code point of a Python text. -/
inductive PyChar where
  | scalar (c : Char)
  | surrogate (n : Fin 2048)
deriving DecidableEq

/-- A Python text. -/
abbrev PyText := List PyChar

/-- The text of a Lean string. -/
def PyText.ofString (s : String) : PyText := s.toList.map PyChar.scalar

/-- The characters of a text that encodes to UTF-8. -/
def PyText.chars? (t : PyText) : Option (List Char) :=
  t.mapM fun
    | .scalar c => some c
    | .surrogate _ => none

/-- A double-precision float. -/
structure PyFloat where
  bits : BitVec 64
deriving DecidableEq

namespace PyFloat

/-- The biased exponent. -/
def biasedExponent (x : PyFloat) : Nat := (x.bits.toNat / 2 ^ 52) % 2 ^ 11

/-- The fraction bits. -/
def fraction (x : PyFloat) : Nat := x.bits.toNat % 2 ^ 52

/-- The sign bit. -/
def negative (x : PyFloat) : Bool := x.bits.toNat ≥ 2 ^ 63

/-- `math.isfinite` -/
def isFinite (x : PyFloat) : Bool := x.biasedExponent ≠ 2047

/-- Magnitude of a finite float in units of `2 ^ -1074`. -/
def scaled (x : PyFloat) : Nat :=
  if x.biasedExponent = 0 then x.fraction
  else (2 ^ 52 + x.fraction) * 2 ^ (x.biasedExponent - 1)

/-- `int(x)` of a finite float with `x.is_integer()`. -/
def toInt? (x : PyFloat) : Option Int :=
  if x.isFinite = true ∧ x.scaled % 2 ^ 1074 = 0 then
    let magnitude : Int := x.scaled / 2 ^ 1074
    some (if x.negative then -magnitude else magnitude)
  else none

end PyFloat

/-- A `Decimal`. -/
inductive PyDecimal where
  | finite (negative : Bool) (coefficient : Nat) (exponent : Int)
  | infinity (negative : Bool)
  | nan (negative signaling : Bool) (diagnostic : Nat)
deriving DecidableEq

namespace PyDecimal

/-- `value.is_finite()` -/
def isFinite : PyDecimal → Bool
  | .finite _ _ _ => true
  | _ => false

/-- `int(value)` of a finite decimal that equals its integral value. -/
def toInt? : PyDecimal → Option Int
  | .finite negative coefficient exponent =>
      let signed (n : Nat) : Int := if negative then -(n : Int) else n
      if 0 ≤ exponent then some (signed (coefficient * 10 ^ exponent.toNat))
      else if coefficient % 10 ^ (-exponent).toNat = 0 then
        some (signed (coefficient / 10 ^ (-exponent).toNat))
      else none
  | _ => none

end PyDecimal

/-- A calendar date. -/
structure PyDate where
  year : Nat
  month : Nat
  day : Nat
  valid : 1 ≤ year ∧ year ≤ 9999 ∧ 1 ≤ month ∧ month ≤ 12 ∧ 1 ≤ day ∧ day ≤ daysInMonth year month
deriving DecidableEq

/-- A `datetime`: civil fields and, when aware, its offset from UTC in microseconds. -/
structure PyDateTime where
  civil : CivilFields
  offset : Option Int
  valid : civil.Valid ∧ ∀ o ∈ offset, -86400000000 < o ∧ o < 86400000000
deriving DecidableEq

/-- A value. -/
inductive PyValue where
  | none
  | bool (b : Bool)
  | int (z : Int)
  | float (x : PyFloat)
  | decimal (d : PyDecimal)
  | str (t : PyText)
  | bytes (bs : List UInt8)
  | date (d : PyDate)
  | datetime (d : PyDateTime)
  | uuid (n : Fin (2 ^ 128))
  | list (items : List PyValue)
  | tuple (items : List PyValue)
  | dict (items : List (PyValue × PyValue))
  | object (description : String)

/-- Declared data types. -/
inductive DataType where
  | unknown
  | string
  | integer
  | decimal
  | boolean
  | date
  | datetime
  | uuid
  | binary
  | json
deriving DecidableEq, Repr

/-- `runtime_type` -/
def runtimeType : PyValue → DataType
  | .bool _ => .boolean
  | .datetime _ => .datetime
  | .date _ => .date
  | .int _ => .integer
  | .float _ => .decimal
  | .decimal _ => .decimal
  | .bytes _ => .binary
  | .dict _ => .json
  | .list _ => .json
  | .uuid _ => .uuid
  | .str _ => .string
  | .none => .unknown
  | .tuple _ => .unknown
  | .object _ => .unknown

/-- `runtime_type_satisfies` -/
def runtimeTypeSatisfies (actual target : DataType) : Bool :=
  target = .unknown || actual = target || (actual = .integer && target = .decimal)

/-- `value_satisfies_type` -/
def valueSatisfiesType (value : PyValue) (target : DataType) : Bool :=
  match value with
  | .float x => x.isFinite && runtimeTypeSatisfies (runtimeType value) target
  | .decimal d => d.isFinite && runtimeTypeSatisfies (runtimeType value) target
  | _ => runtimeTypeSatisfies (runtimeType value) target

end Polymorph
