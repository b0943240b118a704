import Mathlib.Data.List.Basic

/-!
# Fields of byte strings

Windows of a byte string, little-endian numbers, and the search for a pattern from the left and from
the right.
-/

set_option autoImplicit false

namespace Bytes

/-- The bytes that a read of `length` bytes at an offset returns. -/
def window (bytes : List UInt8) (offset length : Nat) : List UInt8 :=
  (bytes.drop offset).take length

/-- A little-endian number. -/
def littleEndian (bytes : List UInt8) : Nat := bytes.foldr (fun b n => b.toNat + 256 * n) 0

/-- The number in `width` bytes at an offset. -/
def number (bytes : List UInt8) (offset width : Nat) : Nat :=
  littleEndian (window bytes offset width)

/-- A pattern stands at an offset. -/
def At (bytes : List UInt8) (offset : Nat) (pattern : List UInt8) : Prop :=
  pattern <+: bytes.drop offset

instance (bytes : List UInt8) (offset : Nat) (pattern : List UInt8) :
    Decidable (At bytes offset pattern) := inferInstanceAs (Decidable (pattern <+: bytes.drop offset))

/-- `bytes.rfind(pattern)`, for a pattern that is not empty. -/
def rfind (pattern : List UInt8) : List UInt8 → Option Nat
  | [] => none
  | b :: rest =>
      match rfind pattern rest with
      | some offset => some (offset + 1)
      | none => if pattern <+: b :: rest then some 0 else none

theorem length_window_le (bytes : List UInt8) (offset length : Nat) :
    (window bytes offset length).length ≤ length := List.length_take_le ..

/-- A window inside the bytes has its full length. -/
theorem length_window {bytes : List UInt8} {offset length : Nat} (h : offset + length ≤ bytes.length) :
    (window bytes offset length).length = length := by
  rw [window, List.length_take, List.length_drop]
  omega

/-- A number inside a window. -/
theorem number_window {bytes : List UInt8} {start length offset width : Nat}
    (h : offset + width ≤ length) :
    number (window bytes start length) offset width = number bytes (start + offset) width := by
  rw [number, number, window, window, window, List.drop_take, List.drop_drop, List.take_take,
    Nat.min_eq_left (by omega)]

/-- A pattern inside a window. -/
theorem at_window_iff {bytes : List UInt8} {start length offset : Nat} {pattern : List UInt8}
    (h : offset + pattern.length ≤ length) :
    At (window bytes start length) offset pattern ↔ At bytes (start + offset) pattern := by
  rw [At, At, window, List.drop_take, List.drop_drop]
  constructor
  · exact fun hat => hat.trans (List.take_prefix ..)
  · intro hat
    exact List.prefix_take_iff.mpr ⟨hat, by omega⟩

theorem At.length_le {bytes : List UInt8} {offset : Nat} {pattern : List UInt8}
    (h : At bytes offset pattern) (hne : pattern ≠ []) : offset + pattern.length ≤ bytes.length := by
  have hle := List.IsPrefix.length_le h
  have hpos := List.length_pos_iff.mpr hne
  rw [List.length_drop] at hle
  omega

/-- The pattern stands nowhere. -/
theorem rfind_eq_none {pattern bytes : List UInt8} (h : rfind pattern bytes = none)
    (hne : pattern ≠ []) (offset : Nat) : ¬At bytes offset pattern := by
  induction bytes generalizing offset with
  | nil =>
      intro hat
      rw [At, List.drop_nil] at hat
      exact hne (List.prefix_nil.mp hat)
  | cons b rest ih =>
      rw [rfind] at h
      split at h
      · exact nomatch h
      · split at h
        · exact nomatch h
        · cases offset with
          | zero => assumption
          | succ offset => exact ih ‹_› offset

/-- The offset found is the last one where the pattern stands. -/
theorem rfind_eq_some {pattern bytes : List UInt8} {offset : Nat}
    (h : rfind pattern bytes = some offset) (hne : pattern ≠ []) :
    At bytes offset pattern ∧ ∀ later, offset < later → ¬At bytes later pattern := by
  induction bytes generalizing offset with
  | nil => exact nomatch h
  | cons b rest ih =>
      rw [rfind] at h
      split at h
      · rename_i found hfound
        cases h
        obtain ⟨hat, hlast⟩ := ih hfound
        refine ⟨hat, ?_⟩
        intro later hlater
        cases later with
        | zero => omega
        | succ later => exact hlast later (by omega)
      · split at h
        · cases h
          refine ⟨‹_›, ?_⟩
          intro later hlater
          cases later with
          | zero => omega
          | succ later => exact rfind_eq_none ‹_› hne later
        · exact nomatch h

end Bytes
