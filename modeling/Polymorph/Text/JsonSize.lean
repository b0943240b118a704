import Mathlib.Data.Nat.Digits.Lemmas
import Polymorph.Text.Utf8
import Polymorph.Text.JsonLayout

/-!
# Sizes of compact texts

A bound on the bytes of the compact text of a value, computed along the value: the bytes of its
leaves and keys, and two for every item and member.
-/

set_option autoImplicit false

namespace JsonText

/-- The bytes of some characters. -/
def byteCount (chars : List Char) : Nat := (utf8Bytes chars).length

theorem byteCount_cons (c : Char) (chars : List Char) :
    byteCount (c :: chars) = c.utf8Size + byteCount chars := by
  unfold byteCount
  rw [utf8Bytes_cons, List.length_append, String.length_utf8EncodeChar]

theorem byteCount_append (left right : List Char) :
    byteCount (left ++ right) = byteCount left + byteCount right := by
  unfold byteCount
  rw [utf8Bytes_append, List.length_append]

/-- ASCII characters take one byte each. -/
theorem byteCount_ascii {chars : List Char} (h : ∀ c ∈ chars, c.toNat < 128) :
    byteCount chars = chars.length := by
  induction chars with
  | nil => rfl
  | cons c chars ih =>
      have hc : c.utf8Size = 1 := Char.utf8Size_eq_one_iff.mpr (by
        have hlt := h c List.mem_cons_self
        exact UInt32.le_iff_toNat_le.mpr (by
          change c.toNat ≤ 127
          omega))
      rw [byteCount_cons, hc, ih fun d hd => h d (List.mem_cons_of_mem _ hd), List.length_cons]
      omega

/-! ## Texts -/

/-- A character takes at most six bytes in a string literal. -/
theorem byteCount_escapeChar_le (c : Char) : byteCount (escapeChar c) ≤ 6 := by
  have hascii : ∀ n, n < 16 → (hexDigit n).toNat < 128 := by decide
  unfold escapeChar
  split
  · decide
  split
  · decide
  split
  · decide
  split
  · decide
  split
  · decide
  split
  · decide
  split
  · decide
  split
  · rename_i hcontrol
    rw [byteCount_ascii]
    · exact Nat.le_refl 6
    · intro d hd
      simp only [List.mem_cons, List.not_mem_nil, or_false] at hd
      rcases hd with rfl | rfl | rfl | rfl | rfl | rfl
      · decide
      · decide
      · decide
      · decide
      · exact hascii _ (by omega)
      · exact hascii _ (by omega)
  · have hsize := c.utf8Size_le_four
    rw [byteCount_cons]
    change _ + 0 ≤ 6
    omega

/-- A string literal of `n` characters. -/
theorem byteCount_writeString_le (s : String) : byteCount (writeString s) ≤ 6 * s.length + 2 := by
  have hchars : ∀ chars : List Char,
      byteCount (chars.flatMap escapeChar) ≤ 6 * chars.length := by
    intro chars
    induction chars with
    | nil => exact Nat.le_refl 0
    | cons c chars ih =>
        have hc := byteCount_escapeChar_le c
        rw [List.flatMap_cons, byteCount_append, List.length_cons]
        omega
  have htext := hchars s.toList
  rw [String.length_toList] at htext
  rw [writeString, byteCount_cons, byteCount_append]
  change 1 + (_ + 1) ≤ _
  omega

/-- A text without characters to escape. -/
theorem byteCount_writeString_plain {s : String}
    (h : ∀ c ∈ s.toList, escapeChar c = [c] ∧ c.toNat < 128) :
    byteCount (writeString s) = s.length + 2 := by
  have hchars : ∀ chars : List Char, (∀ c ∈ chars, escapeChar c = [c]) →
      chars.flatMap escapeChar = chars := by
    intro chars hall
    induction chars with
    | nil => rfl
    | cons c chars ih =>
        rw [List.flatMap_cons, hall c List.mem_cons_self,
          ih fun d hd => hall d (List.mem_cons_of_mem _ hd), List.singleton_append]
  rw [writeString, byteCount_cons, byteCount_append, hchars s.toList fun c hc => (h c hc).1,
    byteCount_ascii fun c hc => (h c hc).2, String.length_toList]
  change 1 + (_ + 1) = _
  omega

/-- A number below a power of ten. -/
theorem byteCount_writeNat_le {n width : Nat} (hwidth : 0 < width) (h : n < 10 ^ width) :
    byteCount (writeNat n) ≤ width := by
  have hdigit : ∀ d, d < 10 → (Nat.digitChar d).toNat < 128 := by decide
  unfold writeNat
  split
  · exact hwidth
  · rw [byteCount_ascii, List.length_map, List.length_reverse]
    · exact (Nat.digits_length_le_iff (by decide) n).mpr h
    · intro c hc
      obtain ⟨d, hd, rfl⟩ := List.mem_map.mp hc
      exact hdigit d (Nat.digits_lt_base (by decide) (List.mem_reverse.mp hd))

/-! ## Values -/

mutual

/-- The bound on the text of a value. -/
def extent : Json → Nat
  | .arr items => 2 + extentItems items
  | .obj members => 2 + extentMembers members
  | .null => byteCount (write .null)
  | .bool b => byteCount (write (.bool b))
  | .int z => byteCount (writeInt z)
  | .real lexeme => byteCount lexeme
  | .constant name => byteCount name
  | .str s => byteCount (writeString s)

def extentItems : List Json → Nat
  | [] => 0
  | x :: xs => extent x + 1 + extentItems xs

def extentMembers : List (String × Json) → Nat
  | [] => 0
  | (k, v) :: rest => byteCount (writeString k) + (extent v + 2) + extentMembers rest

end

mutual

/-- **The text of a value stays within its bound.** -/
theorem byteCount_write_le : ∀ j : Json, byteCount (write j) ≤ extent j
  | .null => Nat.le_refl _
  | .bool _ => Nat.le_refl _
  | .int _ => Nat.le_refl _
  | .real _ => Nat.le_refl _
  | .constant _ => Nat.le_refl _
  | .str _ => Nat.le_refl _
  | .arr [] => by decide
  | .arr (x :: xs) => by
      have hx := byteCount_write_le x
      have hxs := byteCount_writeItems_le xs
      rw [write, extent, extentItems, byteCount_cons, byteCount_append]
      change 1 + _ ≤ _
      omega
  | .obj [] => by decide
  | .obj ((k, v) :: ms) => by
      have hv := byteCount_write_le v
      have hms := byteCount_writeMembers_le ms
      rw [write, extent, extentMembers, byteCount_cons, byteCount_append, byteCount_cons,
        byteCount_append]
      change 1 + (_ + (1 + _)) ≤ _
      omega

theorem byteCount_writeItems_le : ∀ xs : List Json,
    byteCount (writeItems xs) ≤ 1 + extentItems xs
  | [] => by decide
  | x :: xs => by
      have hx := byteCount_write_le x
      have hxs := byteCount_writeItems_le xs
      rw [writeItems, extentItems, byteCount_cons, byteCount_append]
      change 1 + _ ≤ _
      omega

theorem byteCount_writeMembers_le : ∀ ms : List (String × Json),
    byteCount (writeMembers ms) ≤ 1 + extentMembers ms
  | [] => by decide
  | (k, v) :: ms => by
      have hv := byteCount_write_le v
      have hms := byteCount_writeMembers_le ms
      rw [writeMembers, extentMembers, byteCount_cons, byteCount_append, byteCount_cons,
        byteCount_append]
      change 1 + (_ + (1 + _)) ≤ _
      omega

end

/-- Items of one bound. -/
theorem extentItems_le {bound : Nat} {xs : List Json} (h : ∀ x ∈ xs, extent x ≤ bound) :
    extentItems xs ≤ xs.length * (bound + 1) := by
  induction xs with
  | nil => exact Nat.zero_le _
  | cons x xs ih =>
      have hx := h x List.mem_cons_self
      have hxs := ih fun y hy => h y (List.mem_cons_of_mem _ hy)
      rw [extentItems, List.length_cons, Nat.succ_mul]
      omega

/-- The keys and the values of an object. -/
theorem extentMembers_eq (ms : List (String × Json)) :
    extentMembers ms = ((ms.map Prod.fst).map fun k => byteCount (writeString k) + 2).sum +
      ((ms.map Prod.snd).map extent).sum := by
  induction ms with
  | nil => rfl
  | cons m ms ih =>
      obtain ⟨k, v⟩ := m
      simp only [extentMembers, ih, List.map_cons, List.sum_cons]
      omega

end JsonText
