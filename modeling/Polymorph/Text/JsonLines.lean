import Polymorph.Text.SortedKeys
import Polymorph.Text.Utf8

/-!
# JSON texts on one line

The compact text of a value has no control characters, so that its bytes have no line feed and a
file of such texts, each with a line feed behind it, can be read line by line.
-/

set_option autoImplicit false

namespace JsonText

/-! ## Characters of a text -/

/-- No control characters. -/
def Visible (chars : List Char) : Prop := ∀ c ∈ chars, 32 ≤ c.toNat

instance (chars : List Char) : Decidable (Visible chars) :=
  List.decidableBAll (fun c : Char => 32 ≤ c.toNat) chars

theorem visible_nil : Visible [] := fun _ h => nomatch h

@[simp] theorem visible_cons {c : Char} {chars : List Char} :
    Visible (c :: chars) ↔ 32 ≤ c.toNat ∧ Visible chars := List.forall_mem_cons

@[simp] theorem visible_append {left right : List Char} :
    Visible (left ++ right) ↔ Visible left ∧ Visible right := List.forall_mem_append

theorem visible_of_digits {chars : List Char} (h : ∀ c ∈ chars, isDigit c = true) :
    Visible chars := by
  intro c hc
  have hdigit := h c hc
  rw [isDigit, Bool.and_eq_true, decide_eq_true_iff] at hdigit
  have hle : ('0' : Char).toNat ≤ c.toNat := hdigit.1
  exact Nat.le_trans (by decide) hle

theorem visible_spanDigits (chars : List Char) : Visible (spanDigits chars).1 := by
  refine visible_of_digits fun c hc => ?_
  rw [spanDigits, List.span_eq_takeWhile_dropWhile] at hc
  exact List.all_eq_true.mp List.all_takeWhile c hc

theorem visible_readFraction (chars : List Char) : Visible (readFraction chars).1 := by
  unfold readFraction
  split
  case h_1 rest =>
    have hdigits := visible_spanDigits rest
    split
    · exact visible_nil
    case h_2 d ds hspan =>
      rw [hspan] at hdigits
      exact visible_cons.mpr ⟨by decide, hdigits⟩
  case h_2 => exact visible_nil

theorem visible_readExponentDigits {mark : List Char} (hmark : Visible mark)
    (chars input : List Char) : Visible (readExponentDigits mark chars input).1 := by
  have hdigits := visible_spanDigits chars
  unfold readExponentDigits
  split
  · exact visible_nil
  case h_2 d ds hspan =>
    rw [hspan] at hdigits
    exact visible_append.mpr ⟨hmark, hdigits⟩

theorem visible_readExponent (chars : List Char) : Visible (readExponent chars).1 := by
  unfold readExponent
  split
  case h_1 c s rest =>
    split
    case isTrue hmark =>
      have hc : 32 ≤ c.toNat := by obtain rfl | rfl := hmark <;> decide
      split
      case isTrue hsign =>
        have hs : 32 ≤ s.toNat := by obtain rfl | rfl := hsign <;> decide
        exact visible_readExponentDigits (by simp [hc, hs, visible_nil]) _ _
      case isFalse => exact visible_readExponentDigits (by simp [hc, visible_nil]) _ _
    case isFalse => exact visible_nil
  case h_2 => exact visible_nil

theorem visible_readIntPart {chars ip rest : List Char} (h : readIntPart chars = some (ip, rest)) :
    Visible ip := by
  unfold readIntPart at h
  split at h
  · cases h
  case h_2 c cs =>
    split at h
    · cases h
      exact visible_cons.mpr ⟨by decide, visible_nil⟩
    · split at h
      case isTrue hdigit =>
        cases h
        have hc : Visible [c] := visible_of_digits fun d hd => List.mem_singleton.mp hd ▸ hdigit
        exact visible_append.mpr ⟨hc, visible_spanDigits cs⟩
      · cases h

theorem visible_readUnsigned {sign : Bool} {chars lexeme rest : List Char}
    (h : readUnsigned sign chars = some (.real lexeme, rest)) : Visible lexeme := by
  unfold readUnsigned at h
  split at h
  · cases h
  case h_2 ip after hip =>
    dsimp only at h
    split at h
    · cases h
    · cases h
      have hunsigned : Visible (ip ++ (readFraction after).1 ++
          (readExponent (readFraction after).2).1) := by
        simp only [visible_append]
        exact ⟨⟨visible_readIntPart hip, visible_readFraction _⟩, visible_readExponent _⟩
      cases sign with
      | false => exact hunsigned
      | true => exact visible_cons.mpr ⟨by decide, hunsigned⟩

theorem visible_of_isReal {lexeme : List Char} (h : isReal lexeme = true) : Visible lexeme := by
  unfold isReal at h
  split at h
  case h_1 found hread =>
    obtain rfl : found = lexeme := of_decide_eq_true h
    unfold readNumber at hread
    split at hread
    · cases hread
    · cases hread
    · cases hread
    · exact visible_readUnsigned hread
    · exact visible_readUnsigned hread
  case h_2 => cases h

theorem visible_escapeChar (c : Char) : Visible (escapeChar c) := by
  have hhex : ∀ d < 16, 32 ≤ (hexDigit d).toNat := by decide
  unfold escapeChar
  by_cases hcontrol : c.toNat < 32
  · have hhigh := hhex (c.toNat / 16) (by omega)
    have hlow := hhex (c.toNat % 16) (Nat.mod_lt _ (by decide))
    split_ifs <;> simp [hhigh, hlow, visible_nil]
  · have hself : Visible [c] := visible_cons.mpr ⟨Nat.not_lt.mp hcontrol, visible_nil⟩
    split_ifs <;> first | exact hself | decide

theorem visible_writeString (s : String) : Visible (writeString s) := by
  refine visible_cons.mpr ⟨by decide, visible_append.mpr ⟨fun c hc => ?_, by decide⟩⟩
  obtain ⟨d, -, hd⟩ := List.mem_flatMap.mp hc
  exact visible_escapeChar d c hd

theorem visible_writeInt (z : Int) : Visible (writeInt z) := by
  cases z with
  | ofNat n => exact visible_of_digits (writeNat_digits n)
  | negSucc n => exact visible_cons.mpr ⟨by decide, visible_of_digits (writeNat_digits (n + 1))⟩

mutual

/-- The text of a readable value has no control characters. -/
theorem visible_write : ∀ j : Json, readable j = true → Visible (write j)
  | .null, _ => by decide
  | .bool true, _ => by decide
  | .bool false, _ => by decide
  | .int z, _ => visible_writeInt z
  | .real lexeme, h => visible_of_isReal h
  | .constant name, h => by
      rw [readable, isConstant, Bool.or_eq_true, Bool.or_eq_true, decide_eq_true_iff,
        decide_eq_true_iff, decide_eq_true_iff] at h
      rw [write]
      obtain (rfl | rfl) | rfl := h <;> decide
  | .str s, _ => visible_writeString s
  | .arr [], _ => by decide
  | .arr (x :: xs), h => by
      rw [readable, readableItems, Bool.and_eq_true] at h
      exact visible_cons.mpr ⟨by decide,
        visible_append.mpr ⟨visible_write x h.1, visible_writeItems xs h.2⟩⟩
  | .obj [], _ => by decide
  | .obj ((k, v) :: ms), h => by
      rw [readable, readableMembers, Bool.and_eq_true] at h
      refine visible_cons.mpr ⟨by decide, visible_append.mpr ⟨visible_writeString k, ?_⟩⟩
      exact visible_cons.mpr ⟨by decide,
        visible_append.mpr ⟨visible_write v h.1, visible_writeMembers ms h.2⟩⟩

theorem visible_writeItems : ∀ xs : List Json, readableItems xs = true → Visible (writeItems xs)
  | [], _ => by decide
  | x :: xs, h => by
      rw [readableItems, Bool.and_eq_true] at h
      exact visible_cons.mpr ⟨by decide,
        visible_append.mpr ⟨visible_write x h.1, visible_writeItems xs h.2⟩⟩

theorem visible_writeMembers : ∀ ms : List (String × Json), readableMembers ms = true →
    Visible (writeMembers ms)
  | [], _ => by decide
  | (k, v) :: ms, h => by
      rw [readableMembers, Bool.and_eq_true] at h
      refine visible_cons.mpr ⟨by decide, visible_append.mpr ⟨visible_writeString k, ?_⟩⟩
      exact visible_cons.mpr ⟨by decide,
        visible_append.mpr ⟨visible_write v h.1, visible_writeMembers ms h.2⟩⟩

end

/-! ## Bytes of a text -/

/-- A byte that is a character on its own occurs in the bytes of that character only. -/
theorem eq_of_mem_utf8EncodeChar {a c : Char} {b : UInt8} (ha : String.utf8EncodeChar a = [b])
    (h : b ∈ String.utf8EncodeChar c) : c = a := by
  obtain ⟨i, hi, hb⟩ := List.mem_iff_getElem.mp h
  have hfirst : b.IsUTF8FirstByte := by
    have hsingle := @UInt8.isUTF8FirstByte_getElem_utf8EncodeChar a 0 (by simp [ha])
    simpa [ha] using hsingle
  have hzero : i = 0 := by
    rw [← @UInt8.isUTF8FirstByte_getElem_utf8EncodeChar c i hi, hb]
    exact hfirst
  subst hzero
  obtain ⟨rest, hrest⟩ : ∃ rest, String.utf8EncodeChar c = b :: rest := by
    cases hbytes : String.utf8EncodeChar c with
    | nil => exact absurd hbytes (utf8EncodeChar_ne_nil c)
    | cons b' rest =>
        refine ⟨rest, ?_⟩
        simp only [hbytes, List.getElem_cons_zero] at hb
        rw [hb]
  refine @first_char_eq c a [] [] [] rest ?_
  rw [utf8Bytes_cons, utf8Bytes_cons, ha, hrest]
  simp

theorem notMem_newline_utf8Bytes {chars : List Char} (h : Visible chars) :
    10 ∉ utf8Bytes chars := by
  intro hmem
  obtain ⟨c, hc, hbyte⟩ := List.mem_flatMap.mp hmem
  have hnewline : c = '\n' := eq_of_mem_utf8EncodeChar (by decide) hbyte
  subst hnewline
  exact absurd (h _ hc) (by decide)

end JsonText
