import Polymorph.Text.Loading

/-!
# First bytes of a text

Where the first bytes of a UTF-8 text are a text again: exactly where the cut is at the start of a
character. A text is determined by its bytes, also as the start of a longer one.
-/

set_option autoImplicit false

namespace JsonText

@[simp] theorem utf8Bytes_nil : utf8Bytes [] = [] := rfl

theorem utf8Bytes_cons (c : Char) (chars : List Char) :
    utf8Bytes (c :: chars) = String.utf8EncodeChar c ++ utf8Bytes chars := List.flatMap_cons

theorem utf8Bytes_append (left right : List Char) :
    utf8Bytes (left ++ right) = utf8Bytes left ++ utf8Bytes right := List.flatMap_append

theorem utf8EncodeChar_ne_nil (c : Char) : String.utf8EncodeChar c ≠ [] := by
  intro hnil
  have hlength := String.length_utf8EncodeChar c
  have hpos := c.utf8Size_pos
  rw [hnil, List.length_nil] at hlength
  omega

theorem utf8Bytes_eq_of_decodeUtf8 {bytes : List UInt8} {text : String}
    (h : decodeUtf8 bytes = some text) : utf8Bytes text.toList = bytes := by
  rw [decodeUtf8, String.fromUTF8?] at h
  split at h
  · cases h
    rename_i hvalid
    have heq := toByteArray_utf8Bytes (String.fromUTF8 ⟨bytes.toArray⟩ hvalid).toList
    rw [String.ofList_toList] at heq
    exact congrArg (fun array : ByteArray => array.data.toList) heq
  · exact nomatch h

/-- The first character of a text can be read from its bytes. -/
theorem first_char_eq {c d : Char} {chars chars' : List Char} {rest rest' : List UInt8}
    (h : utf8Bytes (c :: chars) ++ rest = utf8Bytes (d :: chars') ++ rest') : c = d := by
  have hdecode (c : Char) (chars : List Char) (rest : List UInt8) :
      ByteArray.utf8DecodeChar? (utf8Bytes (c :: chars) ++ rest).toByteArray 0 = some c := by
    rw [utf8Bytes_cons, List.append_assoc, List.toByteArray_append]
    exact ByteArray.utf8DecodeChar?_utf8EncodeChar_append
  have hc := hdecode c chars rest
  rw [h, hdecode d chars' rest'] at hc
  exact (Option.some.inj hc).symm

/-- The text of the first bytes is the first part of the text. -/
theorem starts_of_utf8Bytes {chars chars' : List Char}
    (h : utf8Bytes chars <+: utf8Bytes chars') : chars <+: chars' := by
  induction chars generalizing chars' with
  | nil => exact List.nil_prefix
  | cons c chars ih =>
      obtain ⟨rest, hrest⟩ := h
      cases chars' with
      | nil =>
          rw [utf8Bytes_nil, utf8Bytes_cons, List.append_assoc] at hrest
          exact absurd (List.append_eq_nil_iff.mp hrest).1 (utf8EncodeChar_ne_nil c)
      | cons d chars' =>
          have hcd : c = d := @first_char_eq c d chars chars' rest [] (by rw [hrest, List.append_nil])
          subst hcd
          rw [utf8Bytes_cons, utf8Bytes_cons, List.append_assoc] at hrest
          exact List.prefix_cons_inj c |>.mpr (ih ⟨rest, List.append_cancel_left hrest⟩)

/-- An offset where a character of the text begins, or the end of the text and what is behind it. -/
def OnBoundary (bytes : List UInt8) (offset : Nat) : Prop :=
  ∀ b, bytes[offset]? = some b → b.IsUTF8FirstByte

theorem onBoundary_iff (chars : List Char) (offset : Nat) :
    OnBoundary (utf8Bytes chars) offset ↔
      ∃ count, (utf8Bytes chars).take offset = utf8Bytes (chars.take count) := by
  induction chars generalizing offset with
  | nil =>
      refine ⟨fun _ => ⟨0, List.take_nil⟩, fun _ b hb => ?_⟩
      rw [utf8Bytes_nil, List.getElem?_nil] at hb
      exact nomatch hb
  | cons c chars ih =>
      rw [utf8Bytes_cons]
      by_cases hinside : offset < (String.utf8EncodeChar c).length
      · -- the cut is before the next character
        have hfirst : OnBoundary (String.utf8EncodeChar c ++ utf8Bytes chars) offset ↔
            offset = 0 := by
          rw [OnBoundary, List.getElem?_append_left hinside, List.getElem?_eq_getElem hinside,
            ← @UInt8.isUTF8FirstByte_getElem_utf8EncodeChar c offset hinside]
          exact ⟨fun h => h _ rfl, fun h b hb => Option.some.inj hb ▸ h⟩
        rw [hfirst]
        constructor
        · rintro rfl
          exact ⟨0, rfl⟩
        · rintro ⟨count, hcount⟩
          have hlength := congrArg List.length hcount
          rw [List.take_append_of_le_length (Nat.le_of_lt hinside), List.length_take,
            Nat.min_eq_left (Nat.le_of_lt hinside)] at hlength
          cases count with
          | zero => exact hlength
          | succ count =>
              rw [List.take_succ_cons, utf8Bytes_cons, List.length_append] at hlength
              omega
      · obtain ⟨later, rfl⟩ := Nat.exists_eq_add_of_le (Nat.not_lt.mp hinside)
        have hlater : OnBoundary (String.utf8EncodeChar c ++ utf8Bytes chars)
            ((String.utf8EncodeChar c).length + later) ↔ OnBoundary (utf8Bytes chars) later := by
          rw [OnBoundary, OnBoundary, List.getElem?_append_right (Nat.le_add_right _ _),
            Nat.add_sub_cancel_left]
        rw [hlater, ih, List.take_length_add_append]
        constructor
        · rintro ⟨count, hcount⟩
          exact ⟨count + 1, by rw [hcount, List.take_succ_cons, utf8Bytes_cons]⟩
        · rintro ⟨count, hcount⟩
          cases count with
          | zero =>
              rw [List.take_zero, utf8Bytes_nil] at hcount
              exact absurd (List.append_eq_nil_iff.mp hcount).1 (utf8EncodeChar_ne_nil c)
          | succ count =>
              rw [List.take_succ_cons, utf8Bytes_cons] at hcount
              exact ⟨count, List.append_cancel_left hcount⟩

/-- The first bytes of a text decode if and only if they end at the start of a character. -/
theorem decodeUtf8_take_iff (chars : List Char) (offset : Nat) :
    (decodeUtf8 ((utf8Bytes chars).take offset)).isSome = true ↔
      OnBoundary (utf8Bytes chars) offset := by
  rw [onBoundary_iff]
  constructor
  · intro hsome
    obtain ⟨text, htext⟩ := Option.isSome_iff_exists.mp hsome
    have hbytes := utf8Bytes_eq_of_decodeUtf8 htext
    have hstarts : utf8Bytes text.toList <+: utf8Bytes chars := hbytes ▸ List.take_prefix _ _
    have hchars := starts_of_utf8Bytes hstarts
    exact ⟨text.toList.length, by rw [← List.prefix_iff_eq_take.mp hchars, hbytes]⟩
  · rintro ⟨count, hcount⟩
    rw [hcount, decodeUtf8_utf8Bytes]
    rfl

end JsonText
