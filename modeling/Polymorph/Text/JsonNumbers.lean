import Polymorph.Text.JsonRoundTrip

/-!
# Non-integer numbers inside a text

A number is read up to the first character that cannot continue it, so what the reader makes of a
lexeme alone it makes of the lexeme inside a text. `IsReal` are the lexemes that are read as
themselves.
-/

set_option autoImplicit false

namespace JsonText

/-- The lexeme is read as a non-integer number, as a whole. -/
def isReal (lexeme : List Char) : Bool :=
  match readNumber lexeme with
  | some (.real found, []) => found = lexeme
  | _ => false

/-- One of the non-finite constants. -/
def isConstant (name : List Char) : Bool :=
  name = "NaN".toList || name = "Infinity".toList || name = "-Infinity".toList

section Append

variable {rest : List Char} (h : Delimited rest)

include h

theorem spanDigits_append_delimited (cs : List Char) :
    spanDigits (cs ++ rest) = ((spanDigits cs).1, (spanDigits cs).2 ++ rest) := by
  simp only [spanDigits, List.span_eq_takeWhile_dropWhile]
  induction cs with
  | nil =>
      cases rest with
      | nil => rfl
      | cons c t => simp [not_isDigit_of_delimited h c t rfl]
  | cons c cs ih =>
      rw [Prod.mk.injEq] at ih
      by_cases hc : isDigit c = true
      · simp [hc, ih.1, ih.2]
      · simp [hc]

theorem readIntPart_append (cs : List Char) :
    readIntPart (cs ++ rest) = (readIntPart cs).map fun p => (p.1, p.2 ++ rest) := by
  cases cs with
  | nil =>
      cases rest with
      | nil => rfl
      | cons c t =>
          have hdigit := not_isDigit_of_delimited h c t rfl
          have hzero : c ≠ '0' := by
            rintro rfl
            cases hdigit
          simp only [List.nil_append, readIntPart, if_neg hzero, hdigit, Bool.false_eq_true,
            if_false, Option.map_none]
  | cons c cs =>
      rw [List.cons_append, readIntPart, readIntPart]
      by_cases hzero : c = '0'
      · rw [if_pos hzero, if_pos hzero]
        rfl
      · rw [if_neg hzero, if_neg hzero, spanDigits_append_delimited h]
        split
        · rfl
        · rfl

theorem readFraction_append (cs : List Char) :
    readFraction (cs ++ rest) = ((readFraction cs).1, (readFraction cs).2 ++ rest) := by
  cases cs with
  | nil => exact readFraction_delimited h
  | cons c cs =>
      by_cases hc : c = '.'
      · subst hc
        simp only [List.cons_append, readFraction, spanDigits_append_delimited h]
        rcases spanDigits cs with ⟨_ | ⟨d, ds⟩, t⟩
        · rfl
        · rfl
      · have hother : ∀ ds, readFraction (c :: ds) = ([], c :: ds) := by
          intro ds
          unfold readFraction
          split
          · rename_i heq
            exact absurd (List.cons.inj heq).1 hc
          · rfl
        rw [List.cons_append, hother, hother, List.cons_append]

theorem readExponentDigits_append (mark cs input : List Char) :
    readExponentDigits mark (cs ++ rest) (input ++ rest) =
      ((readExponentDigits mark cs input).1, (readExponentDigits mark cs input).2 ++ rest) := by
  unfold readExponentDigits
  rw [spanDigits_append_delimited h]
  rcases spanDigits cs with ⟨_ | ⟨d, ds⟩, t⟩
  · rfl
  · rfl

/-- A separator is neither a sign nor a digit. -/
theorem readExponentDigits_delimited (mark input : List Char) :
    readExponentDigits mark rest input = ([], input) := by
  have hspan := spanDigits_append_delimited h []
  rw [List.nil_append] at hspan
  unfold readExponentDigits
  rw [hspan]
  rfl

theorem readExponent_append (cs : List Char) :
    readExponent (cs ++ rest) = ((readExponent cs).1, (readExponent cs).2 ++ rest) := by
  match cs with
  | [] => exact readExponent_delimited h
  | [c] =>
      have hsign : ∀ s t, rest = s :: t → ¬(s = '+' ∨ s = '-') := by
        intro s t hst
        rcases h with rfl | ⟨c', t', rfl, hc'⟩
        · cases hst
        · cases hst
          rcases hc' with rfl | rfl | rfl | rfl <;> decide
      cases rest with
      | nil => rfl
      | cons s t =>
          rw [List.singleton_append, readExponent, if_neg (hsign s t rfl),
            readExponentDigits_delimited h, ite_self]
          rfl
  | c :: s :: cs =>
      have hdigits := readExponentDigits_append h [c, s] cs (c :: s :: cs)
      have hdigits' := readExponentDigits_append h [c] (s :: cs) (c :: s :: cs)
      simp only [List.cons_append] at hdigits hdigits'
      simp only [List.cons_append, readExponent]
      split
      · split
        · exact hdigits
        · exact hdigits'
      · rfl

/-- A number is read up to the separator that follows it. -/
theorem readUnsigned_append (sign : Bool) (cs : List Char) :
    readUnsigned sign (cs ++ rest) =
      (readUnsigned sign cs).map fun p => (p.1, p.2 ++ rest) := by
  unfold readUnsigned
  rw [readIntPart_append h]
  cases readIntPart cs with
  | none => rfl
  | some ip =>
      simp only [Option.map_some, readFraction_append h, readExponent_append h]
      split
      · rfl
      · rfl

end Append

/-- A sign-free number starts with a digit. -/
theorem digit_of_readUnsigned {sign : Bool} {cs : List Char} {p : Json × List Char}
    (h : readUnsigned sign cs = some p) : ∃ c ds, cs = c :: ds ∧ isDigit c = true := by
  cases cs with
  | nil => cases h
  | cons c ds =>
      refine ⟨c, ds, rfl, ?_⟩
      by_contra hc
      rw [Bool.not_eq_true] at hc
      have hzero : c ≠ '0' := by
        rintro rfl
        cases hc
      rw [readUnsigned, readIntPart, if_neg hzero, hc] at h
      cases h

/-- A lexeme that is read as itself is read so inside a text. -/
theorem readNumber_real {lexeme rest : List Char} (hreal : isReal lexeme = true)
    (h : Delimited rest) : readNumber (lexeme ++ rest) = some (.real lexeme, rest) := by
  unfold isReal at hreal
  split at hreal
  · rename_i found hread
    obtain rfl : found = lexeme := of_decide_eq_true hreal
    unfold readNumber at hread
    split at hread
    · cases hread
    · cases hread
    · cases hread
    · rename_i cs _
      obtain ⟨c, ds, rfl, hc⟩ := digit_of_readUnsigned hread
      have happend := readUnsigned_append h true (c :: ds)
      rw [hread, Option.map_some, List.nil_append, List.cons_append] at happend
      rw [List.cons_append, List.cons_append, readNumber_minus hc, happend]
    · obtain ⟨c, ds, rfl, hc⟩ := digit_of_readUnsigned hread
      have happend := readUnsigned_append h false (c :: ds)
      rw [hread, Option.map_some, List.nil_append, List.cons_append] at happend
      rw [List.cons_append, readNumber_digit hc, happend]
  · cases hreal

/-! ## Values that are read back -/

mutual

/-- Every real number and every constant of the value is one that the reader knows. -/
def readable : Json → Bool
  | .arr items => readableItems items
  | .obj members => readableMembers members
  | .real lexeme => isReal lexeme
  | .constant name => isConstant name
  | .null => true
  | .bool _ => true
  | .int _ => true
  | .str _ => true

def readableItems : List Json → Bool
  | [] => true
  | x :: xs => readable x && readableItems xs

def readableMembers : List (String × Json) → Bool
  | [] => true
  | (_, v) :: rest => readable v && readableMembers rest

end

mutual

/-- A value without real numbers and constants is read back. -/
theorem readable_of_integral : ∀ j : Json, integral j = true → readable j = true
  | .null, _ => rfl
  | .bool _, _ => rfl
  | .int _, _ => rfl
  | .str _, _ => rfl
  | .arr items, h => readableItems_of_integral items h
  | .obj members, h => readableMembers_of_integral members h

theorem readableItems_of_integral : ∀ items : List Json, integralItems items = true →
    readableItems items = true
  | [], _ => rfl
  | x :: xs, h => by
      rw [integralItems, Bool.and_eq_true] at h
      rw [readableItems, readable_of_integral x h.1, readableItems_of_integral xs h.2]
      rfl

theorem readableMembers_of_integral : ∀ ms : List (String × Json), integralMembers ms = true →
    readableMembers ms = true
  | [], _ => rfl
  | (_, v) :: ms, h => by
      rw [integralMembers, Bool.and_eq_true] at h
      rw [readableMembers, readable_of_integral v h.1, readableMembers_of_integral ms h.2]
      rfl

end

/-- A real number starts with a digit or the minus sign. -/
theorem isReal_cons {lexeme : List Char} (h : isReal lexeme = true) :
    ∃ c t, lexeme = c :: t ∧ (c = '-' ∨ isDigit c = true) := by
  unfold isReal at h
  split at h
  · rename_i found hread
    unfold readNumber at hread
    split at hread
    · cases hread
    · cases hread
    · cases hread
    · exact ⟨_, _, rfl, .inl rfl⟩
    · obtain ⟨c, ds, rfl, hc⟩ := digit_of_readUnsigned hread
      exact ⟨c, ds, rfl, .inr hc⟩
  · cases h

/-- A number is no keyword, string, array or object. -/
theorem readValue_number (n : Nat) {c : Char} (t : List Char) (hc : c = '-' ∨ isDigit c = true) :
    readValue (n + 1) (c :: t) = readNumber (c :: t) := by
  have hne : ∀ d : Char, isDigit d = false → d ≠ '-' → c ≠ d := by
    rintro d hd hminus rfl
    rcases hc with rfl | hc
    · exact hminus rfl
    · rw [hd] at hc
      cases hc
  unfold readValue
  split
  · rename_i heq
    exact absurd (List.cons.inj heq).1 (hne _ (by decide) (by decide))
  · rename_i heq
    exact absurd (List.cons.inj heq).1 (hne _ (by decide) (by decide))
  · rename_i heq
    exact absurd (List.cons.inj heq).1 (hne _ (by decide) (by decide))
  · rename_i heq
    exact absurd (List.cons.inj heq).1 (hne _ (by decide) (by decide))
  · rename_i heq
    exact absurd (List.cons.inj heq).1 (hne _ (by decide) (by decide))
  · rename_i heq
    exact absurd (List.cons.inj heq).1 (hne _ (by decide) (by decide))
  · rfl

theorem readValue_real (n : Nat) {lexeme rest : List Char} (hreal : isReal lexeme = true)
    (h : Delimited rest) : readValue (n + 1) (lexeme ++ rest) = some (.real lexeme, rest) := by
  have hread := readNumber_real hreal h
  obtain ⟨c, t, rfl, hc⟩ := isReal_cons hreal
  rw [List.cons_append] at hread ⊢
  rw [readValue_number n _ hc, hread]

theorem readValue_constant (n : Nat) {name : List Char} (hname : isConstant name = true)
    (rest : List Char) : readValue (n + 1) (name ++ rest) = some (.constant name, rest) := by
  rw [isConstant, Bool.or_eq_true, Bool.or_eq_true, decide_eq_true_iff, decide_eq_true_iff,
    decide_eq_true_iff] at hname
  rcases hname with (rfl | rfl) | rfl
  · rfl
  · rfl
  · rfl

end JsonText
