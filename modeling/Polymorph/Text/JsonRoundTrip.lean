import Polymorph.Text.JsonDict

/-!
# Reading what was written

`loads_dumps` is the round trip of the writer and the reader for values without real numbers and
non-finite constants. On such a value without repeated keys both loaders read the canonical text
back as the value with its keys ordered, so the canonical text determines that value.
-/

set_option autoImplicit false

namespace JsonText

/-! ## Values whose numbers are integers -/

mutual

/-- No real number and no non-finite constant occurs. -/
def integral : Json → Bool
  | .arr items => integralItems items
  | .obj members => integralMembers members
  | .real _ => false
  | .constant _ => false
  | .null => true
  | .bool _ => true
  | .int _ => true
  | .str _ => true

def integralItems : List Json → Bool
  | [] => true
  | x :: xs => integral x && integralItems xs

def integralMembers : List (String × Json) → Bool
  | [] => true
  | (_, v) :: rest => integral v && integralMembers rest

end

/-- What follows a value in a written text: nothing, a separator, a closing bracket or a new
line. -/
def Delimited (rest : List Char) : Prop :=
  rest = [] ∨ ∃ c t, rest = c :: t ∧ (c = ',' ∨ c = ']' ∨ c = '}' ∨ c = '\n')

theorem delimited_writeItems (xs : List Json) (rest : List Char) :
    Delimited (writeItems xs ++ rest) := by
  cases xs with
  | nil => exact .inr ⟨']', rest, rfl, .inr (.inl rfl)⟩
  | cons x xs => exact .inr ⟨',', _, rfl, .inl rfl⟩

theorem delimited_writeMembers (ms : List (String × Json)) (rest : List Char) :
    Delimited (writeMembers ms ++ rest) := by
  cases ms with
  | nil => exact .inr ⟨'}', rest, rfl, .inr (.inr (.inl rfl))⟩
  | cons m ms => exact .inr ⟨',', _, rfl, .inl rfl⟩

/-! ## Integers -/

theorem isDigit_digitChar : ∀ d, d < 10 → isDigit (Nat.digitChar d) = true := by decide

theorem digitChar_value : ∀ d, d < 10 → (Nat.digitChar d).toNat - 48 = d := by decide

theorem digitChar_ne_zero : ∀ d, d < 10 → d ≠ 0 → Nat.digitChar d ≠ '0' := by decide

theorem writeNat_digits (n : Nat) : ∀ c ∈ writeNat n, isDigit c = true := by
  intro c hc
  unfold writeNat at hc
  split at hc
  · rw [List.mem_singleton.1 hc]
    decide
  · obtain ⟨d, hd, rfl⟩ := List.mem_map.1 hc
    exact isDigit_digitChar d (Nat.digits_lt_base (by decide) (List.mem_reverse.1 hd))

/-- The value of the digits of a number, least significant digit first. -/
theorem digitsValue_reverse (ds : List Nat) (hds : ∀ d ∈ ds, d < 10) :
    digitsValue (ds.reverse.map Nat.digitChar) = Nat.ofDigits 10 ds := by
  induction ds with
  | nil => rfl
  | cons d ds ih =>
      have hd := digitChar_value d (hds d List.mem_cons_self)
      have ih := ih fun d hd => hds d (List.mem_cons_of_mem _ hd)
      rw [digitsValue] at ih ⊢
      rw [List.reverse_cons, List.map_append, List.foldl_append, ih, Nat.ofDigits_cons]
      simp only [List.map_cons, List.map_nil, List.foldl_cons, List.foldl_nil, hd]
      rw [Nat.mul_comm, Nat.add_comm]

theorem digitsValue_writeNat (n : Nat) : digitsValue (writeNat n) = n := by
  unfold writeNat
  split
  · rename_i hn
    rw [hn]
    decide
  · rw [digitsValue_reverse _ fun d hd => Nat.digits_lt_base (by decide) hd, Nat.ofDigits_digits]

/-- A positive number is written without a leading zero. -/
theorem writeNat_head {n : Nat} (hn : n ≠ 0) :
    ∃ c cs, writeNat n = c :: cs ∧ c ≠ '0' := by
  have hne : Nat.digits 10 n ≠ [] := Nat.digits_ne_nil_iff_ne_zero.2 hn
  have hlast := Nat.getLast_digit_ne_zero 10 hn
  have hlt : (Nat.digits 10 n).getLast hne < 10 :=
    Nat.digits_lt_base (by decide) (List.getLast_mem hne)
  refine ⟨Nat.digitChar ((Nat.digits 10 n).getLast hne),
    ((Nat.digits 10 n).dropLast.reverse).map Nat.digitChar, ?_, digitChar_ne_zero _ hlt hlast⟩
  rw [writeNat, if_neg hn]
  conv_lhs => rw [← List.dropLast_append_getLast hne]
  rw [List.reverse_append, List.reverse_singleton, List.singleton_append, List.map_cons]

theorem not_isDigit_of_delimited {rest : List Char} (h : Delimited rest) :
    ∀ c t, rest = c :: t → isDigit c = false := by
  intro c t hct
  rcases h with rfl | ⟨c', t', rfl, hc⟩
  · cases hct
  · cases hct
    rcases hc with rfl | rfl | rfl | rfl <;> decide

theorem spanDigits_append {ds rest : List Char} (hds : ∀ c ∈ ds, isDigit c = true)
    (h : Delimited rest) : spanDigits (ds ++ rest) = (ds, rest) := by
  have hrest := not_isDigit_of_delimited h
  rw [spanDigits, List.span_eq_takeWhile_dropWhile]
  induction ds with
  | nil =>
      cases rest with
      | nil => rfl
      | cons c t => simp [hrest c t rfl]
  | cons d ds ih =>
      have hd := hds d List.mem_cons_self
      have ih := ih fun c hc => hds c (List.mem_cons_of_mem _ hc)
      simp only [Prod.mk.injEq] at ih
      simp only [List.cons_append, List.takeWhile_cons, List.dropWhile_cons, hd, if_true, ih.1,
        ih.2]

theorem readIntPart_writeNat (n : Nat) {rest : List Char} (h : Delimited rest) :
    readIntPart (writeNat n ++ rest) = some (writeNat n, rest) := by
  by_cases hn : n = 0
  · subst hn
    rfl
  · obtain ⟨c, cs, hcs, hc⟩ := writeNat_head hn
    have hdigits := writeNat_digits n
    rw [hcs] at hdigits
    have hspan := spanDigits_append (fun c hc => hdigits c (List.mem_cons_of_mem _ hc)) h
    rw [hcs, List.cons_append, readIntPart, if_neg hc, if_pos (hdigits c List.mem_cons_self),
      hspan]

theorem readFraction_delimited {rest : List Char} (h : Delimited rest) :
    readFraction rest = ([], rest) := by
  rcases h with rfl | ⟨c, t, rfl, hc⟩
  · rfl
  · rcases hc with rfl | rfl | rfl | rfl <;> rfl

theorem readExponent_delimited {rest : List Char} (h : Delimited rest) :
    readExponent rest = ([], rest) := by
  rcases h with rfl | ⟨c, t, rfl, hc⟩
  · rfl
  · cases t with
    | nil => rfl
    | cons s t =>
        have hne : ¬(c = 'e' ∨ c = 'E') := by
          rcases hc with rfl | rfl | rfl | rfl <;> decide
        rw [readExponent, if_neg hne]

theorem readUnsigned_writeNat (sign : Bool) (n : Nat) {rest : List Char} (h : Delimited rest) :
    readUnsigned sign (writeNat n ++ rest) =
      some (.int (if sign then -(n : Int) else n), rest) := by
  rw [readUnsigned, readIntPart_writeNat n h]
  simp only [readFraction_delimited h, readExponent_delimited h, and_self, if_true,
    digitsValue_writeNat]

theorem writeNat_cons (n : Nat) : ∃ c cs, writeNat n = c :: cs ∧ isDigit c = true := by
  have hdigits := writeNat_digits n
  by_cases hn : n = 0
  · subst hn
    exact ⟨'0', [], rfl, by decide⟩
  · obtain ⟨c, cs, hcs, -⟩ := writeNat_head hn
    rw [hcs] at hdigits
    exact ⟨c, cs, hcs, hdigits c List.mem_cons_self⟩

/-- A digit starts neither a constant nor a sign. -/
theorem ne_of_isDigit {c : Char} (hc : isDigit c = true) :
    c ≠ '-' ∧ c ≠ 'I' ∧ c ≠ 'N' := by
  refine ⟨?_, ?_, ?_⟩
  · rintro rfl
    cases hc
  · rintro rfl
    cases hc
  · rintro rfl
    cases hc

theorem readNumber_digit {c : Char} (hc : isDigit c = true) (cs : List Char) :
    readNumber (c :: cs) = readUnsigned false (c :: cs) := by
  obtain ⟨hminus, hinfinity, hnan⟩ := ne_of_isDigit hc
  unfold readNumber
  split
  · rename_i heq
    exact absurd (List.cons.inj heq).1 hminus
  · rename_i heq
    exact absurd (List.cons.inj heq).1 hinfinity
  · rename_i heq
    exact absurd (List.cons.inj heq).1 hnan
  · rename_i heq
    exact absurd (List.cons.inj heq).1 hminus
  · rfl

theorem readNumber_minus {c : Char} (hc : isDigit c = true) (cs : List Char) :
    readNumber ('-' :: c :: cs) = readUnsigned true (c :: cs) := by
  unfold readNumber
  split
  · rename_i heq
    exact absurd (List.cons.inj (List.cons.inj heq).2).1 (ne_of_isDigit hc).2.1
  · rename_i heq
    cases (List.cons.inj heq).1
  · rename_i heq
    cases (List.cons.inj heq).1
  · rename_i heq
    rw [(List.cons.inj heq).2]
  · rename_i hne
    exact absurd rfl (hne (c :: cs))

theorem readNumber_writeInt (z : Int) {rest : List Char} (h : Delimited rest) :
    readNumber (writeInt z ++ rest) = some (.int z, rest) := by
  cases z with
  | ofNat n =>
      obtain ⟨c, cs, hcs, hc⟩ := writeNat_cons n
      have hread := readUnsigned_writeNat false n h
      rw [hcs, List.cons_append] at hread
      rw [writeInt, hcs, List.cons_append, readNumber_digit hc, hread]
      rfl
  | negSucc n =>
      obtain ⟨c, cs, hcs, hc⟩ := writeNat_cons (n + 1)
      have hread := readUnsigned_writeNat true (n + 1) h
      rw [hcs, List.cons_append] at hread
      rw [writeInt, hcs, List.cons_append, List.cons_append, readNumber_minus hc, hread]
      rfl

/-! ## Strings -/

theorem hexValue_hexDigit : ∀ d, d < 16 → hexValue (hexDigit d) = some d := by decide

/-- The escape of a control character. -/
theorem readUnicode_control {c : Char} (hc : c.toNat < 32) (rest : List Char) :
    readUnicode ('0' :: '0' :: hexDigit (c.toNat / 16) :: hexDigit (c.toNat % 16) :: rest) =
      some (c, rest) := by
  have h1 := hexValue_hexDigit (c.toNat / 16) (by omega)
  have h2 := hexValue_hexDigit (c.toNat % 16) (by omega)
  have h0 : hexValue '0' = some 0 := by decide
  have hvalue : ((0 * 16 + 0) * 16 + c.toNat / 16) * 16 + c.toNat % 16 = c.toNat := by omega
  have hhex : hex4 '0' '0' (hexDigit (c.toNat / 16)) (hexDigit (c.toNat % 16)) =
      some c.toNat := by
    rw [hex4, h0, h1, h2]
    simp only [Option.bind_eq_bind, Option.bind_some, Option.pure_def, hvalue]
  have hsurrogate : ¬(0xd800 ≤ c.toNat ∧ c.toNat ≤ 0xdbff) := by omega
  have hscalar : scalar c.toNat = some c := by
    have hvalid : c.toNat.isValidChar := .inl (by omega)
    have hchar := Char.ofNat_toNat c
    rw [Char.ofNat, dif_pos hvalid] at hchar
    rw [scalar, dif_pos hvalid, hchar]
  simp only [readUnicode, hhex, if_neg hsurrogate, hscalar, Option.map_some]

/-- Reading back one escaped character. -/
theorem readChar_escapeChar (c : Char) (rest : List Char) :
    readChar (escapeChar c ++ rest) = some (c, rest) := by
  unfold escapeChar
  split
  · subst_vars
    rfl
  split
  · subst_vars
    rfl
  split
  · subst_vars
    rfl
  split
  · subst_vars
    rfl
  split
  · subst_vars
    rfl
  split
  · rename_i h
    rw [show c = Char.ofNat 8 by rw [← h]; exact (Char.ofNat_toNat c).symm]
    rfl
  split
  · rename_i h
    rw [show c = Char.ofNat 12 by rw [← h]; exact (Char.ofNat_toNat c).symm]
    rfl
  split
  · rename_i h
    exact readUnicode_control h rest
  · rename_i hquote hslash _ _ _ _ _ hcontrol
    rw [List.singleton_append]
    unfold readChar
    split
    · rename_i heq
      exact absurd (List.cons.inj heq).1 hslash
    · rename_i heq
      cases heq
      rw [if_neg]
      rintro (h | h)
      · exact hcontrol h
      · exact hslash h
    · rename_i heq
      cases heq

/-- An escaped character does not start with the quote. -/
theorem escapeChar_cons (c : Char) : ∃ d ds, escapeChar c = d :: ds ∧ d ≠ '"' := by
  unfold escapeChar
  split
  · exact ⟨'\\', _, rfl, by decide⟩
  · rename_i hquote
    repeat' split
    all_goals first
      | exact ⟨'\\', _, rfl, by decide⟩
      | exact ⟨c, [], rfl, hquote⟩

theorem readChars_escape (cs : List Char) (rest : List Char) (n : Nat) (hn : cs.length < n) :
    readChars n (cs.flatMap escapeChar ++ '"' :: rest) = some (cs, rest) := by
  induction cs generalizing n with
  | nil =>
      cases n with
      | zero => exact absurd hn (Nat.not_lt_zero _)
      | succ n => rfl
  | cons c cs ih =>
      cases n with
      | zero => exact absurd hn (Nat.not_lt_zero _)
      | succ n =>
          have ih := ih n (Nat.lt_of_succ_lt_succ hn)
          have hread := readChar_escapeChar c (cs.flatMap escapeChar ++ '"' :: rest)
          obtain ⟨d, ds, hd, hquote⟩ := escapeChar_cons c
          rw [hd, List.cons_append] at hread
          rw [List.flatMap_cons, List.append_assoc, hd, List.cons_append, readChars,
            if_neg hquote, hread]
          simp only [ih, Option.map_some]

theorem length_le_flatMap_escapeChar (cs : List Char) :
    cs.length ≤ (cs.flatMap escapeChar).length := by
  induction cs with
  | nil => exact Nat.le_refl 0
  | cons c cs ih =>
      obtain ⟨d, ds, hd, -⟩ := escapeChar_cons c
      rw [List.flatMap_cons, hd]
      simp only [List.length_cons, List.length_append]
      omega

/-- A written string, after its opening quote. -/
theorem readString_write (s : String) (rest : List Char) :
    readString (s.toList.flatMap escapeChar ++ '"' :: rest) = some (s, rest) := by
  have hlength := length_le_flatMap_escapeChar s.toList
  rw [readString, readChars_escape]
  · simp
  · simp only [List.length_append, List.length_cons]
    omega

/-! ## Values -/

/-- A written value starts with neither whitespace nor a closing bracket. -/
theorem write_cons {j : Json} (h : integral j = true) :
    ∃ c t, write j = c :: t ∧ isWs c = false ∧ c ≠ ']' := by
  cases j with
  | null => exact ⟨_, _, rfl, by decide⟩
  | bool b =>
      cases b with
      | false => exact ⟨_, _, rfl, by decide⟩
      | true => exact ⟨_, _, rfl, by decide⟩
  | int z =>
      have hdigit : ∀ c, isDigit c = true → isWs c = false ∧ c ≠ ']' := by
        intro c hc
        refine ⟨?_, ?_⟩
        · rw [isWs, Bool.or_eq_false_iff, Bool.or_eq_false_iff, Bool.or_eq_false_iff]
          refine ⟨⟨⟨?_, ?_⟩, ?_⟩, ?_⟩ <;>
            (rw [decide_eq_false_iff_not]; rintro rfl; cases hc)
        · rintro rfl
          cases hc
      cases z with
      | ofNat n =>
          obtain ⟨c, cs, hcs, hc⟩ := writeNat_cons n
          exact ⟨c, cs, hcs, hdigit c hc⟩
      | negSucc n => exact ⟨_, _, rfl, by decide⟩
  | real lexeme => cases h
  | constant name => cases h
  | str s => exact ⟨_, _, rfl, by decide⟩
  | arr items =>
      cases items with
      | nil => exact ⟨_, _, rfl, by decide⟩
      | cons x xs => exact ⟨_, _, rfl, by decide⟩
  | obj members =>
      cases members with
      | nil => exact ⟨_, _, rfl, by decide⟩
      | cons m ms => exact ⟨_, _, rfl, by decide⟩

theorem skipWs_cons {c : Char} (hc : isWs c = false) (t : List Char) :
    skipWs (c :: t) = c :: t := by
  rw [skipWs, List.dropWhile_cons, hc]
  rfl

/-- Whitespace is not skipped in front of a written value. -/
theorem skipWs_write {j : Json} (h : integral j = true) (rest : List Char) :
    skipWs (write j ++ rest) = write j ++ rest := by
  obtain ⟨c, t, hct, hc, -⟩ := write_cons h
  rw [hct, List.cons_append, skipWs_cons hc]

/-- An integer is read as a number. -/
theorem readValue_writeInt (n : Nat) (z : Int) {rest : List Char} (h : Delimited rest) :
    readValue (n + 1) (writeInt z ++ rest) = some (.int z, rest) := by
  have hread := readNumber_writeInt z h
  have hhead : ∃ c t, writeInt z ++ rest = c :: t ∧ (c = '-' ∨ isDigit c = true) := by
    cases z with
    | ofNat n =>
        obtain ⟨c, cs, hcs, hc⟩ := writeNat_cons n
        exact ⟨c, cs ++ rest, by rw [writeInt, hcs, List.cons_append], .inr hc⟩
    | negSucc n => exact ⟨'-', _, rfl, .inl rfl⟩
  obtain ⟨c, t, hct, hc⟩ := hhead
  rw [hct] at hread ⊢
  have hne : ∀ d : Char, isDigit d = false → d ≠ '-' → c ≠ d := by
    rintro d hd hminus rfl
    rcases hc with rfl | hc
    · exact hminus rfl
    · rw [hd] at hc
      cases hc
  unfold readValue
  split
  · rename_i heq
    exact absurd (List.cons.inj heq).1 (hne _ (by decide) (by decide))
  · rename_i heq
    exact absurd (List.cons.inj heq).1 (hne _ (by decide) (by decide))
  · rename_i heq
    exact absurd (List.cons.inj heq).1 (hne _ (by decide) (by decide))
  · rename_i heq
    exact absurd (List.cons.inj heq).1 (hne _ (by decide) (by decide))
  · rename_i heq
    exact absurd (List.cons.inj heq).1 (hne _ (by decide) (by decide))
  · rename_i heq
    exact absurd (List.cons.inj heq).1 (hne _ (by decide) (by decide))
  · exact hread

/-- A non-empty array is read item by item. -/
theorem readValue_bracket (n : Nat) {c : Char} {t : List Char} (hc : isWs c = false)
    (hne : c ≠ ']') : readValue (n + 1) ('[' :: c :: t) =
      (readItems n (c :: t)).map fun p => (.arr p.1, p.2) := by
  simp only [readValue, skipWs_cons hc]
  split
  · rename_i heq
    exact absurd (List.cons.inj heq).1 hne
  · rfl

/-- The rest of a string literal after its opening quote. -/
theorem writeString_append (s : String) (t : List Char) :
    writeString s ++ t = '"' :: (s.toList.flatMap escapeChar ++ '"' :: t) := by
  rw [writeString, List.cons_append, List.append_assoc, List.singleton_append]

mutual

/-- Reading a written value gives it back and leaves what follows. -/
theorem readValue_write : ∀ (j : Json) (n : Nat) (rest : List Char), integral j = true →
    (write j).length < n → Delimited rest → readValue n (write j ++ rest) = some (j, rest)
  | .null, n + 1, rest, _, _, _ => rfl
  | .bool true, n + 1, rest, _, _, _ => rfl
  | .bool false, n + 1, rest, _, _, _ => rfl
  | .int z, n + 1, rest, _, _, hrest => readValue_writeInt n z hrest
  | .str s, n + 1, rest, _, _, _ => by
      rw [write, writeString_append, readValue, readString_write]
      rfl
  | .arr [], n + 1, rest, _, _, _ => rfl
  | .arr (x :: xs), n + 1, rest, h, hn, _ => by
      rw [integral, integralItems, Bool.and_eq_true] at h
      rw [write, List.length_cons] at hn
      have hitems := readItems_write x xs n rest h.1 h.2 (by omega)
      obtain ⟨c, t, hct, hc, hne⟩ := write_cons h.1
      rw [write, List.cons_append, List.append_assoc]
      rw [hct, List.cons_append] at hitems ⊢
      rw [readValue_bracket n hc hne, hitems]
      rfl
  | .obj [], n + 1, rest, _, _, _ => rfl
  | .obj ((k, v) :: ms), n + 1, rest, h, hn, _ => by
      rw [integral, integralMembers, Bool.and_eq_true] at h
      rw [write, List.length_cons] at hn
      have hmembers := readMembers_write k v ms n rest h.1 h.2 (by omega)
      rw [writeString_append] at hmembers
      rw [write, List.cons_append, List.append_assoc, List.cons_append, List.append_assoc,
        writeString_append]
      change (readMembers n ('"' :: _)).map _ = _
      rw [hmembers]
      rfl

theorem readItems_write : ∀ (x : Json) (xs : List Json) (n : Nat) (rest : List Char),
    integral x = true → integralItems xs = true → (write x ++ writeItems xs).length < n →
    readItems n (write x ++ (writeItems xs ++ rest)) = some (x :: xs, rest)
  | x, xs, n + 1, rest, hx, hxs, hn => by
      rw [List.length_append] at hn
      cases xs with
      | nil =>
          have hvalue := readValue_write x n (writeItems [] ++ rest) hx
            (by rw [writeItems, List.length_singleton] at hn; omega) (delimited_writeItems _ _)
          rw [readItems, hvalue]
          rfl
      | cons y ys =>
          rw [integralItems, Bool.and_eq_true] at hxs
          have hvalue := readValue_write x n (writeItems (y :: ys) ++ rest) hx
            (by rw [writeItems, List.length_cons] at hn; omega) (delimited_writeItems _ _)
          have hitems := readItems_write y ys n rest hxs.1 hxs.2
            (by rw [writeItems, List.length_cons] at hn; omega)
          rw [readItems, hvalue]
          change (readItems n (skipWs ((write y ++ writeItems ys) ++ rest))).map _ = _
          rw [List.append_assoc, skipWs_write hxs.1, hitems]
          rfl

theorem readMembers_write : ∀ (k : String) (v : Json) (ms : List (String × Json)) (n : Nat)
    (rest : List Char), integral v = true → integralMembers ms = true →
    (writeString k ++ ':' :: (write v ++ writeMembers ms)).length < n →
    readMembers n (writeString k ++ ':' :: (write v ++ (writeMembers ms ++ rest))) =
      some ((k, v) :: ms, rest)
  | k, v, ms, n + 1, rest, hv, hms, hn => by
      rw [List.length_append, List.length_cons, List.length_append] at hn
      rw [writeString_append, readMembers, readString_write]
      cases ms with
      | nil =>
          have hvalue := readValue_write v n (writeMembers [] ++ rest) hv
            (by rw [writeMembers, List.length_singleton] at hn; omega)
            (delimited_writeMembers _ _)
          simp only [skipWs_cons (show isWs ':' = false by decide), skipWs_write hv, hvalue]
          rfl
      | cons m ms =>
          obtain ⟨k', v'⟩ := m
          rw [integralMembers, Bool.and_eq_true] at hms
          have hvalue := readValue_write v n (writeMembers ((k', v') :: ms) ++ rest) hv
            (by rw [writeMembers, List.length_cons] at hn; omega) (delimited_writeMembers _ _)
          have hmembers := readMembers_write k' v' ms n rest hms.1 hms.2
            (by rw [writeMembers, List.length_cons] at hn; omega)
          simp only [skipWs_cons (show isWs ':' = false by decide), skipWs_write hv, hvalue]
          rw [writeString_append] at hmembers
          simp only [writeMembers, List.cons_append, List.append_assoc, writeString_append,
            skipWs_cons (show isWs ',' = false by decide),
            skipWs_cons (show isWs '"' = false by decide), hmembers, Option.map_some]

end

/-- **Round trip.** Reading the text of a value without real numbers gives the value. -/
theorem loads_dumps {j : Json} (h : integral j = true) : loads (dumps j) = some j := by
  have hread := readValue_write j ((write j).length + 1) [] h (Nat.lt_succ_self _) (.inl rfl)
  have hws := skipWs_write h []
  rw [List.append_nil] at hread hws
  rw [loads, dumps, String.toList_ofList, hws, hread]
  rfl

/-! ## Ordered keys -/

theorem integralMembers_eq_all (ms : List (String × Json)) :
    integralMembers ms = ms.all fun p => integral p.2 := by
  induction ms with
  | nil => rfl
  | cons m ms ih => rw [integralMembers, ih, List.all_cons]

theorem strictMembers_eq_all (ms : List (String × Json)) :
    strictMembers ms = ms.all fun p => strict p.2 := by
  induction ms with
  | nil => rfl
  | cons m ms ih => rw [strictMembers, ih, List.all_cons]

theorem sortMembers_perm (ms : List (String × Json)) : (sortMembers ms).Perm ms :=
  List.perm_insertionSort _ ms

theorem sortValues_keys (ms : List (String × Json)) :
    (sortValues ms).map Prod.fst = ms.map Prod.fst := by
  induction ms with
  | nil => rfl
  | cons m ms ih => rw [sortValues, List.map_cons, List.map_cons, ih]

theorem all_perm {α : Type} {p : α → Bool} {l l' : List α} (h : l.Perm l') :
    l.all p = l'.all p := by
  rw [Bool.eq_iff_iff, List.all_eq_true, List.all_eq_true]
  exact ⟨fun hl x hx => hl x (h.mem_iff.2 hx), fun hl x hx => hl x (h.mem_iff.1 hx)⟩

theorem distinctKeys_sortMembers (ms : List (String × Json)) :
    distinctKeys (sortMembers ms) = distinctKeys ms := by
  have hperm := ((sortMembers_perm ms).map Prod.fst).nodup_iff
  rw [distinctKeys, distinctKeys, Bool.eq_iff_iff, decide_eq_true_eq, decide_eq_true_eq, hperm]

mutual

theorem integral_sortKeys : ∀ j : Json, integral (sortKeys j) = integral j
  | .null => rfl
  | .bool _ => rfl
  | .int _ => rfl
  | .real _ => rfl
  | .constant _ => rfl
  | .str _ => rfl
  | .arr items => integralItems_sortItems items
  | .obj members => by
      rw [sortKeys, integral, integralMembers_eq_all, all_perm (sortMembers_perm _),
        ← integralMembers_eq_all]
      exact integralMembers_sortValues members

theorem integralItems_sortItems : ∀ items : List Json,
    integralItems (sortItems items) = integralItems items
  | [] => rfl
  | x :: xs => by
      rw [sortItems, integralItems, integralItems, integral_sortKeys x,
        integralItems_sortItems xs]

theorem integralMembers_sortValues : ∀ ms : List (String × Json),
    integralMembers (sortValues ms) = integralMembers ms
  | [] => rfl
  | (_, v) :: ms => by
      rw [sortValues, integralMembers, integralMembers, integral_sortKeys v,
        integralMembers_sortValues ms]

end

mutual

theorem strict_sortKeys : ∀ j : Json, strict (sortKeys j) = strict j
  | .null => rfl
  | .bool _ => rfl
  | .int _ => rfl
  | .real _ => rfl
  | .constant _ => rfl
  | .str _ => rfl
  | .arr items => strictItems_sortItems items
  | .obj members => by
      rw [sortKeys, strict, strict, strictMembers_eq_all, all_perm (sortMembers_perm _),
        ← strictMembers_eq_all, strictMembers_sortValues members, distinctKeys_sortMembers,
        distinctKeys, distinctKeys, sortValues_keys]

theorem strictItems_sortItems : ∀ items : List Json,
    strictItems (sortItems items) = strictItems items
  | [] => rfl
  | x :: xs => by
      rw [sortItems, strictItems, strictItems, strict_sortKeys x, strictItems_sortItems xs]

theorem strictMembers_sortValues : ∀ ms : List (String × Json),
    strictMembers (sortValues ms) = strictMembers ms
  | [] => rfl
  | (_, v) :: ms => by
      rw [sortValues, strictMembers, strictMembers, strict_sortKeys v,
        strictMembers_sortValues ms]

end

/-! ## Dictionaries without repeated keys -/

section Dictionaries

variable {α : Type}

theorem dictSet_of_notMem {key : String} {value : α} {d : List (String × α)}
    (h : key ∉ d.map Prod.fst) : dictSet key value d = d ++ [(key, value)] := by
  induction d with
  | nil => rfl
  | cons p d ih =>
      obtain ⟨k, v⟩ := p
      rw [List.map_cons, List.mem_cons, not_or] at h
      rw [dictSet, if_neg (Ne.symm h.1), ih h.2, List.cons_append]

/-- Building a dictionary from pairs with distinct keys changes nothing. -/
theorem dictOf_of_nodup {pairs : List (String × α)} (h : (pairs.map Prod.fst).Nodup) :
    dictOf pairs = pairs := by
  have hfold : ∀ (pairs d : List (String × α)), ((d ++ pairs).map Prod.fst).Nodup →
      pairs.foldl (fun d p => dictSet p.1 p.2 d) d = d ++ pairs := by
    intro pairs
    induction pairs with
    | nil =>
        intro d _
        rw [List.foldl_nil, List.append_nil]
    | cons p pairs ih =>
        intro d hd
        have hnotMem : p.1 ∉ d.map Prod.fst := by
          rw [List.map_append, List.nodup_append] at hd
          intro hmem
          exact hd.2.2 _ hmem _ List.mem_cons_self rfl
        rw [List.foldl_cons, dictSet_of_notMem hnotMem, ih, List.append_assoc,
          List.singleton_append]
        rwa [List.append_assoc, List.singleton_append]
  exact hfold pairs [] h

/-- In a dictionary, a key has the value it is listed with. -/
theorem dictGet_eq_some {d : List (String × α)} (h : (d.map Prod.fst).Nodup) {key : String}
    {value : α} : dictGet key d = some value ↔ (key, value) ∈ d := by
  induction d with
  | nil =>
      refine ⟨fun hget => ?_, fun hmem => ?_⟩
      · cases hget
      · cases hmem
  | cons p d ih =>
      obtain ⟨k, v⟩ := p
      rw [List.map_cons, List.nodup_cons] at h
      have ih := ih h.2
      rw [dictGet, List.find?_cons]
      by_cases hk : k = key
      · subst hk
        simp only [decide_true, Option.map_some, Option.some.injEq, List.mem_cons, Prod.mk.injEq,
          true_and]
        refine ⟨fun hv => .inl hv.symm, ?_⟩
        rintro (hv | hmem)
        · exact hv.symm
        · exact absurd (List.mem_map.2 ⟨_, hmem, rfl⟩) h.1
      · have hne : (key, value) ≠ (k, v) := fun heq => hk (congrArg Prod.fst heq).symm
        simp only [hk, decide_false, List.mem_cons, hne, false_or]
        exact ih

theorem dictGet_perm {d d' : List (String × α)} (h : (d.map Prod.fst).Nodup) (hperm : d.Perm d')
    (key : String) : dictGet key d = dictGet key d' := by
  have h' := (hperm.map Prod.fst).nodup_iff.1 h
  refine Option.ext fun value => ?_
  rw [dictGet_eq_some h, dictGet_eq_some h', hperm.mem_iff]

end Dictionaries

/-- Looking up a key of an object whose keys have been ordered. -/
theorem dictGet_sortMembers {ms : List (String × Json)} (h : distinctKeys ms = true)
    (key : String) :
    dictGet key (sortMembers (sortValues ms)) = (dictGet key ms).map sortKeys := by
  have hkeys : ((sortValues ms).map Prod.fst).Nodup := by
    rw [sortValues_keys]
    exact of_decide_eq_true h
  rw [dictGet_perm (((sortMembers_perm _).map Prod.fst).nodup_iff.2 hkeys) (sortMembers_perm _)]
  clear hkeys h
  induction ms with
  | nil => rfl
  | cons m ms ih =>
      obtain ⟨k, v⟩ := m
      rw [sortValues, dictGet, dictGet, List.find?_cons, List.find?_cons]
      by_cases hk : k = key
      · simp [hk]
      · simp only [hk, decide_false]
        exact ih

mutual

/-- Loading a value without repeated keys into dictionaries keeps it as it is. -/
theorem plain_of_strict : ∀ j : Json, strict j = true → plain j = j
  | .null, _ => rfl
  | .bool _, _ => rfl
  | .int _, _ => rfl
  | .real _, _ => rfl
  | .constant _, _ => rfl
  | .str _, _ => rfl
  | .arr items, h => by
      rw [plain, plainItems_of_strict items h]
  | .obj members, h => by
      rw [strict, Bool.and_eq_true] at h
      rw [plain, plainMembers_of_strict members h.2, dictOf_of_nodup (of_decide_eq_true h.1)]

theorem plainItems_of_strict : ∀ items : List Json, strictItems items = true →
    plainItems items = items
  | [], _ => rfl
  | x :: xs, h => by
      rw [strictItems, Bool.and_eq_true] at h
      rw [plainItems, plain_of_strict x h.1, plainItems_of_strict xs h.2]

theorem plainMembers_of_strict : ∀ ms : List (String × Json), strictMembers ms = true →
    plainMembers ms = ms
  | [], _ => rfl
  | (_, v) :: ms, h => by
      rw [strictMembers, Bool.and_eq_true] at h
      rw [plainMembers, plain_of_strict v h.1, plainMembers_of_strict ms h.2]

end

/-! ## Canonical text -/

/-- The strict loader reads a canonical text as the value with ordered keys. -/
theorem strictLoads_canonical {j : Json} (h : integral j = true) (hstrict : strict j = true) :
    strictLoads (canonical j) = some (sortKeys j) := by
  rw [strictLoads, canonical, loads_dumps ((integral_sortKeys j).trans h)]
  simp only [strict_sortKeys, hstrict, if_true]

/-- The lenient loader reads it as the same value. -/
theorem plainLoads_canonical {j : Json} (h : integral j = true) (hstrict : strict j = true) :
    plainLoads (canonical j) = some (sortKeys j) := by
  rw [plainLoads, canonical, loads_dumps ((integral_sortKeys j).trans h), Option.map_some,
    plain_of_strict _ ((strict_sortKeys j).trans hstrict)]

/-- Equal canonical texts come from values that differ only in the order of keys. -/
theorem sortKeys_eq_of_canonical_eq {j j' : Json} (h : integral j = true)
    (h' : integral j' = true) (heq : canonical j = canonical j') : sortKeys j = sortKeys j' := by
  have hj := loads_dumps ((integral_sortKeys j).trans h)
  have hj' := loads_dumps ((integral_sortKeys j').trans h')
  rw [canonical, canonical] at heq
  rw [heq, hj'] at hj
  exact (Option.some.inj hj).symm

end JsonText
