import Polymorph.Text.JsonNumbers

/-!
# Laid out JSON text

The writer of `json.dumps` with its options: how a character of a string is escaped, what stands
at the start of a line of each nesting level, and what follows a colon. A `Layout` carries the
facts that let the reader skip what it adds, so `loads_text` is the round trip of every layout at
once. `compact` is the layout of `write`; `asciiCompact` and `asciiIndented` are the layouts with
`ensure_ascii=True`.
-/

set_option autoImplicit false

namespace JsonText

/-! ## Layouts -/

/-- The options of a writer. -/
structure Layout where
  /-- One character inside a string literal. -/
  escape : Char → List Char
  /-- The start of a line at a nesting level. -/
  newline : Nat → List Char
  /-- What follows a colon. -/
  afterColon : List Char
  escape_read : ∀ c rest, readChar (escape c ++ rest) = some (c, rest)
  escape_cons : ∀ c, ∃ d ds, escape c = d :: ds ∧ d ≠ '"'
  newline_blank : ∀ level, newline level = [] ∨
    ∃ blanks, newline level = '\n' :: blanks ∧ blanks.all isWs = true
  afterColon_blank : afterColon.all isWs = true

namespace Layout

variable (L : Layout)

/-- A string literal. -/
def string (s : String) : List Char :=
  '"' :: (s.toList.flatMap L.escape ++ ['"'])

mutual

/-- A value at a nesting level. -/
def value (level : Nat) : Json → List Char
  | .null => ['n', 'u', 'l', 'l']
  | .bool true => ['t', 'r', 'u', 'e']
  | .bool false => ['f', 'a', 'l', 's', 'e']
  | .int z => writeInt z
  | .real lexeme => lexeme
  | .constant name => name
  | .str s => L.string s
  | .arr [] => ['[', ']']
  | .arr (x :: xs) => '[' :: (L.newline (level + 1) ++ (value (level + 1) x ++ items level xs))
  | .obj [] => ['{', '}']
  | .obj ((k, v) :: ms) => '{' :: (L.newline (level + 1) ++ (L.string k ++
      ':' :: (L.afterColon ++ (value (level + 1) v ++ members level ms))))

/-- The items after the first one, with the closing bracket. -/
def items (level : Nat) : List Json → List Char
  | [] => L.newline level ++ [']']
  | x :: xs => ',' :: (L.newline (level + 1) ++ (value (level + 1) x ++ items level xs))

/-- The members after the first one, with the closing brace. -/
def members (level : Nat) : List (String × Json) → List Char
  | [] => L.newline level ++ ['}']
  | (k, v) :: ms => ',' :: (L.newline (level + 1) ++ (L.string k ++
      ':' :: (L.afterColon ++ (value (level + 1) v ++ members level ms))))

end

/-- The text of a value. -/
def text (j : Json) : String := String.ofList (L.value 0 j)

/-! ## Reading a layout back -/

theorem skipWs_blank {blanks : List Char} (h : blanks.all isWs = true) (t : List Char) :
    skipWs (blanks ++ t) = skipWs t := by
  induction blanks with
  | nil => rfl
  | cons c cs ih =>
      rw [List.all_cons, Bool.and_eq_true] at h
      rw [List.cons_append, skipWs, List.dropWhile_cons, h.1]
      exact ih h.2

/-- The start of a line is skipped. -/
theorem skipWs_newline (level : Nat) (t : List Char) :
    skipWs (L.newline level ++ t) = skipWs t := by
  rcases L.newline_blank level with h | ⟨blanks, h, hblank⟩
  · rw [h, List.nil_append]
  · rw [h]
    exact skipWs_blank (by rw [List.all_cons, hblank]; rfl) t

/-- A closing bracket follows a value, possibly on its own line. -/
theorem delimited_newline (level : Nat) {c : Char} (hc : c = ']' ∨ c = '}') (rest : List Char) :
    Delimited (L.newline level ++ c :: rest) := by
  rcases L.newline_blank level with h | ⟨blanks, h, -⟩
  · rw [h, List.nil_append]
    refine .inr ⟨c, rest, rfl, .inr ?_⟩
    rcases hc with hc | hc
    · exact .inl hc
    · exact .inr (.inl hc)
  · rw [h, List.cons_append]
    exact .inr ⟨'\n', _, rfl, .inr (.inr (.inr rfl))⟩

theorem delimited_items (level : Nat) (xs : List Json) (rest : List Char) :
    Delimited (L.items level xs ++ rest) := by
  cases xs with
  | nil =>
      rw [items, List.append_assoc, List.singleton_append]
      exact L.delimited_newline level (.inl rfl) rest
  | cons x xs => exact .inr ⟨',', _, rfl, .inl rfl⟩

theorem delimited_members (level : Nat) (ms : List (String × Json)) (rest : List Char) :
    Delimited (L.members level ms ++ rest) := by
  cases ms with
  | nil =>
      rw [members, List.append_assoc, List.singleton_append]
      exact L.delimited_newline level (.inr rfl) rest
  | cons m ms =>
      obtain ⟨k, v⟩ := m
      exact .inr ⟨',', _, rfl, .inl rfl⟩

theorem readChars_escape (cs : List Char) (rest : List Char) (n : Nat) (hn : cs.length < n) :
    readChars n (cs.flatMap L.escape ++ '"' :: rest) = some (cs, rest) := by
  induction cs generalizing n with
  | nil =>
      cases n with
      | zero => exact absurd hn (Nat.not_lt_zero _)
      | succ n => rfl
  | cons c cs ih =>
      cases n with
      | zero => exact absurd hn (Nat.not_lt_zero _)
      | succ n =>
          have ih := ih n (Nat.lt_of_succ_lt_succ hn)
          have hread := L.escape_read c (cs.flatMap L.escape ++ '"' :: rest)
          obtain ⟨d, ds, hd, hquote⟩ := L.escape_cons c
          rw [hd, List.cons_append] at hread
          rw [List.flatMap_cons, List.append_assoc, hd, List.cons_append, readChars,
            if_neg hquote, hread]
          simp only [ih, Option.map_some]

theorem length_le_flatMap_escape (cs : List Char) :
    cs.length ≤ (cs.flatMap L.escape).length := by
  induction cs with
  | nil => exact Nat.le_refl 0
  | cons c cs ih =>
      obtain ⟨d, ds, hd, -⟩ := L.escape_cons c
      rw [List.flatMap_cons, hd]
      simp only [List.length_cons, List.length_append]
      omega

/-- A written string, after its opening quote. -/
theorem readString_string (s : String) (rest : List Char) :
    readString (s.toList.flatMap L.escape ++ '"' :: rest) = some (s, rest) := by
  have hlength := L.length_le_flatMap_escape s.toList
  rw [readString, L.readChars_escape]
  · simp
  · simp only [List.length_append, List.length_cons]
    omega

/-- The rest of a string literal after its opening quote. -/
theorem string_append (s : String) (t : List Char) :
    L.string s ++ t = '"' :: (s.toList.flatMap L.escape ++ '"' :: t) := by
  rw [string, List.cons_append, List.append_assoc, List.singleton_append]

theorem isWs_of_isDigit {c : Char} (hc : isDigit c = true) : isWs c = false ∧ c ≠ ']' := by
  refine ⟨?_, ?_⟩
  · rw [isWs, Bool.or_eq_false_iff, Bool.or_eq_false_iff, Bool.or_eq_false_iff]
    refine ⟨⟨⟨?_, ?_⟩, ?_⟩, ?_⟩ <;>
      (rw [decide_eq_false_iff_not]; rintro rfl; cases hc)
  · rintro rfl
    cases hc

/-- A written value starts with neither whitespace nor a closing bracket. -/
theorem value_cons (level : Nat) {j : Json} (h : readable j = true) :
    ∃ c t, L.value level j = c :: t ∧ isWs c = false ∧ c ≠ ']' := by
  cases j with
  | null => exact ⟨_, _, rfl, by decide⟩
  | bool b =>
      cases b with
      | false => exact ⟨_, _, rfl, by decide⟩
      | true => exact ⟨_, _, rfl, by decide⟩
  | int z => exact write_cons (j := .int z) rfl
  | real lexeme =>
      obtain ⟨c, t, hct, hc⟩ := isReal_cons h
      refine ⟨c, t, hct, ?_⟩
      rcases hc with rfl | hc
      · decide
      · exact isWs_of_isDigit hc
  | constant name =>
      rw [readable, isConstant, Bool.or_eq_true, Bool.or_eq_true, decide_eq_true_iff,
        decide_eq_true_iff, decide_eq_true_iff] at h
      rcases h with (rfl | rfl) | rfl
      · exact ⟨_, _, rfl, by decide⟩
      · exact ⟨_, _, rfl, by decide⟩
      · exact ⟨_, _, rfl, by decide⟩
  | str s => exact ⟨_, _, rfl, by decide⟩
  | arr items =>
      cases items with
      | nil => exact ⟨_, _, rfl, by decide⟩
      | cons x xs => exact ⟨_, _, rfl, by decide⟩
  | obj members =>
      cases members with
      | nil => exact ⟨_, _, rfl, by decide⟩
      | cons m ms => exact ⟨_, _, rfl, by decide⟩

theorem skipWs_value (level : Nat) {j : Json} (h : readable j = true) (rest : List Char) :
    skipWs (L.value level j ++ rest) = L.value level j ++ rest := by
  obtain ⟨c, t, hct, hc, -⟩ := L.value_cons level h
  rw [hct, List.cons_append, skipWs_cons hc]

mutual

/-- Reading a written value gives it back and leaves what follows. -/
theorem readValue_value : ∀ (j : Json) (level n : Nat) (rest : List Char), readable j = true →
    (L.value level j).length < n → Delimited rest →
    readValue n (L.value level j ++ rest) = some (j, rest)
  | .null, _, n + 1, rest, _, _, _ => rfl
  | .bool true, _, n + 1, rest, _, _, _ => rfl
  | .bool false, _, n + 1, rest, _, _, _ => rfl
  | .int z, _, n + 1, rest, _, _, hrest => readValue_writeInt n z hrest
  | .real _, _, n + 1, rest, h, _, hrest => readValue_real n h hrest
  | .constant _, _, n + 1, rest, h, _, _ => readValue_constant n h rest
  | .str s, _, n + 1, rest, _, _, _ => by
      rw [value, string_append, readValue, readString_string]
      rfl
  | .arr [], _, n + 1, rest, _, _, _ => rfl
  | .arr (x :: xs), level, n + 1, rest, h, hn, _ => by
      rw [readable, readableItems, Bool.and_eq_true] at h
      rw [value, List.length_cons, List.length_append] at hn
      have hitems := readItems_items x xs level n rest h.1 h.2 (by omega)
      obtain ⟨c, t, hct, hc, hne⟩ := L.value_cons (level + 1) h.1
      have hskip := L.skipWs_value (level + 1) h.1 (L.items level xs ++ rest)
      rw [value, List.cons_append, List.append_assoc, List.append_assoc]
      simp only [readValue, skipWs_newline, hskip]
      rw [hct, List.cons_append] at hitems ⊢
      split
      · rename_i heq
        exact absurd (List.cons.inj heq).1 hne
      · rw [hitems]
        rfl
  | .obj [], _, n + 1, rest, _, _, _ => rfl
  | .obj ((k, v) :: ms), level, n + 1, rest, h, hn, _ => by
      rw [readable, readableMembers, Bool.and_eq_true] at h
      rw [value, List.length_cons, List.length_append] at hn
      have hmembers := readMembers_members k v ms level n rest h.1 h.2 (by omega)
      rw [string_append] at hmembers
      rw [value, List.cons_append, List.append_assoc, List.append_assoc, List.cons_append,
        List.append_assoc, List.append_assoc, string_append]
      simp only [readValue, skipWs_newline, skipWs_cons (show isWs '"' = false by decide)]
      change (readMembers n ('"' :: _)).map _ = _
      rw [hmembers]
      rfl

theorem readItems_items : ∀ (x : Json) (xs : List Json) (level n : Nat) (rest : List Char),
    readable x = true → readableItems xs = true →
    (L.value (level + 1) x ++ L.items level xs).length < n →
    readItems n (L.value (level + 1) x ++ (L.items level xs ++ rest)) = some (x :: xs, rest)
  | x, xs, level, n + 1, rest, hx, hxs, hn => by
      rw [List.length_append] at hn
      cases xs with
      | nil =>
          have hvalue := readValue_value x (level + 1) n (L.items level [] ++ rest) hx
            (by rw [items, List.length_append, List.length_singleton] at hn; omega)
            (L.delimited_items level _ _)
          rw [readItems, hvalue]
          simp only [items, List.append_assoc, skipWs_newline, List.singleton_append,
            skipWs_cons (show isWs ']' = false by decide)]
      | cons y ys =>
          rw [readableItems, Bool.and_eq_true] at hxs
          rw [items, List.length_cons, List.length_append] at hn
          have hvalue := readValue_value x (level + 1) n (L.items level (y :: ys) ++ rest) hx
            (by omega) (L.delimited_items level _ _)
          have hitems := readItems_items y ys level n rest hxs.1 hxs.2 (by omega)
          rw [readItems, hvalue]
          simp only [items, List.cons_append, List.append_assoc,
            skipWs_cons (show isWs ',' = false by decide), skipWs_newline,
            L.skipWs_value (level + 1) hxs.1, hitems, Option.map_some]

theorem readMembers_members : ∀ (k : String) (v : Json) (ms : List (String × Json))
    (level n : Nat) (rest : List Char), readable v = true → readableMembers ms = true →
    (L.string k ++ ':' :: (L.afterColon ++
      (L.value (level + 1) v ++ L.members level ms))).length < n →
    readMembers n (L.string k ++ ':' :: (L.afterColon ++
      (L.value (level + 1) v ++ (L.members level ms ++ rest)))) = some ((k, v) :: ms, rest)
  | k, v, ms, level, n + 1, rest, hv, hms, hn => by
      rw [List.length_append, List.length_cons, List.length_append, List.length_append] at hn
      rw [string_append, readMembers, readString_string]
      cases ms with
      | nil =>
          have hvalue := readValue_value v (level + 1) n (L.members level [] ++ rest) hv
            (by rw [members, List.length_append, List.length_singleton] at hn; omega)
            (L.delimited_members level _ _)
          simp only [skipWs_cons (show isWs ':' = false by decide),
            skipWs_blank L.afterColon_blank, L.skipWs_value (level + 1) hv, hvalue]
          simp only [members, List.append_assoc, skipWs_newline, List.singleton_append,
            skipWs_cons (show isWs '}' = false by decide)]
      | cons m ms =>
          obtain ⟨k', v'⟩ := m
          rw [readableMembers, Bool.and_eq_true] at hms
          rw [members, List.length_cons, List.length_append] at hn
          have hvalue := readValue_value v (level + 1) n (L.members level ((k', v') :: ms) ++ rest)
            hv (by omega) (L.delimited_members level _ _)
          have hmembers := readMembers_members k' v' ms level n rest hms.1 hms.2 (by omega)
          simp only [skipWs_cons (show isWs ':' = false by decide),
            skipWs_blank L.afterColon_blank, L.skipWs_value (level + 1) hv, hvalue]
          rw [string_append] at hmembers
          simp only [members, List.cons_append, List.append_assoc, string_append,
            skipWs_cons (show isWs ',' = false by decide), skipWs_newline,
            skipWs_cons (show isWs '"' = false by decide), hmembers, Option.map_some]

end

/-- **Round trip.** Reading a laid out value, with blanks after it, gives the value. -/
theorem loads_text {j : Json} (h : readable j = true) {blanks : List Char}
    (hblanks : blanks = [] ∨ ∃ t, blanks = '\n' :: t ∧ t.all isWs = true) :
    loads (L.text j ++ String.ofList blanks) = some j := by
  have hdelimited : Delimited blanks := by
    rcases hblanks with rfl | ⟨t, rfl, -⟩
    · exact .inl rfl
    · exact .inr ⟨'\n', t, rfl, .inr (.inr (.inr rfl))⟩
  have hskip : skipWs blanks = [] := by
    rcases hblanks with rfl | ⟨t, rfl, ht⟩
    · rfl
    · have hall : ('\n' :: t).all isWs = true := by rw [List.all_cons, ht]; rfl
      have hblank := skipWs_blank hall []
      rwa [List.append_nil] at hblank
  have hread := L.readValue_value j 0 ((L.value 0 j ++ blanks).length + 1) blanks h
    (by rw [List.length_append]; omega) hdelimited
  have hws := L.skipWs_value 0 h blanks
  rw [loads, text, String.toList_append, String.toList_ofList, String.toList_ofList, hws, hread]
  simp only [hskip, if_true]

/-! ## Lengths -/

theorem length_le_string (s : String) : s.length ≤ (L.string s).length := by
  have hlength := L.length_le_flatMap_escape s.toList
  rw [String.length_toList] at hlength
  rw [string, List.length_cons, List.length_append]
  omega

/-- The text of an array is as long as its items together. -/
theorem mul_length_le_items {n level : Nat} {xs : List Json}
    (h : ∀ x ∈ xs, n ≤ (L.value (level + 1) x).length) :
    n * xs.length ≤ (L.items level xs).length := by
  induction xs with
  | nil => exact Nat.zero_le _
  | cons x xs ih =>
      have hx := h x List.mem_cons_self
      have ih := ih fun y hy => h y (List.mem_cons_of_mem _ hy)
      rw [items, List.length_cons, List.length_cons, List.length_append, List.length_append,
        Nat.mul_succ]
      omega

theorem mul_length_le_arr {n level : Nat} {xs : List Json}
    (h : ∀ x ∈ xs, n ≤ (L.value (level + 1) x).length) :
    n * xs.length ≤ (L.value level (.arr xs)).length := by
  cases xs with
  | nil => exact Nat.zero_le _
  | cons x xs =>
      have hitems := L.mul_length_le_items h
      rw [items, List.length_cons] at hitems
      rw [value, List.length_cons]
      exact hitems

theorem length_le_members {level : Nat} {ms : List (String × Json)} {k : String} {v : Json}
    (h : (k, v) ∈ ms) : (L.value (level + 1) v).length ≤ (L.members level ms).length := by
  induction ms with
  | nil => cases h
  | cons m ms ih =>
      obtain ⟨k', v'⟩ := m
      rw [members, List.length_cons, List.length_append, List.length_append, List.length_cons,
        List.length_append, List.length_append]
      rcases List.mem_cons.1 h with h | h
      · cases h
        omega
      · have ih := ih h
        omega

/-- The text of an object is as long as that of a member. -/
theorem length_le_obj {level : Nat} {ms : List (String × Json)} {k : String} {v : Json}
    (h : (k, v) ∈ ms) : (L.value (level + 1) v).length ≤ (L.value level (.obj ms)).length := by
  cases ms with
  | nil => cases h
  | cons m ms =>
      obtain ⟨k', v'⟩ := m
      have hmembers := @L.length_le_members level _ _ _ h
      rw [members, List.length_cons] at hmembers
      rw [value, List.length_cons]
      exact hmembers

end Layout

/-! ## Escapes with ASCII output -/

/-- `\uXXXX` of a number below `0x10000`. -/
def unicodeEscape (n : Nat) : List Char :=
  ['\\', 'u', hexDigit (n / 4096 % 16), hexDigit (n / 256 % 16), hexDigit (n / 16 % 16),
    hexDigit (n % 16)]

/-- One character inside a string literal with `ensure_ascii=True`. -/
def escapeAscii (c : Char) : List Char :=
  if c = '"' then ['\\', '"']
  else if c = '\\' then ['\\', '\\']
  else if c = '\n' then ['\\', 'n']
  else if c = '\r' then ['\\', 'r']
  else if c = '\t' then ['\\', 't']
  else if c.toNat = 8 then ['\\', 'b']
  else if c.toNat = 12 then ['\\', 'f']
  else if 32 ≤ c.toNat ∧ c.toNat < 127 then [c]
  else if c.toNat < 0x10000 then unicodeEscape c.toNat
  else unicodeEscape (0xd800 + (c.toNat - 0x10000) / 0x400) ++
    unicodeEscape (0xdc00 + (c.toNat - 0x10000) % 0x400)

theorem hex4_unicodeEscape {n : Nat} (h : n < 0x10000) :
    hex4 (hexDigit (n / 4096 % 16)) (hexDigit (n / 256 % 16)) (hexDigit (n / 16 % 16))
      (hexDigit (n % 16)) = some n := by
  have h1 := hexValue_hexDigit (n / 4096 % 16) (Nat.mod_lt _ (by decide))
  have h2 := hexValue_hexDigit (n / 256 % 16) (Nat.mod_lt _ (by decide))
  have h3 := hexValue_hexDigit (n / 16 % 16) (Nat.mod_lt _ (by decide))
  have h4 := hexValue_hexDigit (n % 16) (Nat.mod_lt _ (by decide))
  have hvalue : ((n / 4096 % 16 * 16 + n / 256 % 16) * 16 + n / 16 % 16) * 16 + n % 16 = n := by
    omega
  rw [hex4, h1, h2, h3, h4]
  simp only [Option.bind_eq_bind, Option.bind_some, Option.pure_def, hvalue]

theorem scalar_toNat (c : Char) : scalar c.toNat = some c := by
  have hvalid : c.toNat.isValidChar := c.valid
  have hchar := Char.ofNat_toNat c
  rw [Char.ofNat, dif_pos hvalid] at hchar
  rw [scalar, dif_pos hvalid, hchar]

theorem unicodeEscape_append (n : Nat) (rest : List Char) :
    unicodeEscape n ++ rest = '\\' :: 'u' :: hexDigit (n / 4096 % 16) ::
      hexDigit (n / 256 % 16) :: hexDigit (n / 16 % 16) :: hexDigit (n % 16) :: rest := rfl

theorem readChar_unicodeEscape (n : Nat) (rest : List Char) :
    readChar (unicodeEscape n ++ rest) = readUnicode (hexDigit (n / 4096 % 16) ::
      hexDigit (n / 256 % 16) :: hexDigit (n / 16 % 16) :: hexDigit (n % 16) :: rest) := rfl

/-- A character of the basic plane is no surrogate. -/
theorem readChar_basic {c : Char} (hc : c.toNat < 0x10000) (rest : List Char) :
    readChar (unicodeEscape c.toNat ++ rest) = some (c, rest) := by
  have hhex := hex4_unicodeEscape hc
  have hscalar := scalar_toNat c
  have hsurrogate : ¬(0xd800 ≤ c.toNat ∧ c.toNat ≤ 0xdbff) := by
    have hvalid : c.toNat.isValidChar := c.valid
    rcases hvalid with h | h <;> omega
  rw [readChar_unicodeEscape]
  generalize c.toNat = n at hhex hscalar hsurrogate
  simp only [readUnicode, hhex, if_neg hsurrogate, hscalar, Option.map_some]

/-- Two surrogates join to one character. -/
theorem readChar_surrogates {high low : Nat} {c : Char} (hhigh : 0xd800 ≤ high ∧ high ≤ 0xdbff)
    (hlow : 0xdc00 ≤ low ∧ low ≤ 0xdfff)
    (hjoin : 0x10000 + (high - 0xd800) * 0x400 + (low - 0xdc00) = c.toNat) (rest : List Char) :
    readChar (unicodeEscape high ++ (unicodeEscape low ++ rest)) = some (c, rest) := by
  have hhex := hex4_unicodeEscape (n := high) (by omega)
  have hhex' := hex4_unicodeEscape (n := low) (by omega)
  have hscalar := scalar_toNat c
  rw [← hjoin] at hscalar
  rw [readChar_unicodeEscape, unicodeEscape_append]
  simp only [readUnicode, hhex, hhex', if_pos hhigh, if_pos hlow, hscalar, Option.map_some]

theorem readChar_astral {c : Char} (hc : 0x10000 ≤ c.toNat) (rest : List Char) :
    readChar (unicodeEscape (0xd800 + (c.toNat - 0x10000) / 0x400) ++
      (unicodeEscape (0xdc00 + (c.toNat - 0x10000) % 0x400) ++ rest)) = some (c, rest) := by
  have hbound : c.toNat < 0x110000 := by
    have hvalid : c.toNat.isValidChar := c.valid
    rcases hvalid with h | h <;> omega
  apply readChar_surrogates
  · omega
  · omega
  · omega

/-- Reading back one character escaped to ASCII. -/
theorem readChar_escapeAscii (c : Char) (rest : List Char) :
    readChar (escapeAscii c ++ rest) = some (c, rest) := by
  unfold escapeAscii
  split
  · subst_vars
    rfl
  split
  · subst_vars
    rfl
  split
  · subst_vars
    rfl
  split
  · subst_vars
    rfl
  split
  · subst_vars
    rfl
  split
  · rename_i h
    rw [show c = Char.ofNat 8 by rw [← h]; exact (Char.ofNat_toNat c).symm]
    rfl
  split
  · rename_i h
    rw [show c = Char.ofNat 12 by rw [← h]; exact (Char.ofNat_toNat c).symm]
    rfl
  split
  · -- A printable character stands for itself, as it is neither a control nor a backslash.
    rename_i hquote hslash _ _ _ _ _ hprint
    have hescape : escapeChar c = [c] := by
      have h8 : ¬c.toNat = 8 := by omega
      have h12 : ¬c.toNat = 12 := by omega
      have hcontrol : ¬c.toNat < 32 := by omega
      unfold escapeChar
      simp only [*, if_false]
    rw [← hescape]
    exact readChar_escapeChar c rest
  split
  · rename_i hbasic
    exact readChar_basic hbasic rest
  · rename_i hastral
    rw [List.append_assoc]
    exact readChar_astral (by omega) rest

theorem escapeAscii_cons (c : Char) : ∃ d ds, escapeAscii c = d :: ds ∧ d ≠ '"' := by
  unfold escapeAscii
  split
  · exact ⟨'\\', _, rfl, by decide⟩
  · rename_i hquote
    repeat' split
    all_goals first
      | exact ⟨'\\', _, rfl, by decide⟩
      | exact ⟨c, [], rfl, hquote⟩

/-! ## The layout of the compact writer -/

/-- `json.dumps(value, ensure_ascii=False, separators=(",", ":"))` -/
def compact : Layout where
  escape := escapeChar
  newline := fun _ => []
  afterColon := []
  escape_read := readChar_escapeChar
  escape_cons := escapeChar_cons
  newline_blank := fun _ => .inl rfl
  afterColon_blank := rfl

mutual

/-- The compact writer lays a value out on one line. -/
theorem value_compact : ∀ (j : Json) (level : Nat), compact.value level j = write j
  | .null, _ => rfl
  | .bool true, _ => rfl
  | .bool false, _ => rfl
  | .int _, _ => rfl
  | .real _, _ => rfl
  | .constant _, _ => rfl
  | .str _, _ => rfl
  | .arr [], _ => rfl
  | .arr (x :: xs), level => by
      rw [Layout.value, value_compact x, items_compact xs, write]
      rfl
  | .obj [], _ => rfl
  | .obj ((k, v) :: ms), level => by
      rw [Layout.value, value_compact v, members_compact ms, write]
      rfl

theorem items_compact : ∀ (xs : List Json) (level : Nat), compact.items level xs = writeItems xs
  | [], _ => rfl
  | x :: xs, level => by
      rw [Layout.items, value_compact x, items_compact xs, writeItems]
      rfl

theorem members_compact : ∀ (ms : List (String × Json)) (level : Nat),
    compact.members level ms = writeMembers ms
  | [], _ => rfl
  | (k, v) :: ms, level => by
      rw [Layout.members, value_compact v, members_compact ms, writeMembers]
      rfl

end

/-- **Round trip** of the compact writer. -/
theorem loads_dumps_of_readable {j : Json} (h : readable j = true) :
    loads (String.ofList (write j)) = some j := by
  have hload := compact.loads_text h (.inl rfl)
  rwa [Layout.text, value_compact, String.ofList_nil, String.append_empty] at hload

/-! ## The layouts with ASCII output -/

/-- `json.dumps(value, ensure_ascii=True, separators=(",", ":"))` -/
def asciiCompact : Layout where
  escape := escapeAscii
  newline := fun _ => []
  afterColon := []
  escape_read := readChar_escapeAscii
  escape_cons := escapeAscii_cons
  newline_blank := fun _ => .inl rfl
  afterColon_blank := rfl

/-- `json.dumps(value, ensure_ascii=True, indent=2)` -/
def asciiIndented : Layout where
  escape := escapeAscii
  newline := fun level => '\n' :: List.replicate (2 * level) ' '
  afterColon := [' ']
  escape_read := readChar_escapeAscii
  escape_cons := escapeAscii_cons
  newline_blank := fun level => .inr ⟨_, rfl, by
    rw [List.all_eq_true]
    intro c hc
    rw [List.eq_of_mem_replicate hc]
    rfl⟩
  afterColon_blank := rfl

end JsonText
