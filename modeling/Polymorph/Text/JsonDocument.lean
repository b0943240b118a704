import Polymorph.Text.JsonGrammar
import Polymorph.Text.JsonLayout
import Polymorph.Text.JsonLines

/-!
# What a layout writes is strict JSON

The text of a value without non-finite constants is a document of the grammar, with the containers
of the value as its shape. The escapes of a layout have to be those of the grammar (`Lawful`).
-/

set_option autoImplicit false

namespace JsonText

open Grammar

/-! ## The shape of a value -/

mutual

/-- The containers of a value. -/
def shapeOf : Json → Shape
  | .arr items => .node (itemShapes items)
  | .obj members => .node (memberShapes members)
  | _ => .leaf

def itemShapes : List Json → List Shape
  | [] => []
  | x :: xs => shapeOf x :: itemShapes xs

def memberShapes : List (String × Json) → List Shape
  | [] => []
  | (_, v) :: rest => shapeOf v :: memberShapes rest

end

mutual

/-- No non-finite constant occurs. -/
def constantFree : Json → Bool
  | .arr items => constantFreeItems items
  | .obj members => constantFreeMembers members
  | .constant _ => false
  | _ => true

def constantFreeItems : List Json → Bool
  | [] => true
  | x :: xs => constantFree x && constantFreeItems xs

def constantFreeMembers : List (String × Json) → Bool
  | [] => true
  | (_, v) :: rest => constantFree v && constantFreeMembers rest

end

/-! ## Numbers -/

theorem digits_cons {c : Char} {ds : List Char} (hc : isDigit c = true)
    (hds : ∀ d ∈ ds, isDigit d = true) : Digits (c :: ds) :=
  ⟨List.cons_ne_nil _ _, List.forall_mem_cons.mpr ⟨hc, hds⟩⟩

theorem isDigit_of_mem_spanDigits {cs : List Char} :
    ∀ d ∈ (spanDigits cs).1, isDigit d = true := by
  intro d hd
  rw [spanDigits, List.span_eq_takeWhile_dropWhile] at hd
  exact List.all_eq_true.mp List.all_takeWhile d hd

theorem integerPart_of_readIntPart {cs ip rest : List Char} (h : readIntPart cs = some (ip, rest)) :
    IntegerPart ip := by
  unfold readIntPart at h
  split at h
  · cases h
  case h_2 c cs =>
    split at h
    · cases h
      exact .inl rfl
    case isFalse hzero =>
      split at h
      case isTrue hc =>
        cases h
        refine .inr ⟨digits_cons hc isDigit_of_mem_spanDigits, ?_⟩
        intro hhead
        exact hzero (Option.some.inj hhead)
      · cases h

theorem fraction_readFraction (cs : List Char) : Fraction (readFraction cs).1 := by
  unfold readFraction
  split
  case h_1 rest =>
    have hdigits := @isDigit_of_mem_spanDigits rest
    split
    · exact .inl rfl
    case h_2 d ds hspan =>
      rw [hspan] at hdigits
      exact .inr ⟨_, rfl, List.cons_ne_nil _ _, hdigits⟩
  case h_2 => exact .inl rfl

theorem exponent_readExponentDigits {mark : Char} {sign : List Char}
    (hmark : mark = 'e' ∨ mark = 'E') (hsign : sign = [] ∨ sign = ['+'] ∨ sign = ['-'])
    (cs input : List Char) :
    Exponent (readExponentDigits (mark :: sign) cs input).1 := by
  have hdigits := @isDigit_of_mem_spanDigits cs
  unfold readExponentDigits
  split
  · exact .inl rfl
  case h_2 d ds hspan =>
    rw [hspan] at hdigits
    exact .inr ⟨mark, sign, _, rfl, hmark, hsign, List.cons_ne_nil _ _, hdigits⟩

theorem exponent_readExponent (cs : List Char) : Exponent (readExponent cs).1 := by
  unfold readExponent
  split
  case h_1 c s rest =>
    split
    case isTrue hmark =>
      split
      case isTrue hsign =>
        refine exponent_readExponentDigits hmark (.inr ?_) _ _
        rcases hsign with rfl | rfl
        · exact .inl rfl
        · exact .inr rfl
      case isFalse => exact exponent_readExponentDigits hmark (.inl rfl) _ _
    case isFalse => exact .inl rfl
  case h_2 => exact .inl rfl

theorem number_of_readUnsigned {sign : Bool} {cs lexeme rest : List Char}
    (h : readUnsigned sign cs = some (.real lexeme, rest)) : Number lexeme := by
  unfold readUnsigned at h
  split at h
  · cases h
  case h_2 ip after hip =>
    dsimp only at h
    split at h
    · cases h
    · cases h
      have hinteger := integerPart_of_readIntPart hip
      have hfraction := fraction_readFraction after
      have hexponent := exponent_readExponent (readFraction after).2
      cases sign with
      | false => exact ⟨[], _, _, _, rfl, .inl rfl, hinteger, hfraction, hexponent⟩
      | true => exact ⟨['-'], _, _, _, rfl, .inr rfl, hinteger, hfraction, hexponent⟩

/-- A lexeme that is read as itself is a number of the grammar. -/
theorem number_of_isReal {lexeme : List Char} (h : isReal lexeme = true) : Number lexeme := by
  unfold isReal at h
  split at h
  case h_1 found hread =>
    obtain rfl : found = lexeme := of_decide_eq_true h
    unfold readNumber at hread
    split at hread
    · cases hread
    · cases hread
    · cases hread
    · exact number_of_readUnsigned hread
    · exact number_of_readUnsigned hread
  case h_2 => cases h

theorem integerPart_writeNat (n : Nat) : IntegerPart (writeNat n) := by
  by_cases hn : n = 0
  · subst hn
    exact .inl rfl
  · obtain ⟨c, cs, hcs, hzero⟩ := writeNat_head hn
    have hdigits := writeNat_digits n
    rw [hcs] at hdigits ⊢
    refine .inr ⟨⟨List.cons_ne_nil _ _, hdigits⟩, ?_⟩
    intro hhead
    exact hzero (Option.some.inj hhead)

theorem number_writeInt (z : Int) : Number (writeInt z) := by
  cases z with
  | ofNat n =>
      exact ⟨[], writeNat n, [], [], by simp [writeInt], .inl rfl, integerPart_writeNat n, .inl rfl,
        .inl rfl⟩
  | negSucc n =>
      exact ⟨['-'], writeNat (n + 1), [], [], by simp [writeInt], .inr rfl,
        integerPart_writeNat (n + 1), .inl rfl, .inl rfl⟩

/-! ## Strings and blanks -/

/-- The escape of a character goes on with a string of the grammar. -/
def Layout.Lawful (L : Layout) : Prop :=
  ∀ (c : Char) (cs rest : List Char), StringBody cs rest → StringBody (L.escape c ++ cs) rest

namespace Layout

variable {L : Layout}

theorem Lawful.string (hL : L.Lawful) (s : String) (rest : List Char) :
    ∃ cs, L.string s ++ rest = '"' :: cs ∧ StringBody cs rest := by
  have hbody : ∀ chars : List Char,
      StringBody (chars.flatMap L.escape ++ '"' :: rest) rest := by
    intro chars
    induction chars with
    | nil => exact .close
    | cons c chars ih =>
        rw [List.flatMap_cons, List.append_assoc]
        exact hL c _ _ ih
  exact ⟨_, L.string_append s rest, hbody s.toList⟩

end Layout

theorem blank_append {blanks : List Char} (h : blanks.all isWs = true) (rest : List Char) :
    Blank (blanks ++ rest) rest := by
  induction blanks with
  | nil => exact .nil
  | cons c blanks ih =>
      rw [List.all_cons, Bool.and_eq_true] at h
      exact .cons h.1 (ih h.2)

namespace Layout

variable (L : Layout)

theorem blank_newline (level : Nat) (rest : List Char) : Blank (L.newline level ++ rest) rest := by
  rcases L.newline_blank level with h | ⟨blanks, h, hblank⟩
  · rw [h]
    exact .nil
  · rw [h]
    exact blank_append (by rw [List.all_cons, hblank]; rfl) rest

theorem blank_afterColon (rest : List Char) : Blank (L.afterColon ++ rest) rest :=
  blank_append L.afterColon_blank rest

end Layout

/-! ## Values -/

namespace Layout

variable {L : Layout}

mutual

/-- The text of a value is a value of the grammar. -/
theorem grammar_value (hL : L.Lawful) : ∀ (j : Json) (level : Nat) (rest : List Char),
    readable j = true → constantFree j = true → Value (L.value level j ++ rest) (shapeOf j) rest
  | .null, _, _, _, _ => .literal (.inl rfl)
  | .bool true, _, _, _, _ => .literal (.inr (.inl rfl))
  | .bool false, _, _, _, _ => .literal (.inr (.inr (.inl rfl)))
  | .int z, _, _, _, _ => .literal (.inr (.inr (.inr (number_writeInt z))))
  | .real lexeme, _, _, h, _ => .literal (.inr (.inr (.inr (number_of_isReal h))))
  | .constant _, _, _, _, hfree => nomatch hfree
  | .str s, level, rest, _, _ => by
      obtain ⟨cs, hcs, hbody⟩ := hL.string s rest
      rw [value, hcs, shapeOf]
      · exact .string hbody
      · exact nofun
      · exact nofun
  | .arr [], _, _, _, _ => .emptyArray .nil
  | .arr (x :: xs), level, rest, h, hfree => by
      rw [readable, readableItems, Bool.and_eq_true] at h
      rw [constantFree, constantFreeItems, Bool.and_eq_true] at hfree
      rw [value, shapeOf, itemShapes, List.cons_append, List.append_assoc, List.append_assoc]
      exact .array (grammar_items hL xs level rest h.2 hfree.2 (L.blank_newline _ _)
        (grammar_value hL x _ _ h.1 hfree.1))
  | .obj [], _, _, _, _ => .emptyObject .nil
  | .obj ((k, v) :: ms), level, rest, h, hfree => by
      rw [readable, readableMembers, Bool.and_eq_true] at h
      rw [constantFree, constantFreeMembers, Bool.and_eq_true] at hfree
      rw [value, shapeOf, memberShapes, List.cons_append, List.append_assoc, List.append_assoc,
        List.cons_append, List.append_assoc, List.append_assoc]
      exact .object (grammar_members hL ms level rest h.2 hfree.2 k (L.blank_newline _ _)
        (grammar_value hL v _ _ h.1 hfree.1))

/-- The items behind one that has been read. -/
theorem grammar_items (hL : L.Lawful) : ∀ (xs : List Json) (level : Nat) (rest : List Char),
    readableItems xs = true → constantFreeItems xs = true → ∀ {cs cs₁ : List Char} {t : Shape},
    Blank cs cs₁ → Value cs₁ t (L.items level xs ++ rest) →
    Items cs (t :: itemShapes xs) (']' :: rest)
  | [], level, rest, _, _, _, _, _, hblank, hvalue => by
      refine .last hblank hvalue ?_
      rw [items, List.append_assoc, List.singleton_append]
      exact L.blank_newline _ _
  | x :: xs, level, rest, h, hfree, _, _, _, hblank, hvalue => by
      rw [readableItems, Bool.and_eq_true] at h
      rw [constantFreeItems, Bool.and_eq_true] at hfree
      rw [items, List.cons_append, List.append_assoc, List.append_assoc] at hvalue
      exact .cons hblank hvalue .nil (grammar_items hL xs level rest h.2 hfree.2
        (L.blank_newline _ _) (grammar_value hL x _ _ h.1 hfree.1))

/-- The members behind a value that has been read. -/
theorem grammar_members (hL : L.Lawful) : ∀ (ms : List (String × Json)) (level : Nat)
    (rest : List Char), readableMembers ms = true → constantFreeMembers ms = true → ∀ (k : String)
    {cs cs₁ : List Char} {t : Shape}, Blank cs (L.string k ++ ':' :: (L.afterColon ++ cs₁)) →
    Value cs₁ t (L.members level ms ++ rest) → Members cs (t :: memberShapes ms) ('}' :: rest)
  | [], level, rest, _, _, k, _, cs₁, _, hblank, hvalue => by
      obtain ⟨_, hcs, hbody⟩ := hL.string k (':' :: (L.afterColon ++ cs₁))
      rw [hcs] at hblank
      refine .last hblank hbody .nil (L.blank_afterColon _) hvalue ?_
      rw [members, List.append_assoc, List.singleton_append]
      exact L.blank_newline _ _
  | (k', v) :: ms, level, rest, h, hfree, k, _, cs₁, _, hblank, hvalue => by
      rw [readableMembers, Bool.and_eq_true] at h
      rw [constantFreeMembers, Bool.and_eq_true] at hfree
      obtain ⟨_, hcs, hbody⟩ := hL.string k (':' :: (L.afterColon ++ cs₁))
      rw [hcs] at hblank
      rw [members, List.cons_append, List.append_assoc, List.append_assoc, List.cons_append,
        List.append_assoc, List.append_assoc] at hvalue
      exact .cons hblank hbody .nil (L.blank_afterColon _) hvalue .nil
        (grammar_members hL ms level rest h.2 hfree.2 k' (L.blank_newline _ _)
          (grammar_value hL v _ _ h.1 hfree.1))

end

/-- **Strict JSON.** The text of a value, with blanks after it, is a document. -/
theorem document_text (hL : L.Lawful) {j : Json} (h : readable j = true)
    (hfree : constantFree j = true) {blanks : List Char} (hblanks : blanks.all isWs = true) :
    Document (L.text j ++ String.ofList blanks) (shapeOf j) := by
  refine ⟨L.value 0 j ++ blanks, blanks, ?_, grammar_value hL j 0 blanks h hfree, ?_⟩
  · rw [text, String.toList_append, String.toList_ofList, String.toList_ofList]
    exact .nil
  · have hblank := blank_append hblanks []
    rwa [List.append_nil] at hblank

end Layout

/-! ## The characters of a text -/

namespace Layout

variable {L : Layout} {P : Char → Prop}

/-- The characters that a layout adds, and the visible ones, have a property. -/
structure Writes (L : Layout) (P : Char → Prop) : Prop where
  visible : ∀ c : Char, 32 ≤ c.toNat → P c
  escape : ∀ c, ∀ d ∈ L.escape c, P d
  newline : ∀ level, ∀ d ∈ L.newline level, P d
  afterColon : ∀ d ∈ L.afterColon, P d

namespace Writes

variable (hL : L.Writes P)

include hL

theorem of_visible {chars : List Char} (h : Visible chars) : ∀ c ∈ chars, P c :=
  fun c hc => hL.visible c (h c hc)

theorem string (s : String) : ∀ c ∈ L.string s, P c := by
  refine List.forall_mem_cons.mpr ⟨hL.visible _ (by decide), ?_⟩
  refine List.forall_mem_append.mpr ⟨?_, hL.of_visible (by decide)⟩
  intro c hc
  obtain ⟨d, -, hd⟩ := List.mem_flatMap.mp hc
  exact hL.escape d c hd

mutual

/-- All characters of a text have the property. -/
theorem value : ∀ (j : Json) (level : Nat), readable j = true → ∀ c ∈ L.value level j, P c
  | .null, _, _ => hL.of_visible (show Visible ['n', 'u', 'l', 'l'] by decide)
  | .bool true, _, _ => hL.of_visible (show Visible ['t', 'r', 'u', 'e'] by decide)
  | .bool false, _, _ => hL.of_visible (show Visible ['f', 'a', 'l', 's', 'e'] by decide)
  | .int z, _, _ => hL.of_visible (visible_writeInt z)
  | .real lexeme, _, h => hL.of_visible (visible_of_isReal h)
  | .constant name, _, h => by
      rw [readable, isConstant, Bool.or_eq_true, Bool.or_eq_true, decide_eq_true_iff,
        decide_eq_true_iff, decide_eq_true_iff] at h
      rw [Layout.value]
      obtain (rfl | rfl) | rfl := h <;> exact hL.of_visible (by decide)
  | .str s, _, _ => hL.string s
  | .arr [], _, _ => hL.of_visible (show Visible ['[', ']'] by decide)
  | .arr (x :: xs), level, h => by
      rw [readable, readableItems, Bool.and_eq_true] at h
      rw [Layout.value]
      simp only [List.forall_mem_cons, List.forall_mem_append]
      exact ⟨hL.visible _ (by decide), hL.newline _, value x _ h.1, items xs level h.2⟩
  | .obj [], _, _ => hL.of_visible (show Visible ['{', '}'] by decide)
  | .obj ((k, v) :: ms), level, h => by
      rw [readable, readableMembers, Bool.and_eq_true] at h
      rw [Layout.value]
      simp only [List.forall_mem_cons, List.forall_mem_append]
      exact ⟨hL.visible _ (by decide), hL.newline _, hL.string k, hL.visible _ (by decide),
        hL.afterColon, value v _ h.1, members ms level h.2⟩

theorem items : ∀ (xs : List Json) (level : Nat), readableItems xs = true →
    ∀ c ∈ L.items level xs, P c
  | [], level, _ => by
      rw [Layout.items]
      exact List.forall_mem_append.mpr ⟨hL.newline _, hL.of_visible (by decide)⟩
  | x :: xs, level, h => by
      rw [readableItems, Bool.and_eq_true] at h
      rw [Layout.items]
      simp only [List.forall_mem_cons, List.forall_mem_append]
      exact ⟨hL.visible _ (by decide), hL.newline _, value x _ h.1, items xs level h.2⟩

theorem members : ∀ (ms : List (String × Json)) (level : Nat), readableMembers ms = true →
    ∀ c ∈ L.members level ms, P c
  | [], level, _ => by
      rw [Layout.members]
      exact List.forall_mem_append.mpr ⟨hL.newline _, hL.of_visible (by decide)⟩
  | (k, v) :: ms, level, h => by
      rw [readableMembers, Bool.and_eq_true] at h
      rw [Layout.members]
      simp only [List.forall_mem_cons, List.forall_mem_append]
      exact ⟨hL.visible _ (by decide), hL.newline _, hL.string k, hL.visible _ (by decide),
        hL.afterColon, value v _ h.1, members ms level h.2⟩

end

end Writes

end Layout

/-! ## The indented layout -/

/-- `json.dumps(value, ensure_ascii=False, indent=2)` -/
def indented : Layout where
  escape := escapeChar
  newline := fun level => '\n' :: List.replicate (2 * level) ' '
  afterColon := [' ']
  escape_read := readChar_escapeChar
  escape_cons := escapeChar_cons
  newline_blank := asciiIndented.newline_blank
  afterColon_blank := asciiIndented.afterColon_blank

theorem stringBody_escapeChar (c : Char) (cs rest : List Char) (h : StringBody cs rest) :
    StringBody (escapeChar c ++ cs) rest := by
  have hescape {e : Char} (he : e ∈ ['"', '\\', '/', 'b', 'f', 'n', 'r', 't']) :
      StringBody (['\\', e] ++ cs) rest := .escape he h
  unfold escapeChar
  split
  · exact hescape (by decide)
  case isFalse hquote =>
    split
    · exact hescape (by decide)
    case isFalse hbackslash =>
      split
      · exact hescape (by decide)
      split
      · exact hescape (by decide)
      split
      · exact hescape (by decide)
      split
      · exact hescape (by decide)
      split
      · exact hescape (by decide)
      split
      case isTrue hcontrol =>
        have hhigh := hexValue_hexDigit (c.toNat / 16) (by omega)
        have hlow := hexValue_hexDigit (c.toNat % 16) (Nat.mod_lt _ (by decide))
        refine .unicode (n := c.toNat / 16 * 16 + c.toNat % 16) ?_ h
        have hzero : hexValue '0' = some 0 := by decide
        rw [hex4, hzero, hhigh, hlow]
        simp
      case isFalse hcontrol => exact .plain (Nat.le_of_not_lt hcontrol) hquote hbackslash h

theorem indented_lawful : indented.Lawful := stringBody_escapeChar

/-- The only control character of an indented text is the line feed. -/
theorem indented_writes : indented.Writes fun c => 32 ≤ c.toNat ∨ c = '\n' where
  visible _ h := .inl h
  escape c d hd := .inl (visible_escapeChar c d hd)
  newline level := by
    refine List.forall_mem_cons.mpr ⟨.inr rfl, ?_⟩
    intro d hd
    rw [List.eq_of_mem_replicate hd]
    exact .inl (by decide)
  afterColon := by
    intro d hd
    rw [List.mem_singleton.mp hd]
    exact .inl (by decide)

end JsonText
