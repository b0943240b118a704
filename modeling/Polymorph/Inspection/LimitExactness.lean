import Polymorph.Inspection.LimitScan

/-!
# The scan is exact on strict JSON

Every part of the grammar moves the scan from one state between tokens to another and counts what
the part contains. So the scan of a document passes if and only if the nesting and the items of its
shape are within the limits.
-/

set_option autoImplicit false

namespace Polymorph

namespace ContentInspector

open JsonText JsonText.Grammar

variable {maxDepth maxItems depth count : Nat} {begun : Bool} {outer : List Bool}

/-- The scan of the rest of a text passes. -/
def Passes (maxDepth maxItems : Nat) (rest : List Char) (s : LimitScan) : Prop :=
  scanText maxDepth maxItems rest s = (false, false)

/-- A state between two tokens, after the root has started. -/
def between (depth count : Nat) (flags : List Bool) : LimitScan where
  depth := depth
  rootStarted := true
  itemCount := count
  currentItem := flags

/-- A state inside a string. -/
def inString (depth count : Nat) (flags : List Bool) (escaped : Bool) : LimitScan where
  depth := depth
  rootStarted := true
  itemCount := count
  currentItem := flags
  quote := some '"'
  escaped := escaped

theorem passes_cons_ok {c : Char} {rest : List Char} {s s' : LimitScan}
    (h : scanChar maxDepth maxItems c rest.head? s = .ok s') :
    Passes maxDepth maxItems (c :: rest) s ↔ Passes maxDepth maxItems rest s' := by
  rw [Passes, scanText, h, Passes]

theorem passes_cons_error {c : Char} {rest : List Char} {s : LimitScan} {exceeded : Bool × Bool}
    (h : scanChar maxDepth maxItems c rest.head? s = .error exceeded)
    (hne : exceeded ≠ (false, false)) : ¬Passes maxDepth maxItems (c :: rest) s := by
  rw [Passes, scanText, h]
  exact hne

/-! ## Characters between tokens -/

/-- A character that is no quote, no comment mark and no structural character. -/
def Ordinary (c : Char) : Prop := c ∉ ['/', '\'', '"', '[', '{', ',', ']', '}']

instance (c : Char) : Decidable (Ordinary c) :=
  inferInstanceAs (Decidable (c ∉ _))

theorem scanChar_between {c : Char} {following : Option Char} {flags : List Bool}
    (hslash : c ≠ '/') (hquote : c ≠ '\'' ∧ c ≠ '"') :
    scanChar maxDepth maxItems c following (between depth count flags) =
      scanStructure maxDepth maxItems c (between depth count flags) := by
  simp [scanChar, between, hslash, hquote]

theorem passes_ordinary {c : Char} (h : Ordinary c) (rest : List Char) :
    Passes maxDepth maxItems (c :: rest) (between depth count (begun :: outer)) ↔
      Passes maxDepth maxItems rest
        (between depth count ((begun || !isPySpace c) :: outer)) := by
  simp only [Ordinary, List.mem_cons, List.not_mem_nil, or_false, not_or] at h
  obtain ⟨hslash, hsingle, hdouble, hbracket, hbrace, hcomma, hclose, hclose'⟩ := h
  refine passes_cons_ok ?_
  rw [scanChar_between hslash ⟨hsingle, hdouble⟩, scanStructure]
  cases isPySpace c <;> cases begun <;>
    simp [between, hbracket, hbrace, hcomma, hclose, hclose']

theorem passes_outside {c : Char} (h : Ordinary c) (rest : List Char) :
    Passes maxDepth maxItems (c :: rest) (between depth count []) ↔
      Passes maxDepth maxItems rest (between depth count []) := by
  simp only [Ordinary, List.mem_cons, List.not_mem_nil, or_false, not_or] at h
  obtain ⟨hslash, hsingle, hdouble, hbracket, hbrace, -, -, -⟩ := h
  refine passes_cons_ok ?_
  rw [scanChar_between hslash ⟨hsingle, hdouble⟩, scanStructure]
  simp [between, hbracket, hbrace]

/-- An item that has begun is counted, if the limit allows it. -/
theorem countItem_true (s : LimitScan) :
    countItem maxItems true s =
      if maxItems < s.itemCount + 1 then .error (false, true)
      else .ok { s with itemCount := s.itemCount + 1 } := rfl

theorem passes_comma (rest : List Char) :
    Passes maxDepth maxItems (',' :: rest) (between depth count (true :: outer)) ↔
      count + 1 ≤ maxItems ∧
        Passes maxDepth maxItems rest (between depth (count + 1) (false :: outer)) := by
  have hscan : scanChar maxDepth maxItems ',' rest.head? (between depth count (true :: outer)) =
      (if maxItems < count + 1 then .error (false, true)
        else .ok (between depth (count + 1) (false :: outer))) := by
    rw [scanChar_between (by decide) (by decide), scanStructure, if_neg (by decide)]
    simp only [between, countItem_true, if_true]
    split
    · rfl
    · rfl
  by_cases hlimit : maxItems < count + 1
  · rw [if_pos hlimit] at hscan
    have hfails := passes_cons_error hscan (by decide)
    constructor
    · intro h
      exact absurd h hfails
    · intro h
      omega
  · rw [if_neg hlimit] at hscan
    rw [passes_cons_ok hscan]
    exact (and_iff_right (Nat.le_of_not_lt hlimit)).symm

theorem passes_open {c : Char} (h : c = '[' ∨ c = '{') (rest : List Char) (flags : List Bool) :
    Passes maxDepth maxItems (c :: rest) (between depth count flags) ↔
      depth + 1 ≤ maxDepth ∧
        Passes maxDepth maxItems rest (between (depth + 1) count (false :: markItem flags)) := by
  have hquote : c ≠ '/' ∧ c ≠ '\'' ∧ c ≠ '"' := by
    rcases h with rfl | rfl
    · decide
    · decide
  have hscan : scanChar maxDepth maxItems c rest.head? (between depth count flags) =
      (if maxDepth < depth + 1 then .error (true, false)
        else .ok (between (depth + 1) count (false :: markItem flags))) := by
    rw [scanChar_between hquote.1 hquote.2, scanStructure, if_pos h]
    rfl
  by_cases hlimit : maxDepth < depth + 1
  · rw [if_pos hlimit] at hscan
    have hfails := passes_cons_error hscan (by decide)
    constructor
    · intro h
      exact absurd h hfails
    · intro h
      omega
  · rw [if_neg hlimit] at hscan
    rw [passes_cons_ok hscan]
    exact (and_iff_right (Nat.le_of_not_lt hlimit)).symm

theorem scanChar_close {c : Char} (h : c = ']' ∨ c = '}') (following : Option Char) :
    scanChar maxDepth maxItems c following (between (depth + 1) count (true :: outer)) =
        (if maxItems < count + 1 then .error (false, true)
          else .ok (between depth (count + 1) outer)) ∧
      scanChar maxDepth maxItems c following (between (depth + 1) count (false :: outer)) =
        .ok (between depth count outer) := by
  have hquote : c ≠ '/' ∧ c ≠ '\'' ∧ c ≠ '"' := by
    rcases h with rfl | rfl
    · decide
    · decide
  have hopen : ¬(c = '[' ∨ c = '{') ∧ c ≠ ',' := by
    rcases h with rfl | rfl
    · decide
    · decide
  refine ⟨?_, ?_⟩
  · rw [scanChar_between hquote.1 hquote.2, scanStructure, if_neg hopen.1]
    by_cases hlimit : maxItems < count + 1
    · simp [between, countItem, hopen.2, h, hlimit]
    · simp [between, countItem, hopen.2, h, hlimit]
  · rw [scanChar_between hquote.1 hquote.2, scanStructure, if_neg hopen.1]
    simp [between, countItem, hopen.2, h]

/-- A closing bracket counts the item before it. -/
theorem passes_close {c : Char} (h : c = ']' ∨ c = '}') (rest : List Char) :
    Passes maxDepth maxItems (c :: rest) (between (depth + 1) count (true :: outer)) ↔
      count + 1 ≤ maxItems ∧
        Passes maxDepth maxItems rest (between depth (count + 1) outer) := by
  have hscan := (@scanChar_close maxDepth maxItems depth count outer c h rest.head?).1
  by_cases hlimit : maxItems < count + 1
  · rw [if_pos hlimit] at hscan
    have hfails := passes_cons_error hscan (by decide)
    constructor
    · intro h
      exact absurd h hfails
    · intro h
      omega
  · rw [if_neg hlimit] at hscan
    rw [passes_cons_ok hscan]
    exact (and_iff_right (Nat.le_of_not_lt hlimit)).symm

theorem passes_close_empty {c : Char} (h : c = ']' ∨ c = '}') (rest : List Char) :
    Passes maxDepth maxItems (c :: rest) (between (depth + 1) count (false :: outer)) ↔
      Passes maxDepth maxItems rest (between depth count outer) :=
  passes_cons_ok (scanChar_close h rest.head?).2

/-! ## White space, literals and strings -/

theorem ordinary_of_isWs {c : Char} (h : isWs c = true) : Ordinary c ∧ isPySpace c = true := by
  simp only [isWs, Bool.or_eq_true, decide_eq_true_eq] at h
  rcases h with ((rfl | rfl) | rfl) | rfl
  · exact ⟨by decide, by decide⟩
  · exact ⟨by decide, by decide⟩
  · exact ⟨by decide, by decide⟩
  · exact ⟨by decide, by decide⟩

theorem passes_blank {cs rest : List Char} (h : Blank cs rest) (flags : List Bool) :
    Passes maxDepth maxItems cs (between depth count flags) ↔
      Passes maxDepth maxItems rest (between depth count flags) := by
  induction h with
  | nil => exact Iff.rfl
  | @cons c cs rest space more ih =>
      obtain ⟨hordinary, hspace⟩ := ordinary_of_isWs space
      rw [← ih]
      cases flags with
      | nil => exact passes_outside hordinary cs
      | cons begun outer =>
          rw [passes_ordinary hordinary, hspace, Bool.not_true, Bool.or_false]

/-- A character of a name or a number. -/
def LiteralChar (c : Char) : Prop := Ordinary c ∧ isPySpace c = false

theorem passes_literalChars {cs : List Char} (h : ∀ c ∈ cs, LiteralChar c) (hne : cs ≠ [])
    (rest : List Char) :
    Passes maxDepth maxItems (cs ++ rest) (between depth count (begun :: outer)) ↔
      Passes maxDepth maxItems rest (between depth count (true :: outer)) := by
  induction cs generalizing begun with
  | nil => exact absurd rfl hne
  | cons c cs ih =>
      obtain ⟨hordinary, hspace⟩ := h c List.mem_cons_self
      rw [List.cons_append, passes_ordinary hordinary, hspace, Bool.not_false, Bool.or_true]
      cases cs with
      | nil => exact Iff.rfl
      | cons c' cs =>
          exact ih (fun d hd => h d (List.mem_cons_of_mem _ hd)) (List.cons_ne_nil _ _)

theorem literalChar_of_isDigit {c : Char} (h : isDigit c = true) : LiteralChar c := by
  rw [isDigit, Bool.and_eq_true, decide_eq_true_eq, decide_eq_true_eq] at h
  have hlow : 48 ≤ c.toNat := h.1
  have hhigh : c.toNat ≤ 57 := h.2
  have hne : ∀ d : Char, d.toNat < 48 ∨ 57 < d.toNat → c ≠ d := by
    rintro d hd rfl
    omega
  refine ⟨?_, ?_⟩
  · simp only [Ordinary, List.mem_cons, List.not_mem_nil, or_false, not_or]
    exact ⟨hne _ (by decide), hne _ (by decide), hne _ (by decide), hne _ (by decide),
      hne _ (by decide), hne _ (by decide), hne _ (by decide), hne _ (by decide)⟩
  · simp only [isPySpace, Bool.or_eq_false_iff, Bool.and_eq_false_iff, decide_eq_false_iff_not]
    omega

theorem literalChar_digits {ds : List Char} (h : Digits ds) : ∀ c ∈ ds, LiteralChar c :=
  fun c hc => literalChar_of_isDigit (h.2 c hc)

theorem literalChar_of_all {cs : List Char} (h : cs.all (fun c => decide
    (c ∉ ['/', '\'', '"', '[', '{', ',', ']', '}'] ∧ isPySpace c = false)) = true) :
    ∀ c ∈ cs, LiteralChar c := by
  intro c hc
  have hplain := of_decide_eq_true (List.all_eq_true.mp h c hc)
  exact hplain

/-- A mark inside a number is an ordinary character. -/
theorem literalChar_mark {c : Char} (h : c ∈ ['-', '+', '.', 'e', 'E']) : LiteralChar c :=
  @literalChar_of_all ['-', '+', '.', 'e', 'E'] (by decide) c h

theorem literalChar_sign {sign : List Char} (h : sign = [] ∨ sign = ['+'] ∨ sign = ['-']) :
    ∀ c ∈ sign, LiteralChar c := by
  rcases h with rfl | rfl | rfl
  · intro c hc
    cases hc
  · intro c hc
    rw [List.mem_singleton.1 hc]
    exact literalChar_mark (by decide)
  · intro c hc
    rw [List.mem_singleton.1 hc]
    exact literalChar_mark (by decide)

theorem literalChar_fraction {cs : List Char} (h : Fraction cs) : ∀ c ∈ cs, LiteralChar c := by
  rcases h with rfl | ⟨ds, rfl, hds⟩
  · intro c hc
    cases hc
  · intro c hc
    rcases List.mem_cons.1 hc with rfl | hc
    · exact literalChar_mark (by decide)
    · exact literalChar_digits hds c hc

theorem literalChar_exponent {cs : List Char} (h : Exponent cs) : ∀ c ∈ cs, LiteralChar c := by
  rcases h with rfl | ⟨mark, sign, ds, rfl, hmark, hsign, hds⟩
  · intro c hc
    cases hc
  · intro c hc
    rcases List.mem_cons.1 hc with rfl | hc
    · rcases hmark with rfl | rfl
      · exact literalChar_mark (by decide)
      · exact literalChar_mark (by decide)
    · rcases List.mem_append.1 hc with hc | hc
      · exact literalChar_sign hsign c hc
      · exact literalChar_digits hds c hc

theorem literalChar_integerPart {cs : List Char} (h : IntegerPart cs) :
    cs ≠ [] ∧ ∀ c ∈ cs, LiteralChar c := by
  rcases h with rfl | ⟨hds, -⟩
  · refine ⟨List.cons_ne_nil _ _, ?_⟩
    intro c hc
    rw [List.mem_singleton.1 hc]
    exact literalChar_of_isDigit (by decide)
  · exact ⟨hds.1, literalChar_digits hds⟩

theorem literalChar_number {cs : List Char} (h : Number cs) :
    cs ≠ [] ∧ ∀ c ∈ cs, LiteralChar c := by
  obtain ⟨sign, integer, fraction, exponent, rfl, hsign, hinteger, hfraction, hexponent⟩ := h
  obtain ⟨hne, hchars⟩ := literalChar_integerPart hinteger
  refine ⟨?_, ?_⟩
  · intro hnil
    simp only [List.append_eq_nil_iff] at hnil
    exact hne hnil.1.1.2
  · intro c hc
    rcases List.mem_append.1 hc with hc | hc
    · rcases List.mem_append.1 hc with hc | hc
      · rcases List.mem_append.1 hc with hc | hc
        · exact literalChar_sign (hsign.imp_right .inr) c hc
        · exact hchars c hc
      · exact literalChar_fraction hfraction c hc
    · exact literalChar_exponent hexponent c hc

theorem literalChar_literal {cs : List Char} (h : Literal cs) :
    cs ≠ [] ∧ ∀ c ∈ cs, LiteralChar c := by
  rcases h with rfl | rfl | rfl | h
  · exact ⟨List.cons_ne_nil _ _, literalChar_of_all (by decide)⟩
  · exact ⟨List.cons_ne_nil _ _, literalChar_of_all (by decide)⟩
  · exact ⟨List.cons_ne_nil _ _, literalChar_of_all (by decide)⟩
  · exact literalChar_number h

theorem passes_plain {c : Char} (hquote : c ≠ '"') (hbackslash : c ≠ '\\') (rest : List Char)
    (flags : List Bool) :
    Passes maxDepth maxItems (c :: rest) (inString depth count flags false) ↔
      Passes maxDepth maxItems rest (inString depth count flags false) := by
  refine passes_cons_ok ?_
  simp [scanChar, inString, hquote, hbackslash]

theorem passes_escape (e : Char) (rest : List Char) (flags : List Bool) :
    Passes maxDepth maxItems ('\\' :: e :: rest) (inString depth count flags false) ↔
      Passes maxDepth maxItems rest (inString depth count flags false) := by
  rw [@passes_cons_ok _ _ _ _ _ (inString depth count flags true) rfl]
  exact passes_cons_ok rfl

/-- A hexadecimal digit neither closes a string nor starts an escape. -/
theorem ne_of_hexValue {c : Char} {n : Nat} (h : hexValue c = some n) : c ≠ '"' ∧ c ≠ '\\' := by
  refine ⟨?_, ?_⟩
  · rintro rfl
    cases h
  · rintro rfl
    cases h

theorem passes_inString {cs rest : List Char} (h : StringBody cs rest) (flags : List Bool) :
    Passes maxDepth maxItems cs (inString depth count flags false) ↔
      Passes maxDepth maxItems rest (between depth count flags) := by
  induction h with
  | close => exact passes_cons_ok rfl
  | plain _ quote backslash _ ih => rw [passes_plain quote backslash, ih]
  | escape known _ ih => rw [passes_escape, ih]
  | @unicode a b c d n cs rest digits _ ih =>
      simp only [hex4, Option.bind_eq_bind, Option.bind_eq_some_iff] at digits
      obtain ⟨_, ha, _, hb, _, hc, _, hd, -⟩ := digits
      rw [passes_escape, passes_plain (ne_of_hexValue ha).1 (ne_of_hexValue ha).2,
        passes_plain (ne_of_hexValue hb).1 (ne_of_hexValue hb).2,
        passes_plain (ne_of_hexValue hc).1 (ne_of_hexValue hc).2,
        passes_plain (ne_of_hexValue hd).1 (ne_of_hexValue hd).2, ih]

theorem passes_string {cs rest : List Char} (h : StringBody cs rest) :
    Passes maxDepth maxItems ('"' :: cs) (between depth count (begun :: outer)) ↔
      Passes maxDepth maxItems rest (between depth count (true :: outer)) := by
  rw [← passes_inString h (true :: outer)]
  exact passes_cons_ok rfl

/-! ## Values -/

/-- The shape fits below `depth` open containers with `count` items counted. -/
def Fits (maxDepth maxItems depth count : Nat) (t : Shape) : Prop :=
  depth + t.nesting ≤ maxDepth ∧ count + t.itemCount ≤ maxItems

/-- The shapes fit as the items of a container. -/
def AllFit (maxDepth maxItems depth count : Nat) (ts : List Shape) : Prop :=
  depth + Shape.nestingAll ts ≤ maxDepth ∧ count + Shape.itemCountAll ts ≤ maxItems

variable {cs cs₁ cs₂ rest : List Char} {c : Char} {t : Shape} {ts : List Shape} {s : LimitScan}

/-- The last item, once the scan is behind its value. -/
theorem passes_last (hclose : c = ']' ∨ c = '}')
    (hvalue : Passes maxDepth maxItems cs₁ s ↔ Fits maxDepth maxItems (depth + 1) count t ∧
      Passes maxDepth maxItems cs₂ (between (depth + 1) (count + t.itemCount) (true :: outer)))
    (after : Blank cs₂ (c :: rest)) :
    Passes maxDepth maxItems cs₁ s ↔ AllFit maxDepth maxItems (depth + 1) count [t] ∧
      Passes maxDepth maxItems rest (between depth (count + Shape.itemCountAll [t]) outer) := by
  have hcount : count + Shape.itemCountAll [t] = count + t.itemCount + 1 := by
    simp only [Shape.itemCountAll]
    omega
  have hnesting : Shape.nestingAll [t] = t.nesting := by
    simp only [Shape.nestingAll]
    omega
  rw [hvalue, passes_blank after, passes_close hclose, AllFit, Fits, hcount, hnesting]
  constructor
  · rintro ⟨⟨hdepth, -⟩, hitems, hrest⟩
    exact ⟨⟨hdepth, hitems⟩, hrest⟩
  · rintro ⟨⟨hdepth, hitems⟩, hrest⟩
    exact ⟨⟨hdepth, by omega⟩, hitems, hrest⟩

/-- An item before others, once the scan is behind its value. -/
theorem passes_more
    (hvalue : Passes maxDepth maxItems cs₁ s ↔ Fits maxDepth maxItems (depth + 1) count t ∧
      Passes maxDepth maxItems cs₂ (between (depth + 1) (count + t.itemCount) (true :: outer)))
    (after : Blank cs₂ (',' :: cs))
    (hmore : ∀ n, n ≤ maxItems →
      (Passes maxDepth maxItems cs (between (depth + 1) n (false :: outer)) ↔
        AllFit maxDepth maxItems (depth + 1) n ts ∧
          Passes maxDepth maxItems rest (between depth (n + Shape.itemCountAll ts) outer))) :
    Passes maxDepth maxItems cs₁ s ↔ AllFit maxDepth maxItems (depth + 1) count (t :: ts) ∧
      Passes maxDepth maxItems rest (between depth (count + Shape.itemCountAll (t :: ts)) outer) := by
  have hcount : count + Shape.itemCountAll (t :: ts) =
      count + t.itemCount + 1 + Shape.itemCountAll ts := by
    simp only [Shape.itemCountAll]
    omega
  rw [hvalue, passes_blank after, passes_comma, AllFit, Fits, hcount, Shape.nestingAll]
  constructor
  · rintro ⟨⟨hdepth, -⟩, hitems, hpasses⟩
    obtain ⟨⟨hdepth', hitems'⟩, hrest⟩ := (hmore _ hitems).1 hpasses
    exact ⟨⟨by omega, hitems'⟩, hrest⟩
  · rintro ⟨⟨hdepth, hitems⟩, hrest⟩
    refine ⟨⟨by omega, by omega⟩, by omega, ?_⟩
    exact (hmore _ (by omega)).2 ⟨⟨by omega, hitems⟩, hrest⟩

/-- A container, given what the scan does behind its opening bracket. -/
theorem passes_container (hopen : c = '[' ∨ c = '{')
    (hitems : depth + 1 ≤ maxDepth →
      (Passes maxDepth maxItems cs (between (depth + 1) count (false :: true :: outer)) ↔
        AllFit maxDepth maxItems (depth + 1) count ts ∧ Passes maxDepth maxItems rest
          (between depth (count + Shape.itemCountAll ts) (true :: outer)))) :
    Passes maxDepth maxItems (c :: cs) (between depth count (begun :: outer)) ↔
      Fits maxDepth maxItems depth count (.node ts) ∧ Passes maxDepth maxItems rest
        (between depth (count + Shape.itemCount (.node ts)) (true :: outer)) := by
  rw [passes_open hopen, Fits, Shape.nesting, Shape.itemCount]
  constructor
  · rintro ⟨hdepth, hpasses⟩
    obtain ⟨⟨hdepth', hcount⟩, hrest⟩ := (hitems hdepth).1 hpasses
    exact ⟨⟨by omega, hcount⟩, hrest⟩
  · rintro ⟨⟨hdepth, hcount⟩, hrest⟩
    exact ⟨by omega, (hitems (by omega)).2 ⟨⟨by omega, hcount⟩, hrest⟩⟩

/-- The key of a member and the colon after it begin an item. -/
theorem passes_key {cs₃ cs₄ : List Char} (before : Blank cs ('"' :: cs₁))
    (key : StringBody cs₁ cs₂) (colon : Blank cs₂ (':' :: cs₃)) (space : Blank cs₃ cs₄) :
    Passes maxDepth maxItems cs (between depth count (begun :: outer)) ↔
      Passes maxDepth maxItems cs₄ (between depth count (true :: outer)) := by
  rw [passes_blank before, passes_string key, passes_blank colon, passes_ordinary (by decide),
    Bool.true_or, passes_blank space]

mutual

/-- A value moves the scan behind it. -/
theorem passes_value {cs rest : List Char} {t : Shape} : Value cs t rest →
    ∀ (depth count : Nat) (begun : Bool) (outer : List Bool), depth ≤ maxDepth →
      count ≤ maxItems →
      (Passes maxDepth maxItems cs (between depth count (begun :: outer)) ↔
        Fits maxDepth maxItems depth count t ∧ Passes maxDepth maxItems rest
          (between depth (count + t.itemCount) (true :: outer)))
  | .literal lexeme, depth, count, begun, outer, hdepth, hcount => by
      obtain ⟨hne, hchars⟩ := literalChar_literal lexeme
      rw [passes_literalChars hchars hne]
      exact (and_iff_right ⟨hdepth, hcount⟩).symm
  | .string body, depth, count, begun, outer, hdepth, hcount => by
      rw [passes_string body]
      exact (and_iff_right ⟨hdepth, hcount⟩).symm
  | .emptyArray blank, depth, count, begun, outer, _, hcount => by
      refine passes_container (.inl rfl) fun hdepth => ?_
      rw [passes_blank blank, passes_close_empty (.inl rfl)]
      exact (and_iff_right ⟨hdepth, hcount⟩).symm
  | .array items, depth, count, begun, outer, _, hcount =>
      passes_container (.inl rfl) fun hdepth =>
        passes_items items (.inl rfl) rfl depth count (true :: outer) hdepth hcount
  | .emptyObject blank, depth, count, begun, outer, _, hcount => by
      refine passes_container (.inr rfl) fun hdepth => ?_
      rw [passes_blank blank, passes_close_empty (.inr rfl)]
      exact (and_iff_right ⟨hdepth, hcount⟩).symm
  | .object members, depth, count, begun, outer, _, hcount =>
      passes_container (.inr rfl) fun hdepth =>
        passes_members members (.inr rfl) rfl depth count (true :: outer) hdepth hcount

/-- The items of an array move the scan behind its bracket. -/
theorem passes_items {cs tail : List Char} {ts : List Shape} : Items cs ts tail →
    ∀ {c : Char} {rest : List Char}, c = ']' ∨ c = '}' → tail = c :: rest →
      ∀ (depth count : Nat) (outer : List Bool), depth + 1 ≤ maxDepth → count ≤ maxItems →
        (Passes maxDepth maxItems cs (between (depth + 1) count (false :: outer)) ↔
          AllFit maxDepth maxItems (depth + 1) count ts ∧
            Passes maxDepth maxItems rest (between depth (count + Shape.itemCountAll ts) outer))
  | .last before value after, _, _, hclose, htail, depth, count, outer, hdepth, hcount => by
      rw [htail] at after
      refine passes_last hclose ?_ after
      rw [passes_blank before]
      exact passes_value value (depth + 1) count false outer hdepth hcount
  | .cons before value after more, _, _, hclose, htail, depth, count, outer, hdepth, hcount => by
      refine passes_more ?_ after fun n hn =>
        passes_items more hclose htail depth n outer hdepth hn
      rw [passes_blank before]
      exact passes_value value (depth + 1) count false outer hdepth hcount

/-- The members of an object move the scan behind its brace. -/
theorem passes_members {cs tail : List Char} {ts : List Shape} : Members cs ts tail →
    ∀ {c : Char} {rest : List Char}, c = ']' ∨ c = '}' → tail = c :: rest →
      ∀ (depth count : Nat) (outer : List Bool), depth + 1 ≤ maxDepth → count ≤ maxItems →
        (Passes maxDepth maxItems cs (between (depth + 1) count (false :: outer)) ↔
          AllFit maxDepth maxItems (depth + 1) count ts ∧
            Passes maxDepth maxItems rest (between depth (count + Shape.itemCountAll ts) outer))
  | .last before key colon space value after, _, _, hclose, htail, depth, count, outer, hdepth,
      hcount => by
      rw [htail] at after
      refine passes_last hclose ?_ after
      rw [passes_key before key colon space]
      exact passes_value value (depth + 1) count true outer hdepth hcount
  | .cons before key colon space value after more, _, _, hclose, htail, depth, count, outer,
      hdepth, hcount => by
      refine passes_more ?_ after fun n hn =>
        passes_members more hclose htail depth n outer hdepth hn
      rw [passes_key before key colon space]
      exact passes_value value (depth + 1) count true outer hdepth hcount

end

/-! ## Documents -/

/-- The scan skips white space before the root. -/
theorem passes_blank_start {cs rest : List Char} (h : Blank cs rest) :
    Passes maxDepth maxItems cs {} ↔ Passes maxDepth maxItems rest {} := by
  induction h with
  | nil => exact Iff.rfl
  | @cons c cs rest space more ih =>
      rw [← ih]
      refine passes_cons_ok ?_
      obtain ⟨hordinary, hspace⟩ := ordinary_of_isWs space
      simp only [Ordinary, List.mem_cons, List.not_mem_nil, or_false, not_or] at hordinary
      simp [scanChar, hordinary, hspace]

/-- The opening bracket of the root starts it. -/
theorem passes_root (h : c = '[' ∨ c = '{') (rest : List Char) :
    Passes maxDepth maxItems (c :: rest) {} ↔
      Passes maxDepth maxItems (c :: rest) (between 0 0 []) := by
  have hscan : scanChar maxDepth maxItems c rest.head? {} =
      scanChar maxDepth maxItems c rest.head? (between 0 0 []) := by
    rcases h with rfl | rfl
    · rfl
    · rfl
  rw [Passes, scanText, hscan, Passes, scanText]

/-- The root, given what the scan does behind its opening bracket. -/
theorem passes_start (hopen : c = '[' ∨ c = '{')
    (hitems : 1 ≤ maxDepth → (Passes maxDepth maxItems cs (between 1 0 [false]) ↔
      AllFit maxDepth maxItems 1 0 ts ∧
        Passes maxDepth maxItems rest (between 0 (0 + Shape.itemCountAll ts) [])))
    (hrest : Blank rest []) :
    Passes maxDepth maxItems (c :: cs) {} ↔
      (Shape.node ts).nesting ≤ maxDepth ∧ (Shape.node ts).itemCount ≤ maxItems := by
  rw [passes_root hopen, passes_open hopen, Shape.nesting, Shape.itemCount]
  constructor
  · rintro ⟨hdepth, hpasses⟩
    obtain ⟨⟨hdepth', hcount⟩, -⟩ := (hitems hdepth).1 hpasses
    exact ⟨by omega, by omega⟩
  · rintro ⟨hdepth, hcount⟩
    refine ⟨by omega, (hitems (by omega)).2 ⟨⟨by omega, by omega⟩, ?_⟩⟩
    rw [passes_blank hrest]
    rfl

/-- **Exactness.** On strict JSON whose root is a container the scan reports no exceeded limit if
and only if the containers are nested at most `maxDepth` deep and hold at most `maxItems` items and
members. -/
theorem jsonLikeLimitsExceeded_iff (text : String) (children : List Shape)
    (hdocument : Document text (.node children)) (maxDepth maxItems : Nat) :
    jsonLikeLimitsExceeded text maxDepth maxItems = (false, false) ↔
      (Shape.node children).nesting ≤ maxDepth ∧
        (Shape.node children).itemCount ≤ maxItems := by
  obtain ⟨cs, rest, hbefore, hvalue, hafter⟩ := hdocument
  change Passes maxDepth maxItems text.toList {} ↔ _
  rw [passes_blank_start hbefore]
  cases hvalue with
  | emptyArray blank =>
      refine passes_start (.inl rfl) (fun hdepth => ?_) hafter
      rw [passes_blank blank, passes_close_empty (.inl rfl)]
      exact (and_iff_right ⟨hdepth, Nat.zero_le _⟩).symm
  | array items =>
      exact passes_start (.inl rfl)
        (fun hdepth => passes_items items (.inl rfl) rfl 0 0 [] hdepth (Nat.zero_le _)) hafter
  | emptyObject blank =>
      refine passes_start (.inr rfl) (fun hdepth => ?_) hafter
      rw [passes_blank blank, passes_close_empty (.inr rfl)]
      exact (and_iff_right ⟨hdepth, Nat.zero_le _⟩).symm
  | object members =>
      exact passes_start (.inr rfl)
        (fun hdepth => passes_members members (.inr rfl) rfl 0 0 [] hdepth (Nat.zero_le _)) hafter

/-- An object with an empty array, next to one item more than is allowed. -/
theorem jsonLikeLimitsExceeded_sample :
    jsonLikeLimitsExceeded "\x7b\"a\": []\x7d" 2 1 = (false, false) ∧
      jsonLikeLimitsExceeded "\x7b\"a\": []\x7d" 2 0 ≠ (false, false) := by
  have hdocument : Document "\x7b\"a\": []\x7d" (.node [.node []]) := by
    refine ⟨_, [], .nil, .object (.last .nil
      (.plain (by decide) (by decide) (by decide) .close) .nil
      (.cons (c := ' ') (by decide) .nil) (.emptyArray .nil) .nil), .nil⟩
  refine ⟨(jsonLikeLimitsExceeded_iff _ _ hdocument 2 1).2 (by decide), ?_⟩
  rw [Ne, jsonLikeLimitsExceeded_iff _ _ hdocument 2 0]
  decide

end ContentInspector

end Polymorph
