import Polymorph.Inspection.AttributeScan

/-!
# The attribute scan is exact on documents

Every part of a document takes the scan over exactly its own characters: text without a turn, a
comment, section or instruction in one turn, and a tag in one turn that counts one assignment sign
for each attribute.
-/

set_option autoImplicit false

namespace Polymorph

namespace ContentInspector

open Loop XmlText

variable {maxAttributes : Nat} {answer : Bool}

/-! ## Searches that end at the closing mark -/

theorem afterFirst_here (pattern rest : List Char) (hpattern : pattern ≠ []) :
    afterFirst pattern (pattern ++ rest) = some rest := by
  cases pattern with
  | nil => exact absurd rfl hpattern
  | cons p pattern =>
      have hbegins : (p :: pattern).isPrefixOf (p :: (pattern ++ rest)) = true :=
        List.isPrefixOf_iff_prefix.mpr ⟨rest, rfl⟩
      rw [List.cons_append, afterFirst, if_pos hbegins, List.length_cons, List.drop_succ_cons,
        List.drop_left]

theorem afterFirst_later {pattern rest : List Char} {c : Char} (h : ¬pattern <+: c :: rest) :
    afterFirst pattern (c :: rest) = afterFirst pattern rest := by
  rw [afterFirst, if_neg (mt List.isPrefixOf_iff_prefix.mp h)]

theorem afterFirst_comment {body : List Char} (h : CommentText body) (rest : List Char) :
    afterFirst ['-', '-', '>'] (body ++ ['-', '-', '>'] ++ rest) = some rest := by
  induction h with
  | nil => exact afterFirst_here _ _ (List.cons_ne_nil _ _)
  | char hc _ ih =>
      rw [List.cons_append, List.cons_append, afterFirst_later, ih]
      intro hbegins
      exact hc (List.cons_prefix_cons.mp hbegins).1.symm
  | hyphen hc _ ih =>
      simp only [List.cons_append] at ih ⊢
      rw [afterFirst_later, afterFirst_later, ih]
      · intro hbegins
        exact hc (List.cons_prefix_cons.mp hbegins).1.symm
      · intro hbegins
        have hnext := (List.cons_prefix_cons.mp hbegins).2
        exact hc (List.cons_prefix_cons.mp hnext).1.symm

/-- A mark whose last character is none of the others is first found behind a text without it. -/
theorem afterFirst_closing (marks : List Char) {last : Char} (hlast : last ∉ marks)
    {body : List Char} (h : ¬marks ++ [last] <:+: body) (rest : List Char) :
    afterFirst (marks ++ [last]) (body ++ (marks ++ [last]) ++ rest) = some rest := by
  induction body with
  | nil => exact afterFirst_here _ _ (List.append_ne_nil_of_right_ne_nil _ (List.cons_ne_nil _ _))
  | cons c body ih =>
      rw [List.cons_append, List.cons_append, afterFirst_later]
      · exact ih fun hinside => h (hinside.trans (List.suffix_cons c body).isInfix)
      · rintro ⟨after, hafter⟩
        have hget := congrArg (fun text => text[marks.length]?) hafter
        have hlhs : (marks ++ [last] ++ after)[marks.length]? = some last := by simp
        by_cases hlen : marks.length < (c :: body).length
        · refine h (List.IsPrefix.isInfix ?_)
          have hwhole : marks ++ [last] <+: (c :: body) ++ ((marks ++ [last]) ++ rest) :=
            ⟨after, by rw [hafter, List.append_assoc]; rfl⟩
          refine List.prefix_of_prefix_length_le hwhole (List.prefix_append _ _) ?_
          rw [List.length_append, List.length_singleton]
          exact hlen
        · -- the last character would stand among the marks before it
          refine hlast ?_
          have hidx : marks.length - (c :: body).length < marks.length := by
            rw [List.length_cons] at hlen ⊢
            omega
          have hrhs : (c :: (body ++ (marks ++ [last]) ++ rest))[marks.length]? =
              some (marks[marks.length - (c :: body).length]) := by
            have happ : c :: (body ++ (marks ++ [last]) ++ rest) =
                (c :: body) ++ (marks ++ ([last] ++ rest)) := by simp
            rw [happ, List.getElem?_append_right (Nat.le_of_not_lt hlen),
              List.getElem?_append_left hidx, List.getElem?_eq_getElem hidx]
          have hsame : some last = some marks[marks.length - (c :: body).length] := by
            rw [← hlhs, ← hrhs]
            exact hget
          rw [Option.some.inj hsame]
          exact List.getElem_mem hidx

/-! ## Parts without tags -/

theorem xmlTurn_markup (maxAttributes : Nat) (rest : List Char) :
    xmlTurn maxAttributes ('<' :: rest) = markup maxAttributes rest := rfl

theorem leaves_cons {c : Char} (hc : c ≠ '<') (rest : List Char) :
    Leaves (xmlTurn maxAttributes) (c :: rest) answer ↔
      Leaves (xmlTurn maxAttributes) rest answer := by
  apply leaves_congr
  rw [xmlTurn, xmlTurn, afterFirst_later]
  intro hbegins
  exact hc (List.cons_prefix_cons.mp hbegins).1.symm

theorem leaves_append {cs : List Char} (hcs : ∀ c ∈ cs, c ≠ '<') (rest : List Char) :
    Leaves (xmlTurn maxAttributes) (cs ++ rest) answer ↔
      Leaves (xmlTurn maxAttributes) rest answer := by
  induction cs with
  | nil => exact Iff.rfl
  | cons c cs ih =>
      have hrest := ih fun d hd => hcs d (List.mem_cons_of_mem c hd)
      exact (leaves_cons (hcs c List.mem_cons_self) _).trans hrest

/-- A markup that one search goes over. -/
theorem leaves_markup {rest after : List Char} (h : markup maxAttributes rest = .again after) :
    Leaves (xmlTurn maxAttributes) ('<' :: rest) answer ↔
      Leaves (xmlTurn maxAttributes) after answer :=
  leaves_again_iff ((xmlTurn_markup maxAttributes rest).trans h)

theorem leaves_comment {cs : List Char} (h : Comment cs) (rest : List Char) :
    Leaves (xmlTurn maxAttributes) (cs ++ rest) answer ↔
      Leaves (xmlTurn maxAttributes) rest answer := by
  cases h with
  | @mk body hbody =>
      apply leaves_markup
      have hfind := afterFirst_comment hbody rest
      change skipMarkup ['-', '-', '>'] (body ++ ['-', '-', '>'] ++ rest) = .again rest
      rw [skipMarkup, hfind]

theorem leaves_cdSect {cs : List Char} (h : CdSect cs) (rest : List Char) :
    Leaves (xmlTurn maxAttributes) (cs ++ rest) answer ↔
      Leaves (xmlTurn maxAttributes) rest answer := by
  cases h with
  | @mk body hbody =>
      apply leaves_markup
      have hfind := @afterFirst_closing [']', ']'] '>' (by decide) _ hbody rest
      change skipMarkup [']', ']', '>'] (body ++ [']', ']', '>'] ++ rest) = .again rest
      rw [skipMarkup]
      exact hfind ▸ rfl

/-- What stands between `<?` and `?>`. -/
theorem leaves_question {body : List Char} (h : ¬['?', '>'] <:+: body) (rest : List Char) :
    Leaves (xmlTurn maxAttributes) ('<' :: '?' :: (body ++ ['?', '>']) ++ rest) answer ↔
      Leaves (xmlTurn maxAttributes) rest answer := by
  apply leaves_markup
  have hfind := @afterFirst_closing ['?'] '>' (by decide) _ h rest
  change skipMarkup ['?', '>'] (body ++ ['?', '>'] ++ rest) = .again rest
  rw [skipMarkup]
  exact hfind ▸ rfl

/-- Characters before a text without `?>` that hold no question mark. -/
theorem no_question_append {cs data : List Char} (hcs : '?' ∉ cs) (h : ¬['?', '>'] <:+: data) :
    ¬['?', '>'] <:+: cs ++ data := by
  induction cs with
  | nil => exact h
  | cons c cs ih =>
      intro hinside
      rcases List.infix_cons_iff.mp hinside with hbegins | hlater
      · have hc := (List.cons_prefix_cons.mp hbegins).1
        exact hcs (hc ▸ List.mem_cons_self)
      · exact ih (fun hmem => hcs (List.mem_cons_of_mem c hmem)) hlater

theorem no_question_of_not_mem {cs : List Char} (h : '?' ∉ cs) : ¬['?', '>'] <:+: cs :=
  fun hinside => h (hinside.subset List.mem_cons_self)

theorem Name.not_mem {name : List Char} (h : Name name) {c : Char} (hc : isNameChar c = false) :
    c ∉ name := fun hmem => h.ne hmem hc rfl

theorem Blank.not_mem {cs : List Char} (h : Blank cs) {c : Char} (hc : isSpace c = false) :
    c ∉ cs := fun hmem => h.ne hmem hc rfl

theorem leaves_instruction {cs : List Char} (h : ProcessingInstruction cs) (rest : List Char) :
    Leaves (xmlTurn maxAttributes) (cs ++ rest) answer ↔
      Leaves (xmlTurn maxAttributes) rest answer := by
  cases h with
  | @target name hname _ =>
      exact leaves_question (no_question_of_not_mem (Name.not_mem hname (by decide))) rest
  | @data name space data hname _ hspace hdata =>
      have hinner := no_question_append (Blank.not_mem hspace.2 (by decide)) hdata
      have hbody := no_question_append (Name.not_mem hname (by decide)) hinner
      have hassoc : name ++ (space ++ (data ++ ['?', '>'])) =
          name ++ (space ++ data) ++ ['?', '>'] := by simp only [List.append_assoc]
      rw [hassoc]
      exact leaves_question hbody rest

/-! ## The XML declaration -/

theorem Declared.not_mem {name value cs : List Char} (h : Declared name value cs)
    (hname : '?' ∉ name) (hvalue : '?' ∉ value) : '?' ∉ cs := by
  cases h with
  | @mk space before after quote hspace hbefore hafter hquote =>
      have hq : '?' ≠ quote := by
        rintro rfl
        exact absurd hquote (by decide)
      simp only [List.mem_append, List.mem_cons, List.not_mem_nil, or_false, not_or]
      exact ⟨Blank.not_mem hspace.2 (by decide), hname, Blank.not_mem hbefore (by decide),
        by decide, Blank.not_mem hafter (by decide), hq, hvalue, hq⟩

theorem not_mem_of_all {p : Char → Bool} {cs : List Char} (h : ∀ c ∈ cs, p c = true) {c : Char}
    (hc : p c = false) : c ∉ cs := by
  intro hmem
  rw [h c hmem] at hc
  exact nomatch hc

theorem XmlDecl.question {cs : List Char} (h : XmlDecl cs) :
    ∃ body, cs = '<' :: '?' :: (body ++ ['?', '>']) ∧ '?' ∉ body := by
  cases h with
  | @mk version encoding standalone blank hversion hencoding hstandalone hblank =>
      obtain ⟨digits, -, hdigits, hversion⟩ := hversion
      have hversion' : '?' ∉ version := by
        refine Declared.not_mem hversion (by decide) ?_
        simp only [List.mem_cons, not_or]
        exact ⟨by decide, by decide, not_mem_of_all hdigits (by decide)⟩
      have hencoding' : '?' ∉ encoding := by
        rcases hencoding with rfl | ⟨c, rest, hc, hrest, hdeclared⟩
        · exact List.not_mem_nil
        · refine Declared.not_mem hdeclared (by decide) ?_
          have hall : ∀ d ∈ c :: rest, (isLetter d || isDigit d || d ∈ ['.', '_', '-']) = true := by
            intro d hd
            cases hd with
            | head => simp [hc]
            | tail _ hd => exact hrest d hd
          exact not_mem_of_all hall (by decide)
      have hstandalone' : '?' ∉ standalone := by
        rcases hstandalone with rfl | hdeclared | hdeclared
        · exact List.not_mem_nil
        · exact Declared.not_mem hdeclared (by decide) (by decide)
        · exact Declared.not_mem hdeclared (by decide) (by decide)
      refine ⟨'x' :: 'm' :: 'l' :: (version ++ (encoding ++ (standalone ++ blank))), ?_, ?_⟩
      · simp only [List.cons_append, List.append_assoc]
      · simp only [List.mem_cons, List.mem_append, not_or]
        exact ⟨by decide, by decide, by decide, hversion', hencoding', hstandalone',
          Blank.not_mem hblank (by decide)⟩

theorem leaves_xmlDecl {cs : List Char} (h : XmlDecl cs) (rest : List Char) :
    Leaves (xmlTurn maxAttributes) (cs ++ rest) answer ↔
      Leaves (xmlTurn maxAttributes) rest answer := by
  obtain ⟨body, rfl, hbody⟩ := XmlDecl.question h
  exact leaves_question (no_question_of_not_mem hbody) rest

theorem leaves_misc {cs : List Char} (h : Misc cs) (rest : List Char) :
    Leaves (xmlTurn maxAttributes) (cs ++ rest) answer ↔
      Leaves (xmlTurn maxAttributes) rest answer := by
  induction h with
  | nil => exact Iff.rfl
  | @space c cs hc _ ih =>
      have hne : c ≠ '<' := fun heq => by
        subst heq
        exact absurd hc (by decide)
      exact (leaves_cons hne _).trans ih
  | comment hcs _ ih => rw [List.append_assoc, leaves_comment hcs, ih]
  | instruction hcs _ ih => rw [List.append_assoc, leaves_instruction hcs, ih]

/-! ## Tags -/

theorem startTag_skip {c : Char} (hc : c ∉ ['\'', '"', '=', '>', '<']) (attributes : Nat)
    (rest : List Char) :
    startTag maxAttributes attributes none (c :: rest) =
      startTag maxAttributes attributes none rest := by
  simp only [List.mem_cons, List.not_mem_nil, or_false, not_or] at hc
  rw [startTag, if_neg (not_or.mpr ⟨hc.1, hc.2.1⟩), if_neg hc.2.2.1, if_neg hc.2.2.2.1,
    if_neg hc.2.2.2.2]

theorem startTag_skip_append {cs : List Char} (hcs : ∀ c ∈ cs, c ∉ ['\'', '"', '=', '>', '<'])
    (attributes : Nat) (rest : List Char) :
    startTag maxAttributes attributes none (cs ++ rest) =
      startTag maxAttributes attributes none rest := by
  induction cs with
  | nil => rfl
  | cons c cs ih =>
      rw [List.cons_append, startTag_skip (hcs c List.mem_cons_self)]
      exact ih fun d hd => hcs d (List.mem_cons_of_mem c hd)

theorem startTag_name {name : List Char} (h : Name name) (attributes : Nat) (rest : List Char) :
    startTag maxAttributes attributes none (name ++ rest) =
      startTag maxAttributes attributes none rest := by
  apply startTag_skip_append
  intro c hc hmem
  have hname := h.chars c hc
  simp only [List.mem_cons, List.not_mem_nil, or_false] at hmem
  rcases hmem with rfl | rfl | rfl | rfl | rfl <;> exact absurd hname (by decide)

theorem startTag_blank {cs : List Char} (h : Blank cs) (attributes : Nat) (rest : List Char) :
    startTag maxAttributes attributes none (cs ++ rest) =
      startTag maxAttributes attributes none rest := by
  apply startTag_skip_append
  intro c hc hmem
  have hspace := h c hc
  simp only [List.mem_cons, List.not_mem_nil, or_false] at hmem
  rcases hmem with rfl | rfl | rfl | rfl | rfl <;> exact absurd hspace (by decide)

/-- A quoted value, whatever it contains besides its quote. -/
theorem startTag_value {quote : Char} {value : List Char} (hvalue : quote ∉ value)
    (attributes : Nat) (rest : List Char) :
    startTag maxAttributes attributes (some quote) (value ++ quote :: rest) =
      startTag maxAttributes attributes none rest := by
  induction value with
  | nil => rw [List.nil_append, startTag, if_pos rfl]
  | cons c value ih =>
      have hc : c ≠ quote := fun heq => hvalue (heq ▸ List.mem_cons_self)
      rw [List.cons_append, startTag, if_neg hc]
      exact ih fun hmem => hvalue (List.mem_cons_of_mem c hmem)

/-- The attributes of a tag take the scan to the text behind them, with one count for each. -/
theorem startTag_attributes (maxAttributes : Nat) {cs : List Char} {names : List (List Char)}
    (h : Attributes cs names) (attributes : Nat) (hle : attributes ≤ maxAttributes) (rest : List Char) :
    startTag maxAttributes attributes none (cs ++ rest) =
      if maxAttributes < attributes + names.length then .leave true
      else startTag maxAttributes (attributes + names.length) none rest := by
  induction h generalizing attributes with
  | blank hblank =>
      rw [startTag_blank hblank, List.length_nil, Nat.add_zero, if_neg (Nat.not_lt.mpr hle)]
  | @cons space name before after value others quote names hspace hname hbefore hafter hquote hvalue
      _ ih =>
      have hq : quote = '\'' ∨ quote = '"' := by
        simp only [List.mem_cons, List.not_mem_nil, or_false] at hquote
        exact hquote.symm
      have heq : startTag maxAttributes attributes none
          ('=' :: (after ++ quote :: (value ++ quote :: others)) ++ rest) =
          if maxAttributes < attributes + 1 then .leave true
          else startTag maxAttributes (attributes + 1) none (others ++ rest) := by
        rw [List.cons_append, startTag, if_neg (by decide), if_pos rfl]
        split
        · rfl
        · rw [List.append_assoc, startTag_blank hafter, List.cons_append, startTag, if_pos hq,
            List.append_assoc, List.cons_append,
            startTag_value (hvalue.quote_not_mem hquote)]
      rw [List.append_assoc, startTag_blank hspace.2, List.append_assoc, startTag_name hname,
        List.append_assoc, startTag_blank hbefore, heq, List.length_cons]
      by_cases hlt : maxAttributes < attributes + 1
      · rw [if_pos hlt, if_pos (by omega)]
      · rw [if_neg hlt, ih (attributes + 1) (Nat.not_lt.mp hlt), Nat.add_assoc,
          Nat.add_comm 1 names.length]

/-- The scan has found too many attributes in a tag, or it goes on with the rest of the text. -/
def Judged (maxAttributes : Nat) (tags : List Nat) (rest : List Char) (answer : Bool) : Prop :=
  if ∃ k ∈ tags, maxAttributes < k then answer = true
  else Leaves (xmlTurn maxAttributes) rest answer

theorem judged_nil (rest : List Char) :
    Judged maxAttributes [] rest answer ↔ Leaves (xmlTurn maxAttributes) rest answer := by
  rw [Judged, if_neg]
  rintro ⟨k, hk, -⟩
  exact nomatch hk

theorem judged_append (maxAttributes : Nat) (answer : Bool) (inner tags : List Nat)
    (rest : List Char) :
    Judged maxAttributes (inner ++ tags) rest answer ↔
      if ∃ k ∈ inner, maxAttributes < k then answer = true
      else Judged maxAttributes tags rest answer := by
  by_cases hinner : ∃ k ∈ inner, maxAttributes < k
  · have hboth : ∃ k ∈ inner ++ tags, maxAttributes < k := by
      obtain ⟨k, hk, hlt⟩ := hinner
      exact ⟨k, List.mem_append_left tags hk, hlt⟩
    rw [Judged, if_pos hboth, if_pos hinner]
  · have hiff : (∃ k ∈ inner ++ tags, maxAttributes < k) ↔ ∃ k ∈ tags, maxAttributes < k := by
      constructor
      · rintro ⟨k, hk, hlt⟩
        rcases List.mem_append.mp hk with hk | hk
        · exact absurd ⟨k, hk, hlt⟩ hinner
        · exact ⟨k, hk, hlt⟩
      · rintro ⟨k, hk, hlt⟩
        exact ⟨k, List.mem_append_right inner hk, hlt⟩
    rw [Judged, if_neg hinner, Judged]
    simp only [hiff]

/-- What the scan does at the start of an element: `ending` is `/>` or `>`. -/
theorem leaves_startTag (answer : Bool) {name attributes : List Char} {names : List (List Char)}
    (hname : Name name) (hattributes : Attributes attributes names) {ending after : List Char}
    (hending : ∀ n, startTag maxAttributes n none ending = .again after) :
    Leaves (xmlTurn maxAttributes) ('<' :: (name ++ (attributes ++ ending))) answer ↔
      if maxAttributes < names.length then answer = true
      else Leaves (xmlTurn maxAttributes) after answer := by
  obtain ⟨c, rest, rfl, hc, hrest⟩ := hname
  have hscan : markup maxAttributes (c :: (rest ++ (attributes ++ ending))) =
      startTag maxAttributes 0 none (attributes ++ ending) := by
    have hmark : c ≠ '!' ∧ c ≠ '?' ∧ c ≠ '/' := by
      refine ⟨?_, ?_, ?_⟩ <;> rintro rfl <;> exact absurd hc (by decide)
    have hbegins (p : Char) (pattern others : List Char) (hp : c ≠ p) :
        ¬(p :: pattern).isPrefixOf (c :: others) = true := by
      intro h
      exact hp (List.cons_prefix_cons.mp (List.isPrefixOf_iff_prefix.mp h)).1.symm
    rw [markup, if_neg (List.cons_ne_nil _ _), if_neg (hbegins _ _ _ hmark.1),
      if_neg (hbegins _ _ _ hmark.1), if_neg (hbegins _ _ _ hmark.2.1), if_neg]
    · rw [List.drop_succ_cons, List.drop_zero]
      apply startTag_skip_append
      intro d hd hmem
      have hdname := hrest d hd
      simp only [List.mem_cons, List.not_mem_nil, or_false] at hmem
      rcases hmem with rfl | rfl | rfl | rfl | rfl <;> exact absurd hdname (by decide)
    · rintro (h | h)
      · exact hmark.2.2 (Option.some.inj h)
      · exact hmark.1 (Option.some.inj h)
  have hturn := startTag_attributes maxAttributes hattributes 0 (Nat.zero_le _) ending
  rw [Nat.zero_add] at hturn
  by_cases hlt : maxAttributes < names.length
  · rw [if_pos hlt] at hturn ⊢
    exact leaves_iff_of_leave
      (((xmlTurn_markup maxAttributes _).trans hscan).trans hturn)
  · rw [if_neg hlt] at hturn ⊢
    exact leaves_markup ((hscan.trans hturn).trans (hending _))

theorem startTag_slash (maxAttributes : Nat) (rest : List Char) (n : Nat) :
    startTag maxAttributes n none ('/' :: '>' :: rest) = .again rest := rfl

theorem startTag_close (maxAttributes : Nat) (rest : List Char) (n : Nat) :
    startTag maxAttributes n none ('>' :: rest) = .again rest := rfl

theorem leaves_endTag {name blank : List Char} (hname : Name name) (hblank : Blank blank)
    (rest : List Char) :
    Leaves (xmlTurn maxAttributes) ('<' :: '/' :: (name ++ (blank ++ ['>'])) ++ rest) answer ↔
      Leaves (xmlTurn maxAttributes) rest answer := by
  apply leaves_markup
  have hbody : ¬['>'] <:+: name ++ blank := by
    intro hinside
    have hmem : '>' ∈ name ++ blank := hinside.subset List.mem_cons_self
    rcases List.mem_append.mp hmem with hmem | hmem
    · exact Name.not_mem hname (by decide) hmem
    · exact Blank.not_mem hblank (by decide) hmem
  have hfind := @afterFirst_closing [] '>' (by decide) _ hbody rest
  rw [List.nil_append, List.append_assoc name] at hfind
  change skipMarkup ['>'] (name ++ (blank ++ ['>']) ++ rest) = .again rest
  rw [skipMarkup, hfind]

theorem leaves_reference {cs : List Char} (h : Reference cs) (rest : List Char) :
    Leaves (xmlTurn maxAttributes) (cs ++ rest) answer ↔
      Leaves (xmlTurn maxAttributes) rest answer :=
  leaves_append (fun _ hc => h.ne hc (by decide)) rest

/-- An element with content, when the scan judges the content. -/
theorem leaves_tags {name attributes content blank rest : List Char} {names : List (List Char)}
    {inner : List Nat} (hname : Name name) (hattributes : Attributes attributes names)
    (hblank : Blank blank)
    (hcontent : Leaves (xmlTurn maxAttributes)
        (content ++ ('<' :: '/' :: (name ++ (blank ++ ['>'])) ++ rest)) answer ↔
      Judged maxAttributes inner ('<' :: '/' :: (name ++ (blank ++ ['>'])) ++ rest) answer) :
    Leaves (xmlTurn maxAttributes)
        ('<' :: (name ++ (attributes ++ '>' ::
          (content ++ '<' :: '/' :: (name ++ (blank ++ ['>']))))) ++ rest) answer ↔
      Judged maxAttributes (names.length :: inner) rest answer := by
  have htag := leaves_startTag answer hname hattributes
    (startTag_close maxAttributes (content ++ ('<' :: '/' :: (name ++ (blank ++ ['>'])) ++ rest)))
  have hjudged := judged_append maxAttributes answer [names.length] inner rest
  have hrest : Judged maxAttributes inner ('<' :: '/' :: (name ++ (blank ++ ['>'])) ++ rest)
      answer ↔ Judged maxAttributes inner rest answer := by
    rw [Judged, Judged, leaves_endTag hname hblank rest]
  simp only [List.mem_singleton, exists_eq_left] at hjudged
  simp only [List.cons_append, List.append_assoc, List.nil_append] at htag hcontent hrest ⊢
  rw [htag, hcontent, hrest, ← hjudged]
  rfl

mutual

theorem leaves_element {cs : List Char} {tags : List Nat} : Element cs tags →
    ∀ rest, Leaves (xmlTurn maxAttributes) (cs ++ rest) answer ↔
      Judged maxAttributes tags rest answer
  | @Element.empty name attributes names hname hattributes _, rest => by
      have htag := leaves_startTag answer hname hattributes (startTag_slash maxAttributes rest)
      simp only [List.cons_append, List.append_assoc, List.nil_append]
      rw [htag, Judged]
      simp only [List.mem_singleton, exists_eq_left]
  | @Element.tags name attributes content blank names inner hname hattributes _ hcontent hblank,
    rest => by
      have hinner := leaves_content hcontent ('<' :: '/' :: (name ++ (blank ++ ['>'])) ++ rest)
      exact leaves_tags hname hattributes hblank hinner

theorem leaves_content {cs : List Char} {tags : List Nat} : Content cs tags →
    ∀ rest, Leaves (xmlTurn maxAttributes) (cs ++ rest) answer ↔
      Judged maxAttributes tags rest answer
  | .nil, rest => (judged_nil rest).symm
  | .char hc _ hrest, rest =>
      (leaves_cons (fun heq => hc (heq ▸ List.mem_cons_self)) _).trans (leaves_content hrest rest)
  | .reference hcs hrest, rest => by
      rw [List.append_assoc, leaves_reference hcs]
      exact leaves_content hrest rest
  | .cdSect hcs hrest, rest => by
      rw [List.append_assoc, leaves_cdSect hcs]
      exact leaves_content hrest rest
  | .comment hcs hrest, rest => by
      rw [List.append_assoc, leaves_comment hcs]
      exact leaves_content hrest rest
  | .instruction hcs hrest, rest => by
      rw [List.append_assoc, leaves_instruction hcs]
      exact leaves_content hrest rest
  | .element hcs hrest, rest => by
      rw [List.append_assoc, leaves_element hcs, judged_append, Judged, leaves_content hrest rest]

end

/-- The scan of a document. -/
theorem leaves_document {cs : List Char} {tags : List Nat} (h : Document cs tags) :
    Leaves (xmlTurn maxAttributes) cs answer ↔
      (answer = true ↔ ∃ k ∈ tags, maxAttributes < k) := by
  cases h with
  | @mk declaration before root after tags hdeclaration hbefore hroot hafter _ =>
      have hstart : Leaves (xmlTurn maxAttributes) (declaration ++ (before ++ (root ++ after)))
          answer ↔ Leaves (xmlTurn maxAttributes) (before ++ (root ++ after)) answer := by
        rcases hdeclaration with rfl | hdeclaration
        · exact Iff.rfl
        · exact leaves_xmlDecl hdeclaration _
      have hend : Leaves (xmlTurn maxAttributes) after answer ↔ answer = false := by
        have hmisc := @leaves_misc maxAttributes answer _ hafter []
        rw [List.append_nil] at hmisc
        exact hmisc.trans (leaves_iff_of_leave rfl)
      rw [hstart, leaves_misc hbefore, leaves_element hroot, Judged, hend]
      by_cases hlt : ∃ k ∈ tags, maxAttributes < k
      · rw [if_pos hlt]
        exact ⟨fun h => ⟨fun _ => hlt, fun _ => h⟩, fun h => h.mpr hlt⟩
      · rw [if_neg hlt]
        cases answer with
        | false => exact ⟨fun _ => ⟨fun h => (nomatch h), fun h => absurd h hlt⟩, fun _ => rfl⟩
        | true => exact ⟨fun h => (nomatch h), fun h => absurd (h.mp rfl) hlt⟩

/-- The scan ends on every text, and on a document it answers whether some tag has more attributes
than the limit. -/
theorem xmlAttributeLimitExceeded_exact (text : String) (maxAttributes : Nat) :
    (∃ turns answer, xmlAttributeLimitExceeded turns text maxAttributes = some answer) ∧
      ∀ tags, Document text.toList tags → ∀ turns answer,
        xmlAttributeLimitExceeded turns text maxAttributes = some answer →
        (answer = true ↔ ∃ k ∈ tags, maxAttributes < k) := by
  refine ⟨⟨_, run_xmlTurn maxAttributes text.toList⟩, ?_⟩
  intro tags hdocument turns answer hrun
  exact (leaves_document hdocument).mp ⟨turns, hrun⟩

/-- A comment that looks like a tag, and an attribute whose value looks like the end of one. -/
theorem sampleDocument : Document "<!--<x y=--><r a='=>'/>".toList [1] := by
  have hcomment : Comment "<!--<x y=-->".toList :=
    @Comment.mk "<x y=".toList (.char (by decide) (.char (by decide) (.char (by decide)
      (.char (by decide) (.char (by decide) .nil)))))
  have hattributes : Attributes " a='=>'".toList [['a']] :=
    @Attributes.cons [' '] ['a'] [] [] ['=', '>'] [] '\'' [] ⟨by decide, by decide⟩
      ⟨'a', [], rfl, by decide, List.forall_mem_nil _⟩ (by decide) (by decide) (by decide)
      (.char (by decide) (.char (by decide) .nil)) (.blank (by decide))
  have hroot : Element "<r a='=>'/>".toList [1] :=
    @Element.empty ['r'] " a='=>'".toList [['a']] ⟨'r', [], rfl, by decide, List.forall_mem_nil _⟩ hattributes
      (by decide)
  exact @Document.mk [] _ _ [] [1] (.inl rfl) (.comment hcomment .nil) hroot .nil
    (List.all_eq_true.mp (by decide))

theorem xmlAttributeLimitExceeded_sample :
    ∃ turns, xmlAttributeLimitExceeded turns "<!--<x y=--><r a='=>'/>" 0 = some true := by
  obtain ⟨⟨turns, answer, hrun⟩, hexact⟩ :=
    xmlAttributeLimitExceeded_exact "<!--<x y=--><r a='=>'/>" 0
  have htrue := (hexact [1] sampleDocument turns answer hrun).mpr ⟨1, by decide, by decide⟩
  exact ⟨turns, htrue ▸ hrun⟩

end ContentInspector

end Polymorph
