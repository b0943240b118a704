import Mathlib.Data.List.Basic

/-!
# The grammar of XML

The productions of XML 1.0 for documents without a document type declaration, as relations on the
characters of a text. An element or its content is read with the number of attributes of each of
its tags. A reference may name any entity, so that the relations hold of every well-formed document
and of some more.
-/

set_option autoImplicit false

namespace XmlText

/-- A character between two code points. -/
def inRange (low high : Nat) (c : Char) : Bool := low ≤ c.toNat && c.toNat ≤ high

/-- `Char` -/
def isXmlChar (c : Char) : Bool :=
  c.toNat ∈ [0x9, 0xa, 0xd] || inRange 0x20 0xd7ff c || inRange 0xe000 0xfffd c ||
    inRange 0x10000 0x10ffff c

/-- The characters of `S`. -/
def isSpace (c : Char) : Bool := c.toNat ∈ [0x20, 0x9, 0xd, 0xa]

def isDigit (c : Char) : Bool := inRange 0x30 0x39 c

def isLetter (c : Char) : Bool := inRange 0x41 0x5a c || inRange 0x61 0x7a c

def isHexDigit (c : Char) : Bool := isDigit c || inRange 0x41 0x46 c || inRange 0x61 0x66 c

/-- `NameStartChar` -/
def isNameStartChar (c : Char) : Bool :=
  c = ':' || c = '_' || isLetter c || inRange 0xc0 0xd6 c || inRange 0xd8 0xf6 c ||
    inRange 0xf8 0x2ff c || inRange 0x370 0x37d c || inRange 0x37f 0x1fff c ||
    inRange 0x200c 0x200d c || inRange 0x2070 0x218f c || inRange 0x2c00 0x2fef c ||
    inRange 0x3001 0xd7ff c || inRange 0xf900 0xfdcf c || inRange 0xfdf0 0xfffd c ||
    inRange 0x10000 0xeffff c

/-- `NameChar` -/
def isNameChar (c : Char) : Bool :=
  isNameStartChar c || c = '-' || c = '.' || isDigit c || c.toNat = 0xb7 ||
    inRange 0x300 0x36f c || inRange 0x203f 0x2040 c

/-- `Name` -/
def Name (cs : List Char) : Prop :=
  ∃ c rest, cs = c :: rest ∧ isNameStartChar c = true ∧ ∀ d ∈ rest, isNameChar d = true

/-- Optional white space, `S?`. -/
def Blank (cs : List Char) : Prop := ∀ c ∈ cs, isSpace c = true

instance (cs : List Char) : Decidable (Blank cs) :=
  List.decidableBAll (fun c => isSpace c = true) cs

/-- White space, `S`. -/
def Space (cs : List Char) : Prop := cs ≠ [] ∧ Blank cs

/-- `Reference` -/
inductive Reference : List Char → Prop
  | entity {name : List Char} (hname : Name name) : Reference ('&' :: (name ++ [';']))
  | decimal {digits : List Char} (hne : digits ≠ []) (hdigits : ∀ d ∈ digits, isDigit d = true) :
      Reference ('&' :: '#' :: (digits ++ [';']))
  | hex {digits : List Char} (hne : digits ≠ []) (hdigits : ∀ d ∈ digits, isHexDigit d = true) :
      Reference ('&' :: '#' :: 'x' :: (digits ++ [';']))

/-- What stands between the quotes of an `AttValue`. -/
inductive AttText (quote : Char) : List Char → Prop
  | nil : AttText quote []
  | char {c : Char} {rest : List Char} (hc : c ∉ ['<', '&', quote]) (hrest : AttText quote rest) :
      AttText quote (c :: rest)
  | reference {ref rest : List Char} (href : Reference ref) (hrest : AttText quote rest) :
      AttText quote (ref ++ rest)

/-- `(S Attribute)* S?`, with the names of the attributes. -/
inductive Attributes : List Char → List (List Char) → Prop
  | blank {cs : List Char} (hblank : Blank cs) : Attributes cs []
  | cons {space name before after value rest : List Char} {quote : Char} {names : List (List Char)}
      (hspace : Space space) (hname : Name name) (hbefore : Blank before) (hafter : Blank after)
      (hquote : quote ∈ ['"', '\'']) (hvalue : AttText quote value)
      (hrest : Attributes rest names) :
      Attributes (space ++ (name ++ (before ++ '=' :: (after ++ quote :: (value ++ quote :: rest)))))
        (name :: names)

/-- What stands inside a comment: no two hyphens in a row, and none at the end. -/
inductive CommentText : List Char → Prop
  | nil : CommentText []
  | char {c : Char} {rest : List Char} (hc : c ≠ '-') (hrest : CommentText rest) :
      CommentText (c :: rest)
  | hyphen {c : Char} {rest : List Char} (hc : c ≠ '-') (hrest : CommentText rest) :
      CommentText ('-' :: c :: rest)

/-- `Comment` -/
inductive Comment : List Char → Prop
  | mk {body : List Char} (hbody : CommentText body) :
      Comment ('<' :: '!' :: '-' :: '-' :: (body ++ ['-', '-', '>']))

/-- `CDSect` -/
inductive CdSect : List Char → Prop
  | mk {body : List Char} (hbody : ¬[']', ']', '>'] <:+: body) :
      CdSect ('<' :: '!' :: '[' :: 'C' :: 'D' :: 'A' :: 'T' :: 'A' :: '[' :: (body ++ [']', ']', '>']))

/-- `PI`: a target other than `xml`, and data after white space. -/
inductive ProcessingInstruction : List Char → Prop
  | target {name : List Char} (hname : Name name) (htarget : name.map Char.toLower ≠ ['x', 'm', 'l']) :
      ProcessingInstruction ('<' :: '?' :: (name ++ ['?', '>']))
  | data {name space data : List Char} (hname : Name name)
      (htarget : name.map Char.toLower ≠ ['x', 'm', 'l']) (hspace : Space space)
      (hdata : ¬['?', '>'] <:+: data) :
      ProcessingInstruction ('<' :: '?' :: (name ++ (space ++ (data ++ ['?', '>']))))

/-- `S name Eq` and a quoted value, in the XML declaration. -/
inductive Declared (name value : List Char) : List Char → Prop
  | mk {space before after : List Char} {quote : Char} (hspace : Space space)
      (hbefore : Blank before) (hafter : Blank after) (hquote : quote ∈ ['"', '\'']) :
      Declared name value
        (space ++ (name ++ (before ++ '=' :: (after ++ quote :: (value ++ [quote])))))

/-- `VersionInfo` -/
def VersionInfo (cs : List Char) : Prop :=
  ∃ digits, digits ≠ [] ∧ (∀ d ∈ digits, isDigit d = true) ∧
    Declared "version".toList ('1' :: '.' :: digits) cs

/-- `EncodingDecl` -/
def EncodingDecl (cs : List Char) : Prop :=
  ∃ c rest, isLetter c = true ∧
    (∀ d ∈ rest, (isLetter d || isDigit d || d ∈ ['.', '_', '-']) = true) ∧
    Declared "encoding".toList (c :: rest) cs

/-- `SDDecl` -/
def SdDecl (cs : List Char) : Prop :=
  Declared "standalone".toList "yes".toList cs ∨ Declared "standalone".toList "no".toList cs

/-- `XMLDecl` -/
inductive XmlDecl : List Char → Prop
  | mk {version encoding standalone blank : List Char} (hversion : VersionInfo version)
      (hencoding : encoding = [] ∨ EncodingDecl encoding)
      (hstandalone : standalone = [] ∨ SdDecl standalone) (hblank : Blank blank) :
      XmlDecl ('<' :: '?' :: 'x' :: 'm' :: 'l' ::
        (version ++ (encoding ++ (standalone ++ (blank ++ ['?', '>'])))))

/-- `Misc*` -/
inductive Misc : List Char → Prop
  | nil : Misc []
  | space {c : Char} {rest : List Char} (hc : isSpace c = true) (hrest : Misc rest) :
      Misc (c :: rest)
  | comment {cs rest : List Char} (hcs : Comment cs) (hrest : Misc rest) : Misc (cs ++ rest)
  | instruction {cs rest : List Char} (hcs : ProcessingInstruction cs) (hrest : Misc rest) :
      Misc (cs ++ rest)

mutual

/-- `element`, with the numbers of attributes of its tags. -/
inductive Element : List Char → List Nat → Prop
  | empty {name attributes : List Char} {names : List (List Char)} (hname : Name name)
      (hattributes : Attributes attributes names) (hunique : names.Nodup) :
      Element ('<' :: (name ++ (attributes ++ ['/', '>']))) [names.length]
  | tags {name attributes content blank : List Char} {names : List (List Char)} {inner : List Nat}
      (hname : Name name) (hattributes : Attributes attributes names) (hunique : names.Nodup)
      (hcontent : Content content inner) (hblank : Blank blank) :
      Element
        ('<' :: (name ++ (attributes ++ '>' :: (content ++ '<' :: '/' :: (name ++ (blank ++ ['>']))))))
        (names.length :: inner)

/-- `content` -/
inductive Content : List Char → List Nat → Prop
  | nil : Content [] []
  | char {c : Char} {rest : List Char} {tags : List Nat} (hc : c ∉ ['<', '&'])
      (hend : ¬[']', ']', '>'] <+: c :: rest) (hrest : Content rest tags) : Content (c :: rest) tags
  | reference {cs rest : List Char} {tags : List Nat} (hcs : Reference cs)
      (hrest : Content rest tags) : Content (cs ++ rest) tags
  | cdSect {cs rest : List Char} {tags : List Nat} (hcs : CdSect cs) (hrest : Content rest tags) :
      Content (cs ++ rest) tags
  | comment {cs rest : List Char} {tags : List Nat} (hcs : Comment cs)
      (hrest : Content rest tags) : Content (cs ++ rest) tags
  | instruction {cs rest : List Char} {tags : List Nat} (hcs : ProcessingInstruction cs)
      (hrest : Content rest tags) : Content (cs ++ rest) tags
  | element {cs rest : List Char} {inner tags : List Nat} (hcs : Element cs inner)
      (hrest : Content rest tags) : Content (cs ++ rest) (inner ++ tags)

end

/-- `document` without `doctypedecl`, with the numbers of attributes of its tags. -/
inductive Document : List Char → List Nat → Prop
  | mk {declaration before root after : List Char} {tags : List Nat}
      (hdeclaration : declaration = [] ∨ XmlDecl declaration) (hbefore : Misc before)
      (hroot : Element root tags) (hafter : Misc after)
      (hchars : ∀ c ∈ declaration ++ (before ++ (root ++ after)), isXmlChar c = true) :
      Document (declaration ++ (before ++ (root ++ after))) tags

/-! ## Characters that the parts leave out -/

theorem Name.chars {name : List Char} (h : Name name) : ∀ c ∈ name, isNameChar c = true := by
  obtain ⟨c, rest, rfl, hc, hrest⟩ := h
  intro d hd
  cases hd with
  | head => simp [isNameChar, hc]
  | tail _ hd => exact hrest d hd

/-- A name does not contain a character that is no name character. -/
theorem Name.ne {name : List Char} (h : Name name) {c d : Char} (hc : c ∈ name)
    (hd : isNameChar d = false) : c ≠ d := by
  rintro rfl
  rw [h.chars c hc] at hd
  exact nomatch hd

theorem Blank.ne {cs : List Char} (h : Blank cs) {c d : Char} (hc : c ∈ cs)
    (hd : isSpace d = false) : c ≠ d := by
  rintro rfl
  rw [h c hc] at hd
  exact nomatch hd

theorem isNameChar_of_isHexDigit {c : Char} (h : isHexDigit c = true) : isNameChar c = true := by
  have hletter : isLetter c = true ∨ isDigit c = true := by
    simp only [isHexDigit, isLetter, isDigit, inRange, Bool.or_eq_true, Bool.and_eq_true,
      decide_eq_true_eq] at h ⊢
    omega
  rcases hletter with hc | hc
  · simp [isNameChar, isNameStartChar, hc]
  · simp [isNameChar, hc]

/-- The characters of a reference are its marks and name characters. -/
theorem Reference.chars {cs : List Char} (h : Reference cs) :
    ∀ c ∈ cs, c ∈ ['&', '#', ';'] ∨ isNameChar c = true := by
  intro c hc
  cases h with
  | entity hname =>
      simp only [List.mem_cons, List.mem_append, List.not_mem_nil, or_false] at hc ⊢
      rcases hc with rfl | hc | rfl
      · exact .inl (.inl rfl)
      · exact .inr (hname.chars c hc)
      · exact .inl (.inr (.inr rfl))
  | decimal _ hdigits =>
      simp only [List.mem_cons, List.mem_append, List.not_mem_nil, or_false] at hc ⊢
      rcases hc with rfl | rfl | hc | rfl
      · exact .inl (.inl rfl)
      · exact .inl (.inr (.inl rfl))
      · exact .inr (by simp [isNameChar, hdigits c hc])
      · exact .inl (.inr (.inr rfl))
  | hex _ hdigits =>
      simp only [List.mem_cons, List.mem_append, List.not_mem_nil, or_false] at hc ⊢
      rcases hc with rfl | rfl | rfl | hc | rfl
      · exact .inl (.inl rfl)
      · exact .inl (.inr (.inl rfl))
      · exact .inr (by decide)
      · exact .inr (isNameChar_of_isHexDigit (hdigits c hc))
      · exact .inl (.inr (.inr rfl))

/-- A reference contains no quote and no angle bracket. -/
theorem Reference.ne {cs : List Char} (h : Reference cs) {c d : Char} (hc : c ∈ cs)
    (hd : d ∉ ['&', '#', ';'] ∧ isNameChar d = false) : c ≠ d := by
  rintro rfl
  rcases h.chars c hc with hmark | hname
  · exact hd.1 hmark
  · rw [hname] at hd
    exact nomatch hd.2

theorem AttText.quote_not_mem {quote : Char} {cs : List Char} (h : AttText quote cs)
    (hquote : quote ∈ ['"', '\'']) : quote ∉ cs := by
  induction h with
  | nil => exact List.not_mem_nil
  | char hc _ ih =>
      intro hmem
      cases hmem with
      | head => exact hc (by simp)
      | tail _ hmem => exact ih hmem
  | reference href _ ih =>
      intro hmem
      rcases List.mem_append.mp hmem with hmem | hmem
      · refine href.ne hmem ?_ rfl
        simp only [List.mem_cons, List.not_mem_nil, or_false] at hquote
        rcases hquote with rfl | rfl <;> decide
      · exact ih hmem

end XmlText
