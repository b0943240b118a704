import Polymorph.Inspection.Identify
import Polymorph.Text.Utf8

/-!
# Text behind the end of the probe

The probe is a number of first bytes. A text file is identified as text when the probe ends at the
start of a character, and as binary when it cuts a character.
-/

set_option autoImplicit false

namespace Polymorph

namespace ContentInspector

open JsonText

variable {R : Type}

/-- The signatures that `_identify` tests for, except that of WebP. -/
def binarySignatures : List (List UInt8) :=
  zipSignatures ++ [pdfSignature, sqliteSignature, parquetSignature, oleSignature, gzipSignature] ++
    imageSignatures ++ executableSignatures

/-! ## No signature in a probe -/

theorem isWebp_of_starts {head data : List UInt8} (h : head <+: data) (hwebp : isWebp head = true) :
    isWebp data = true := by
  simp only [isWebp, Bool.and_eq_true, decide_eq_true_eq] at hwebp ⊢
  obtain ⟨⟨hriff, hlength⟩, hname⟩ := hwebp
  obtain ⟨rest, rfl⟩ := h
  refine ⟨⟨hriff.trans ⟨rest, rfl⟩, ?_⟩, ?_⟩
  · rw [List.length_append]
    omega
  · rw [List.drop_append_of_le_length (by omega), List.take_append_of_le_length, hname]
    rw [List.length_drop]
    omega

/-- A probe of data without signatures has none. -/
theorem identifySignature_eq_none {data : List UInt8} (hsignatures : ∀ s ∈ binarySignatures, ¬s <+: data)
    (hwebp : isWebp data = false) {head : List UInt8} (hhead : head <+: data)
    (file : Option OpenFile) (tail : List UInt8) (size : Nat) :
    identifySignature file head tail size = none := by
  have hnone : ∀ s ∈ binarySignatures, ¬s <+: head :=
    fun s hs hstarts => hsignatures s hs (hstarts.trans hhead)
  have hany {signatures : List (List UInt8)} (hsub : ∀ s ∈ signatures, s ∈ binarySignatures) :
      ¬startsWithAny head signatures = true := by
    intro hstarts
    obtain ⟨s, hs, hat⟩ := List.any_eq_true.mp hstarts
    exact hnone s (hsub s hs) (of_decide_eq_true hat)
  rw [identifySignature.eq_def, if_neg (hany (by decide)), if_neg (hnone _ (by decide)),
    if_neg (hnone _ (by decide)), if_neg (fun h => hnone parquetSignature (by decide) h.1),
    if_neg (hnone _ (by decide)), if_neg (hnone _ (by decide)), if_neg, if_neg (hany (by decide))]
  rintro (himage | hwebp')
  · exact hany (by decide) himage
  · rw [isWebp_of_starts hhead hwebp'] at hwebp
    exact nomatch hwebp

/-- The first byte decides that data has no signature. -/
theorem no_signature_of_first {b : UInt8}
    (hfirst : ∀ s ∈ [0x52, 0x49, 0x46, 0x46] :: binarySignatures,
      s.head? ≠ none ∧ s.head? ≠ some b) (rest : List UInt8) :
    (∀ s ∈ binarySignatures, ¬s <+: b :: rest) ∧ isWebp (b :: rest) = false := by
  have hstarts {s : List UInt8} (hs : s.head? ≠ none ∧ s.head? ≠ some b) : ¬s <+: b :: rest := by
    cases s with
    | nil => exact absurd rfl hs.1
    | cons c s =>
        intro hstarts
        rw [List.head?_cons, (List.cons_prefix_cons.mp hstarts).1] at hs
        exact hs.2 rfl
  refine ⟨fun s hs => hstarts (hfirst s (List.mem_cons_of_mem _ hs)), ?_⟩
  rw [isWebp, decide_eq_false (hstarts (hfirst _ List.mem_cons_self))]
  rfl

/-! ## Decoding a probe -/

theorem hasUtf16Bom_take (chars : List Char) (n : Nat) :
    hasUtf16Bom ((utf8Bytes chars).take n) = false := by
  rw [hasUtf16Bom, Bool.or_eq_false_iff]
  have hfirst {b c : UInt8} (hb : ¬b.IsUTF8FirstByte) : ¬[b, c] <+: (utf8Bytes chars).take n := by
    intro hstarts
    obtain ⟨rest, hrest⟩ := hstarts.trans (List.take_prefix _ _)
    have hboundary := (onBoundary_iff chars 0).mpr ⟨0, rfl⟩
    refine hb (hboundary b ?_)
    rw [← hrest]
    rfl
  exact ⟨decide_eq_false (hfirst (by decide)), decide_eq_false (hfirst (by decide))⟩

/-- The byte order mark is the encoding of its character. -/
theorem utf8Bom_starts_iff (chars : List Char) :
    utf8Bom <+: utf8Bytes chars ↔ ['\ufeff'] <+: chars := by
  have hbom : utf8Bom = utf8Bytes ['\ufeff'] := by decide
  rw [hbom]
  constructor
  · exact starts_of_utf8Bytes
  · rintro ⟨rest, rfl⟩
    exact ⟨utf8Bytes rest, (utf8Bytes_append _ _).symm⟩

/-- The bytes of a text decode to the text without its byte order mark. -/
theorem decodeUtf8Sig_utf8Bytes (chars : List Char) :
    ∃ text, decodeUtf8Sig (utf8Bytes chars) = some text ∧ text.toList <:+ chars := by
  rw [decodeUtf8Sig]
  split
  · rename_i hbom
    obtain ⟨rest, rfl⟩ := (utf8Bom_starts_iff chars).mp hbom
    have hdrop : (utf8Bytes (['\ufeff'] ++ rest)).drop utf8Bom.length = utf8Bytes rest := by
      rw [utf8Bytes_append]
      exact List.drop_left
    rw [hdrop, decodeUtf8_utf8Bytes]
    exact ⟨_, rfl, by rw [String.toList_ofList]; exact List.suffix_append _ _⟩
  · rw [decodeUtf8_utf8Bytes]
    exact ⟨_, rfl, by rw [String.toList_ofList]⟩

/-- A text that starts with another character than the byte order mark decodes to itself. -/
theorem decodeUtf8Sig_utf8Bytes_of_cons {chars rest : List Char} {c : Char}
    (h : chars = c :: rest) (hc : c ≠ '\ufeff') :
    decodeUtf8Sig (utf8Bytes chars) = some (String.ofList chars) := by
  have hbom : ¬utf8Bom <+: utf8Bytes chars := by
    rw [utf8Bom_starts_iff, h]
    intro hstarts
    exact hc (List.cons_prefix_cons.mp hstarts).1.symm
  rw [decodeUtf8Sig, if_neg hbom, decodeUtf8_utf8Bytes]

/-- First bytes that are no text do not become one without a byte order mark. -/
theorem decodeUtf8_of_decodeUtf8Sig {data : List UInt8} {text : String}
    (h : decodeUtf8Sig data = some text) : (decodeUtf8 data).isSome = true := by
  rw [decodeUtf8Sig] at h
  split at h
  · rename_i hbom
    obtain ⟨rest, rfl⟩ := hbom
    have hbytes := utf8Bytes_eq_of_decodeUtf8 h
    rw [List.drop_left] at hbytes
    have hall : utf8Bom ++ rest = utf8Bytes ('\ufeff' :: text.toList) := by
      rw [← hbytes]
      rfl
    rw [hall, decodeUtf8_utf8Bytes]
    rfl
  · rw [h]
    rfl

/-- The first bytes of a text without control characters are text when they end at the start of a
character. -/
theorem decodeText_take_isSome_iff {chars : List Char} (hcontrol : ∀ c ∈ chars, isControl c = false)
    (n : Nat) :
    (decodeText ((utf8Bytes chars).take n)).isSome = true ↔ OnBoundary (utf8Bytes chars) n := by
  rw [decodeText, hasUtf16Bom_take, if_neg Bool.false_ne_true]
  constructor
  · intro hsome
    rw [← decodeUtf8_take_iff]
    split at hsome
    · exact nomatch hsome
    · exact decodeUtf8_of_decodeUtf8Sig ‹_›
  · intro hboundary
    obtain ⟨count, hcount⟩ := (onBoundary_iff chars n).mp hboundary
    obtain ⟨text, htext, hchars⟩ := decodeUtf8Sig_utf8Bytes (chars.take count)
    rw [hcount, htext]
    have hnone : text.toList.countP isControl = 0 := by
      rw [List.countP_eq_zero]
      intro c hc
      rw [hcontrol c (List.mem_of_mem_take (hchars.subset hc))]
      exact Bool.false_ne_true
    have hratio : ¬text.length < 100 * text.toList.countP isControl := by
      rw [hnone]
      exact Nat.not_lt_zero _
    dsimp only
    rw [if_neg hratio, ite_self]
    rfl

/-! ## No kind of text is binary -/

theorem identifyXml_kind {parsers : Parsers} {policy : FileTrustPolicy R} {text : String}
    {identification : Identification}
    (h : identifyXml parsers policy text = some identification) : identification.kind ≠ .binary := by
  rw [identifyXml] at h
  split at h
  · exact nomatch h
  · split at h
    · cases h
      exact nofun
    · split at h <;> cases h <;> exact nofun

theorem identifyComplete_kind {parsers : Parsers} {policy : FileTrustPolicy R} {size : Nat}
    {text : String} {identification : Identification}
    (h : identifyComplete parsers policy size text = some identification) :
    identification.kind ≠ .binary := by
  rw [identifyComplete] at h
  dsimp only at h
  split at h
  · cases h
    exact nofun
  · split at h
    · cases h
      exact nofun
    · split at h
      · cases h
        exact nofun
      · cases h
        exact nofun
      · split at h
        · split at h
          · cases h
            exact nofun
          · cases h
            exact nofun
          · exact identifyXml_kind h
        · split at h
          · cases h
            exact nofun
          · exact identifyXml_kind h

theorem identifyProbe_kind (text : String) : (identifyProbe text).kind ≠ .binary := by
  rw [identifyProbe]
  split
  · exact nofun
  · split <;> exact nofun

/-- Content without a signature is binary when its probe is no text. -/
theorem identifyText_kind (parsers : Parsers) (policy : FileTrustPolicy R) (file : Option OpenFile)
    (head : List UInt8) (size : Nat) :
    (identifyText parsers policy file head size).kind ≠ .binary ↔ (decodeText head).isSome = true := by
  rw [identifyText]
  cases hdecode : decodeText head with
  | none => exact ⟨fun h => absurd rfl h, fun h => nomatch h⟩
  | some text =>
      refine iff_of_true ?_ rfl
      dsimp only
      split
      · exact nofun
      · cases hcomplete : (completeText policy file size).bind
          (identifyComplete parsers policy size) with
        | none => exact identifyProbe_kind text
        | some identification =>
            obtain ⟨complete, -, hidentified⟩ := Option.bind_eq_some_iff.mp hcomplete
            exact identifyComplete_kind hidentified

/-- A text file without a signature is not identified as binary if and only if the probe ends at
the end of the file or before a byte that begins a character. -/
theorem identify_text_iff {data : List UInt8} {text : String} (hdata : data ≠ [])
    (htext : decodeUtf8 data = some text) (hsignatures : ∀ s ∈ binarySignatures, ¬s <+: data)
    (hwebp : isWebp data = false) (hcontrol : ∀ c ∈ text.toList, isControl c = false)
    (parsers : Parsers) (policy : FileTrustPolicy R) (file : Option OpenFile) (tail : List UInt8) :
    (identify parsers policy file (data.take policy.maxProbeBytes) tail data.length).kind ≠ .binary ↔
      ∀ b, data[policy.maxProbeBytes]? = some b → b.IsUTF8FirstByte := by
  have hbytes := utf8Bytes_eq_of_decodeUtf8 htext
  have hsize : data.length ≠ 0 := fun hnil => hdata (List.length_eq_zero_iff.mp hnil)
  rw [identify, if_neg hsize,
    identifySignature_eq_none hsignatures hwebp (List.take_prefix _ _)]
  dsimp only
  rw [identifyText_kind, ← hbytes]
  exact decodeText_take_isSome_iff hcontrol policy.maxProbeBytes

/-! ## A text that the default probe cuts -/

/-- No parser accepts anything. -/
def noParsers : Parsers where
  jsonLoads _ := .rejected
  json5Loads _ := .rejected
  saxParse _ _ _ _ := .rejected

/-- The limits by default, and no limit on ratios. -/
def standardPolicy : FileTrustPolicy Unit where
  maxCompressionRatio := ()
  positive := FileTrustPolicy.default_positive

/-- A file that is no archive. -/
def plainFile (data : List UInt8) : OpenFile where
  read n := .ok (data.take n)
  inspectZip := plainText 0 "no archive"
  inspectGzip _ _ _ := plainText 0 "no archive"

/-- A text whose last character of two bytes begins at an offset. -/
def longText (n : Nat) : List Char := List.replicate n 'a' ++ ['é']

theorem utf8Bytes_longText (n : Nat) :
    utf8Bytes (longText n) = List.replicate n 0x61 ++ [0xc3, 0xa9] := by
  induction n with
  | zero => decide
  | succ n ih =>
      rw [longText, List.replicate_succ, List.cons_append, utf8Bytes_cons]
      change String.utf8EncodeChar 'a' ++ utf8Bytes (longText n) = _
      rw [ih, List.replicate_succ]
      rfl

theorem longText_control (n : Nat) : ∀ c ∈ longText n, isControl c = false := by
  intro c hc
  rcases List.mem_append.mp hc with hc | hc
  · rw [List.eq_of_mem_replicate hc]
    decide
  · rw [List.mem_singleton.mp hc]
    decide

/-- A probe that ends inside the last character. -/
theorem longText_not_text (n : Nat) :
    (decodeText ((utf8Bytes (longText n)).take (n + 1))).isSome = false := by
  rw [Bool.eq_false_iff]
  intro hsome
  have hcut : (utf8Bytes (longText n))[n + 1]? = some 0xa9 := by
    rw [utf8Bytes_longText, List.getElem?_append_right (by rw [List.length_replicate]; omega),
      List.length_replicate, Nat.add_sub_cancel_left]
    rfl
  have hfirst := (decodeText_take_isSome_iff (longText_control n) _).mp hsome 0xa9 hcut
  exact absurd hfirst (by decide)

/-- The first character of the text decides about its signature. -/
theorem longText_signatures (n : Nat) :
    (∀ s ∈ binarySignatures, ¬s <+: List.replicate (n + 1) 0x61 ++ [0xc3, 0xa9]) ∧
      isWebp (List.replicate (n + 1) 0x61 ++ [0xc3, 0xa9]) = false := by
  rw [List.replicate_succ, List.cons_append]
  exact no_signature_of_first (by decide) _

/-- Whatever the probe size is, a text that it cuts is taken for binary. -/
theorem identify_longText (parsers : Parsers) (policy : FileTrustPolicy R)
    (file : Option OpenFile) (tail : List UInt8) (n : Nat) (hprobe : policy.maxProbeBytes = n + 2) :
    (identify parsers policy file ((utf8Bytes (longText (n + 1))).take policy.maxProbeBytes) tail
      (utf8Bytes (longText (n + 1))).length).kind = .binary := by
  have hsignatures := longText_signatures n
  rw [← utf8Bytes_longText] at hsignatures
  have hsize : (utf8Bytes (longText (n + 1))).length ≠ 0 := by
    rw [utf8Bytes_longText, List.length_append]
    exact Nat.succ_ne_zero _
  rw [identify, if_neg hsize,
    identifySignature_eq_none hsignatures.1 hsignatures.2 (List.take_prefix _ _)]
  have hkind := (identifyText_kind parsers policy file
    ((utf8Bytes (longText (n + 1))).take policy.maxProbeBytes)
    (utf8Bytes (longText (n + 1))).length).not
  rw [hprobe, longText_not_text, ne_eq, not_not] at hkind
  rw [hprobe]
  exact hkind.mpr Bool.false_ne_true

/-- With the default limits, a text is binary because of its length. -/
theorem identify_defaultPolicy :
    ∃ data text, data ≠ [] ∧ decodeUtf8 data = some text ∧
      (∀ s ∈ binarySignatures, ¬s <+: data) ∧ isWebp data = false ∧
      (∀ c ∈ text.toList, isControl c = false) ∧
      (identify noParsers standardPolicy (some (plainFile data))
        (data.take standardPolicy.maxProbeBytes) (data.drop (data.length - 8)) data.length).kind =
        .binary := by
  have hsignatures := longText_signatures (256 * 1024 - 2)
  rw [← utf8Bytes_longText] at hsignatures
  refine ⟨utf8Bytes (longText (256 * 1024 - 2 + 1)), String.ofList (longText (256 * 1024 - 2 + 1)), ?_,
    decodeUtf8_utf8Bytes _, hsignatures.1, hsignatures.2, ?_,
    identify_longText noParsers standardPolicy _ _ (256 * 1024 - 2) rfl⟩
  · rw [utf8Bytes_longText]
    exact List.append_ne_nil_of_right_ne_nil _ (List.cons_ne_nil _ _)
  · rw [String.toList_ofList]
    exact longText_control _

theorem identify_text_iff_sample :
    (identify noParsers standardPolicy none [0xc3, 0xa9] [] 2).kind ≠ .binary :=
  (identify_text_iff (List.cons_ne_nil _ _) (by decide : decodeUtf8 [0xc3, 0xa9] = some "é")
    (by decide) (by decide) (List.forall_mem_singleton.mpr (by decide)) noParsers standardPolicy none
    []).mpr (by
      intro b hb
      rw [List.getElem?_eq_none (by decide)] at hb
      exact nomatch hb)

end ContentInspector

end Polymorph
