import Polymorph.Inspection.AttributeScan
import Polymorph.Inspection.Content
import Polymorph.Inspection.LimitScan
import Polymorph.Text.Loading

/-!
# Identifying content

`_identify` decides the kind of a file: by the signature that its first bytes begin with, else as
text, by the parsers that accept it whole. The parsers and the inspections of archives are
parameters.
-/

set_option autoImplicit false

namespace Polymorph

open JsonText

/-- What a parser makes of a text. -/
inductive Parsed where
  | accepted
  | rejected
  | recursionError
deriving DecidableEq

/-- What `defused_sax.parse` makes of a text with a `_BoundedXmlContentHandler`. -/
inductive XmlParsed where
  | accepted
  | rejected
  | depthLimitExceeded
  | elementLimitExceeded
  | attributeLimitExceeded
deriving DecidableEq

/-- The parsers: `json.loads` without non-finite constants, `json5.loads`, and the XML parser with
the limits on depth, elements and attributes. -/
structure Parsers where
  jsonLoads : String → Parsed
  json5Loads : String → Parsed
  saxParse : String → Nat → Nat → Nat → XmlParsed

/-- An open file: what `handle.seek(0)` and `handle.read(n)` return, and what the inspections of
archives report. -/
structure OpenFile where
  read : Nat → Except Exn (List UInt8)
  inspectZip : Identification
  inspectGzip : List UInt8 → List UInt8 → Nat → Identification

namespace ContentInspector

/-! ## Decoding -/

def utf8Bom : List UInt8 := [0xef, 0xbb, 0xbf]

/-- `data.decode("utf-8-sig")` -/
def decodeUtf8Sig (data : List UInt8) : Option String :=
  decodeUtf8 (if utf8Bom <+: data then data.drop utf8Bom.length else data)

/-- The code units of UTF-16. -/
def utf16Units (big : Bool) : List UInt8 → Option (List Nat)
  | [] => some []
  | [_] => none
  | a :: b :: rest =>
      let unit := if big then a.toNat * 256 + b.toNat else b.toNat * 256 + a.toNat
      (utf16Units big rest).map (unit :: ·)

/-- The characters of some code units; surrogates stand in pairs. -/
def utf16Chars : List Nat → Option (List Char)
  | [] => some []
  | [u] => if u < 0xd800 ∨ 0xe000 ≤ u then some [Char.ofNat u] else none
  | u :: v :: rest =>
      if u < 0xd800 ∨ 0xe000 ≤ u then (utf16Chars (v :: rest)).map (Char.ofNat u :: ·)
      else if u < 0xdc00 ∧ 0xdc00 ≤ v ∧ v < 0xe000 then
        (utf16Chars rest).map
          (Char.ofNat (0x10000 + (u - 0xd800) * 0x400 + (v - 0xdc00)) :: ·)
      else none

/-- `data.startswith((b"\xff\xfe", b"\xfe\xff"))` -/
def hasUtf16Bom (data : List UInt8) : Bool := [0xff, 0xfe] <+: data || [0xfe, 0xff] <+: data

/-- `data.decode("utf-16")`, for data with a byte order mark. -/
def decodeUtf16 (data : List UInt8) : Option String := do
  let units ← utf16Units ([0xfe, 0xff] <+: data) (data.drop 2)
  let chars ← utf16Chars units
  return String.ofList chars

/-- A control character that text does not have. -/
def isControl (c : Char) : Bool := c.toNat < 32 && c ∉ ['\t', '\r', '\n', '\x0c']

/-- `_decode_text`. At most one character in a hundred is a control character; the comparison of the
quotient with `0.01` rounds to the exact one. -/
def decodeText (data : List UInt8) : Option String :=
  if hasUtf16Bom data then decodeUtf16 data
  else
    match decodeUtf8Sig data with
    | none => none
    | some text =>
        if text = "" then some text
        else if text.length < 100 * text.toList.countP isControl then none
        else some text

/-- `_read_text`, with the exceptions that its caller catches as no text. -/
def readText (file : OpenFile) (maxBytes : Nat) : Option String :=
  match file.read (maxBytes + 1) with
  | .error _ => none
  | .ok raw =>
      if maxBytes < raw.length then none
      else if hasUtf16Bom raw then decodeUtf16 raw
      else decodeUtf8Sig raw

/-- `text.lstrip("\ufeff\x00 \t\r\n")` -/
def stripLeading (text : List Char) : List Char :=
  text.dropWhile (· ∈ ['\ufeff', '\x00', ' ', '\t', '\r', '\n'])

/-! ## Text -/

/-- `_starts_json_like_container`; `lineComment` and `blockComment` are its inner loops. -/
def startsJsonLike : (lineComment blockComment : Bool) → List Char → Bool
  | _, _, [] => false
  | true, blockComment, c :: rest =>
      startsJsonLike (c ∉ ['\r', '\n', '\u2028', '\u2029']) blockComment rest
  | false, true, [_] => false
  | false, true, c :: d :: rest =>
      if c = '*' ∧ d = '/' then startsJsonLike false false rest
      else startsJsonLike false true (d :: rest)
  | false, false, [c] => c = '[' || c = '{'
  | false, false, c :: d :: rest =>
      if isPySpace c ∨ c = '\ufeff' then startsJsonLike false false (d :: rest)
      else if c = '/' ∧ d = '/' then startsJsonLike true false rest
      else if c = '/' ∧ d = '*' then startsJsonLike false true rest
      else c = '[' || c = '{'

/-- The line boundaries of `str.splitlines`. -/
def isLineBreak (c : Char) : Bool :=
  c.toNat ∈ [0x0a, 0x0b, 0x0c, 0x0d, 0x1c, 0x1d, 0x1e, 0x85, 0x2028, 0x2029]

/-- `text.splitlines()` -/
def splitLines : List Char → List (List Char)
  | [] => []
  | '\r' :: '\n' :: rest => [] :: splitLines rest
  | c :: rest =>
      if isLineBreak c then [] :: splitLines rest
      else
        match splitLines rest with
        | [] => [[c]]
        | line :: lines => (c :: line) :: lines

/-- The lines agree on a delimiter: four in five have it, and three in four of those equally
often. `int(len(lines) * 0.8)` is exact for at most forty lines. -/
def linesAgree (lines : List (List Char)) (delimiter : Char) : Bool :=
  let nonzero := (lines.map (List.count delimiter)).filter (0 < ·)
  let common := (nonzero.map fun n => nonzero.count n).foldl max 0
  max 2 (lines.length * 4 / 5) ≤ nonzero.length && 0 < common &&
    3 * nonzero.length ≤ 4 * common

/-- `_looks_delimited` -/
def looksDelimited (text : List Char) : Bool :=
  let lines := ((splitLines text).take 40).filter fun line => line.any fun c => !isPySpace c
  2 ≤ lines.length && [',', ';', '\t', '|'].any (linesAgree lines)

/-! ## Signatures -/

def zipSignatures : List (List UInt8) :=
  [[0x50, 0x4b, 3, 4], [0x50, 0x4b, 5, 6], [0x50, 0x4b, 7, 8]]
/-- `%PDF-` -/
def pdfSignature : List UInt8 := [0x25, 0x50, 0x44, 0x46, 0x2d]
/-- `SQLite format 3` and a zero byte. -/
def sqliteSignature : List UInt8 :=
  [0x53, 0x51, 0x4c, 0x69, 0x74, 0x65, 0x20, 0x66, 0x6f, 0x72, 0x6d, 0x61, 0x74, 0x20, 0x33, 0]
/-- `PAR1` -/
def parquetSignature : List UInt8 := [0x50, 0x41, 0x52, 0x31]
def oleSignature : List UInt8 := [0xd0, 0xcf, 0x11, 0xe0, 0xa1, 0xb1, 0x1a, 0xe1]
def gzipSignature : List UInt8 := [0x1f, 0x8b]
/-- PNG, JPEG, `GIF87a` and `GIF89a`. -/
def imageSignatures : List (List UInt8) :=
  [[0x89, 0x50, 0x4e, 0x47, 0x0d, 0x0a, 0x1a, 0x0a], [0xff, 0xd8, 0xff],
    [0x47, 0x49, 0x46, 0x38, 0x37, 0x61], [0x47, 0x49, 0x46, 0x38, 0x39, 0x61]]
/-- `MZ`, and ELF. -/
def executableSignatures : List (List UInt8) := [[0x4d, 0x5a], [0x7f, 0x45, 0x4c, 0x46]]

def startsWithAny (head : List UInt8) (signatures : List (List UInt8)) : Bool :=
  signatures.any fun signature => signature <+: head

/-- `RIFF`, and `WEBP` behind the length. -/
def isWebp (head : List UInt8) : Bool :=
  [0x52, 0x49, 0x46, 0x46] <+: head && 12 ≤ head.length &&
    (head.drop 8).take 4 = [0x57, 0x45, 0x42, 0x50]

/-- The signature of a text-free format, and what is reported for it. -/
def identifySignature (file : Option OpenFile) (head tail : List UInt8) (size : Nat) :
    Option Identification :=
  if startsWithAny head zipSignatures then
    some <| match file with
      | none => {
          kind := .zip, confidence := 60, signals := ["ZIP container signature"]
          risks := [{ code := .malformedArchive, detail := "ZIP structure could not be read" }] }
      | some file => file.inspectZip
  else if pdfSignature <+: head then
    some { kind := .pdf, confidence := 100, signals := ["PDF magic signature"], risks := [] }
  else if sqliteSignature <+: head then
    some { kind := .sqlite, confidence := 100, signals := ["SQLite magic signature"], risks := [] }
  else if parquetSignature <+: head ∧ parquetSignature <:+ tail then
    some {
      kind := .parquet, confidence := 100, signals := ["Parquet head and tail magic"], risks := [] }
  else if oleSignature <+: head then
    some {
      kind := .ole, confidence := 100, signals := ["OLE compound-file signature"], risks := [] }
  else if gzipSignature <+: head then
    some <| match file with
      | none => {
          kind := .gzip, confidence := 60, signals := ["gzip magic signature"]
          risks := [{ code := .malformedArchive, detail := "gzip stream could not be read" }] }
      | some file => file.inspectGzip head tail size
  else if startsWithAny head imageSignatures ∨ isWebp head = true then
    some { kind := .image, confidence := 98, signals := ["image magic signature"], risks := [] }
  else if startsWithAny head executableSignatures then
    some {
      kind := .executable, confidence := 100, signals := ["executable magic signature"], risks := [] }
  else none

/-! ## Complete texts -/

variable {R : Type}

/-- A text that a limit or a parser stops at. -/
def refusedText (signal : String) (code : RiskCode) (detail : String) : Identification where
  kind := .text
  confidence := 0
  signals := [signal]
  risks := [{ code := code, detail := detail }]

/-- Text that no rule says more about. -/
def plainText (confidence : Nat) (signal : String) : Identification where
  kind := .text
  confidence := confidence
  signals := [signal]
  risks := []

def jsonTooDeep (policy : FileTrustPolicy R) : Identification :=
  refusedText "JSON-like structure exceeds the configured nesting depth" .jsonNestingTooDeep
    ("JSON-like structure exceeds " ++ toString policy.maxStructuredTextDepth ++ " nesting levels")

def jsonTooManyItems (policy : FileTrustPolicy R) : Identification :=
  refusedText "JSON-like structure exceeds the configured item limit" .jsonTooManyItems
    ("JSON-like structure exceeds " ++ toString policy.maxJsonItems ++ " members and array items")

def xmlTooManyAttributes (policy : FileTrustPolicy R) : Identification :=
  refusedText "XML start tag exceeds the configured attribute limit" .xmlTooManyAttributes
    ("XML start tag exceeds " ++ toString policy.maxXmlAttributesPerElement ++ " attributes")

/-- The answer of the attribute scan, which takes at most one turn for each character and one. -/
def attributesExceeded (policy : FileTrustPolicy R) (candidate : List Char) : Bool :=
  (xmlAttributeLimitExceeded (candidate.length + 1) (String.ofList candidate)
    policy.maxXmlAttributesPerElement).getD false

/-- The XML parser, for a text that begins with `<`. -/
def identifyXml (parsers : Parsers) (policy : FileTrustPolicy R) (text : String) :
    Option Identification :=
  let candidate := stripLeading text.toList
  if ¬['<'] <+: candidate then none
  else if attributesExceeded policy candidate then some (xmlTooManyAttributes policy)
  else
    match parsers.saxParse text policy.maxStructuredTextDepth policy.maxXmlElements
      policy.maxXmlAttributesPerElement with
    | .depthLimitExceeded => some <|
        refusedText "XML structure exceeds the configured nesting depth" .xmlNestingTooDeep
          ("XML structure exceeds " ++ toString policy.maxStructuredTextDepth ++ " nesting levels")
    | .elementLimitExceeded => some <|
        refusedText "XML structure exceeds the configured element limit" .xmlTooManyElements
          ("XML structure exceeds " ++ toString policy.maxXmlElements ++ " elements")
    | .attributeLimitExceeded => some (xmlTooManyAttributes policy)
    | .rejected => none
    | .accepted => some {
        kind := .xml, confidence := 99, signals := ["safe streaming XML parser accepted content"]
        risks := [] }

/-- What is decided on a complete text, if anything is. -/
def identifyComplete (parsers : Parsers) (policy : FileTrustPolicy R) (size : Nat) (text : String) :
    Option Identification :=
  let (depthExceeded, itemsExceeded) :=
    jsonLikeLimitsExceeded text policy.maxStructuredTextDepth policy.maxJsonItems
  if depthExceeded then some (jsonTooDeep policy)
  else if itemsExceeded then some (jsonTooManyItems policy)
  else
    match parsers.jsonLoads text with
    | .recursionError => some <|
        refusedText "JSON parser exceeded safe recursion depth" .jsonNestingTooDeep
          "JSON parser exceeded safe recursion depth"
    | .accepted => some {
        kind := .json, confidence := 100, signals := ["JSON parser accepted full content"]
        risks := [] }
    | .rejected =>
        if size ≤ policy.maxJson5ParseBytes then
          match parsers.json5Loads text with
          | .recursionError => some <|
              refusedText "JSON5 parser exceeded safe recursion depth" .jsonNestingTooDeep
                "JSON5 parser exceeded safe recursion depth"
          | .accepted => some {
              kind := .json5, confidence := 99, signals := ["JSON5 parser accepted full content"]
              risks := [] }
          | .rejected => identifyXml parsers policy text
        else if startsJsonLike false false text.toList then
          some (plainText 50 "JSON-like content exceeds the configured JSON5 parse limit")
        else identifyXml parsers policy text

/-- The text of a file that is small enough to be parsed whole. -/
def completeText (policy : FileTrustPolicy R) (file : Option OpenFile) (size : Nat) :
    Option String :=
  file.bind fun file =>
    if size ≤ policy.maxTextParseBytes then readText file policy.maxTextParseBytes else none

/-- What the probe alone says about a text. -/
def identifyProbe (text : String) : Identification :=
  if startsJsonLike false false text.toList then
    plainText 50 "JSON-like leading token; not parser-confirmed within configured limits"
  else if looksDelimited text.toList then {
    kind := .delimitedText, confidence := 78, signals := ["consistent delimited-text structure"]
    risks := [] }
  else plainText 70 "bounded probe is textual"

/-- The part of `_identify` after the signatures. -/
def identifyText (parsers : Parsers) (policy : FileTrustPolicy R) (file : Option OpenFile)
    (head : List UInt8) (size : Nat) : Identification :=
  match decodeText head with
  | none => {
      kind := .binary, confidence := 95, signals := ["probe is not valid bounded text"]
      risks := [] }
  | some text =>
      if stripLeading text.toList = [] then plainText 75 "textual content"
      else
        ((completeText policy file size).bind (identifyComplete parsers policy size)).getD
          (identifyProbe text)

/-- `_identify` -/
def identify (parsers : Parsers) (policy : FileTrustPolicy R) (file : Option OpenFile)
    (head tail : List UInt8) (size : Nat) : Identification :=
  if size = 0 then {
    kind := .empty, confidence := 100, signals := ["zero-length file"], risks := [] }
  else
    match identifySignature file head tail size with
    | some identification => identification
    | none => identifyText parsers policy file head size

end ContentInspector

end Polymorph
