import Polymorph.Errors
import Mathlib.Algebra.GroupWithZero.Nat

/-!
# What an inspection reports

The kinds and risks of inspected content, the limits of the policy, and the streams that the
inspector reads.
-/

set_option autoImplicit false

namespace Polymorph

inductive ContentKind where
  | xlsx | docx | pptx | zip | json | json5 | delimitedText | text | xml | pdf | sqlite | parquet
  | ole | gzip | image | executable | binary | empty | unknown
deriving DecidableEq, Repr

inductive RiskCode where
  | symlinkInput | nonRegularInput | fileTooLarge | archiveTooManyEntries | archiveMetadataTooLarge
  | archiveTooLarge | archiveMemberTooLarge | archiveHighCompressionRatio
  | archiveScanBudgetExceeded | archivePathTraversal | archiveSymlink | archiveDuplicateEntry
  | archiveEncryptedMember | officeMacro | officeExternalLink | officeExternalData
  | classifierDisagreement | malformedArchive | jsonNestingTooDeep | jsonTooManyItems
  | xmlNestingTooDeep | xmlTooManyElements | xmlTooManyAttributes | fileChangedDuringInspection
deriving DecidableEq, Repr

/-- `ContentKind.value` -/
def ContentKind.value : ContentKind → String
  | .xlsx => "xlsx"
  | .docx => "docx"
  | .pptx => "pptx"
  | .zip => "zip"
  | .json => "json"
  | .json5 => "json5"
  | .delimitedText => "delimited_text"
  | .text => "text"
  | .xml => "xml"
  | .pdf => "pdf"
  | .sqlite => "sqlite"
  | .parquet => "parquet"
  | .ole => "ole_compound"
  | .gzip => "gzip"
  | .image => "image"
  | .executable => "executable"
  | .binary => "binary"
  | .empty => "empty"
  | .unknown => "unknown"

/-- `RiskCode.value` -/
def RiskCode.value : RiskCode → String
  | .symlinkInput => "symlink_input"
  | .nonRegularInput => "non_regular_input"
  | .fileTooLarge => "file_too_large"
  | .archiveTooManyEntries => "archive_too_many_entries"
  | .archiveMetadataTooLarge => "archive_metadata_too_large"
  | .archiveTooLarge => "archive_too_large"
  | .archiveMemberTooLarge => "archive_member_too_large"
  | .archiveHighCompressionRatio => "archive_high_compression_ratio"
  | .archiveScanBudgetExceeded => "archive_scan_budget_exceeded"
  | .archivePathTraversal => "archive_path_traversal"
  | .archiveSymlink => "archive_symlink"
  | .archiveDuplicateEntry => "archive_duplicate_entry"
  | .archiveEncryptedMember => "archive_encrypted_member"
  | .officeMacro => "office_macro"
  | .officeExternalLink => "office_external_link"
  | .officeExternalData => "office_external_data"
  | .classifierDisagreement => "classifier_disagreement"
  | .malformedArchive => "malformed_archive"
  | .jsonNestingTooDeep => "json_nesting_too_deep"
  | .jsonTooManyItems => "json_too_many_items"
  | .xmlNestingTooDeep => "xml_nesting_too_deep"
  | .xmlTooManyElements => "xml_too_many_elements"
  | .xmlTooManyAttributes => "xml_too_many_attributes"
  | .fileChangedDuringInspection => "file_changed_during_inspection"

structure ContentRisk where
  code : RiskCode
  detail : String
  blocking : Bool := true
deriving DecidableEq, Repr

/-- The limits of `FileTrustPolicy`, without the flags for Office files, links and classifiers.
`R` are the numbers that compression ratios are. -/
structure FileTrustPolicy (R : Type) where
  maxCompressionRatio : R
  maxFileBytes : Nat := 2 * 1024 * 1024 * 1024
  maxProbeBytes : Nat := 256 * 1024
  maxTextParseBytes : Nat := 4 * 1024 * 1024
  maxArchiveEntries : Nat := 4096
  maxArchiveUncompressedBytes : Nat := 1024 * 1024 * 1024
  maxArchiveMemberBytes : Nat := 256 * 1024 * 1024
  maxJson5ParseBytes : Nat := 64 * 1024
  maxStructuredTextDepth : Nat := 128
  maxArchiveMetadataBytes : Nat := 16 * 1024 * 1024
  maxXmlElements : Nat := 100000
  maxGzipScanBytes : Nat := 64 * 1024 * 1024
  maxJsonItems : Nat := 100000
  maxXmlAttributesPerElement : Nat := 1024
  /-- `__post_init__` -/
  positive : ∀ limit ∈ [maxFileBytes, maxProbeBytes, maxTextParseBytes, maxJson5ParseBytes,
    maxStructuredTextDepth, maxArchiveEntries, maxArchiveMetadataBytes,
    maxArchiveUncompressedBytes, maxArchiveMemberBytes, maxXmlElements, maxGzipScanBytes,
    maxJsonItems, maxXmlAttributesPerElement], 0 < limit := by decide

theorem FileTrustPolicy.default_positive :
    ∀ limit ∈ [2 * 1024 * 1024 * 1024, 256 * 1024, 4 * 1024 * 1024, 64 * 1024, 128, 4096,
      16 * 1024 * 1024, 1024 * 1024 * 1024, 256 * 1024 * 1024, 100000, 64 * 1024 * 1024, 100000,
      1024], 0 < limit := by decide

/-- What the detectors return; the confidence in hundredths. -/
structure Identification where
  kind : ContentKind
  confidence : Nat
  signals : List String
  risks : List ContentRisk
deriving DecidableEq, Repr

/-- What is left to read from an open file: a read returns bytes, and none at the end, or it
raises. -/
inductive ByteStream where
  | done
  | failed
  | chunk (first : UInt8) (others : List UInt8) (rest : ByteStream)

namespace ByteStream

/-- `handle.read(n)`, whatever number of bytes it returns. -/
def read : ByteStream → Except Exn (List UInt8 × ByteStream)
  | .done => .ok ([], .done)
  | .failed => .error (.other "OSError")
  | .chunk first others rest => .ok (first :: others, rest)

/-- All bytes that reads can return. -/
def contents : ByteStream → List UInt8
  | .done => []
  | .failed => []
  | .chunk first others rest => first :: others ++ rest.contents

/-- A read takes bytes from what is left. -/
theorem contents_read {stream rest : ByteStream} {bytes : List UInt8}
    (h : stream.read = .ok (bytes, rest)) : stream.contents = bytes ++ rest.contents := by
  cases stream with
  | done =>
      cases h
      rfl
  | failed => exact nomatch h
  | chunk first others rest =>
      cases h
      rfl

/-- A read that returns nothing is at the end. -/
theorem contents_eq_nil {stream rest : ByteStream} (h : stream.read = .ok ([], rest)) :
    stream.contents = [] ∧ rest = .done := by
  cases stream with
  | done =>
      cases h
      exact ⟨rfl, rfl⟩
  | failed => exact nomatch h
  | chunk first others rest => exact nomatch h

end ByteStream

end Polymorph
