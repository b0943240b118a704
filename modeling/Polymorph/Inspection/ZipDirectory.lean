import Polymorph.Binary.Fields
import Polymorph.Control.Loop
import Polymorph.Errors
import Mathlib.Algebra.GroupWithZero.Nat

/-!
# The directory of a ZIP file

`_zip_directory_metadata` finds the end record of an archive and the central directory before it,
and `_count_zip_directory_entries` goes over the records of that directory. Both run before
`zipfile` allocates anything.
-/

set_option autoImplicit false

namespace Polymorph

open Bytes Loop

def zipEocdSignature : List UInt8 := [0x50, 0x4b, 0x05, 0x06]
def zipEocdSize : Nat := 22
def zipMaxCommentBytes : Nat := 2 ^ 16 - 1
def zip64LocatorSignature : List UInt8 := [0x50, 0x4b, 0x06, 0x07]
def zip64LocatorSize : Nat := 20
def zip64EocdSignature : List UInt8 := [0x50, 0x4b, 0x06, 0x06]
def zip64EocdMinSize : Nat := 56
def zipCentralDirectorySignature : List UInt8 := [0x50, 0x4b, 0x01, 0x02]
def zipCentralDirectoryHeaderSize : Nat := 46

/-- `_ZipDirectoryMetadata` -/
structure ZipDirectoryMetadata where
  entryCount : Nat
  sizeBytes : Nat
  offset : Nat
  physicalOffset : Nat
deriving DecidableEq

/-- The numbers of an end record that describe the directory. -/
structure ZipEndRecord where
  diskNumber : Nat
  directoryDisk : Nat
  diskEntries : Nat
  totalEntries : Nat
  directorySize : Nat
  directoryOffset : Nat
  commentLength : Nat

/-- `struct.unpack_from("<4s4H2LH", data, offset)` -/
def unpackEndRecord (data : List UInt8) (offset : Nat) : ZipEndRecord where
  diskNumber := number data (offset + 4) 2
  directoryDisk := number data (offset + 6) 2
  diskEntries := number data (offset + 8) 2
  totalEntries := number data (offset + 10) 2
  directorySize := number data (offset + 12) 4
  directoryOffset := number data (offset + 16) 4
  commentLength := number data (offset + 20) 2

/-- `struct.unpack("<4sLQL", locator)` without the signature. -/
structure Zip64Locator where
  disk : Nat
  recordOffset : Nat
  disks : Nat

def unpackLocator (locator : List UInt8) : Zip64Locator where
  disk := number locator 4 4
  recordOffset := number locator 8 8
  disks := number locator 16 4

/-- `struct.unpack("<4sQ2H2L4Q", record)` without the signature and the two versions. -/
structure Zip64EndRecord where
  recordSize : Nat
  diskNumber : Nat
  directoryDisk : Nat
  diskEntries : Nat
  totalEntries : Nat
  directorySize : Nat
  directoryOffset : Nat

def unpackZip64EndRecord (record : List UInt8) : Zip64EndRecord where
  recordSize := number record 4 8
  diskNumber := number record 16 4
  directoryDisk := number record 20 4
  diskEntries := number record 24 8
  totalEntries := number record 32 8
  directorySize := number record 40 8
  directoryOffset := number record 48 8

namespace ContentInspector

/-- Some end record before `index` also ends the file with its comment. -/
def endRecordAmbiguous (tail : List UInt8) (index : Nat) : Bool :=
  (List.range index).any fun earlier =>
    decide (At tail earlier zipEocdSignature) && decide (earlier + zipEocdSize ≤ tail.length) &&
      decide (earlier + zipEocdSize + number tail (earlier + 20) 2 = tail.length)

/-- The part of `_zip_directory_metadata` that selects the end record: its offset in the file and
its numbers. -/
def selectEndRecord (file : List UInt8) : Except Exn (Nat × ZipEndRecord) := do
  let fileSize := file.length
  let tailSize := min fileSize (zipEocdSize + zipMaxCommentBytes)
  let tail := window file (fileSize - tailSize) tailSize
  if tail.length ≠ tailSize then throw (.valueError "truncated ZIP end record")
  let tailStart := fileSize - tailSize
  match rfind zipEocdSignature tail with
  | none => throw (.valueError "ZIP end record is missing or malformed")
  | some index =>
      if tail.length < index + zipEocdSize then
        throw (.valueError "ZIP end record is missing or malformed")
      let unpacked := unpackEndRecord tail index
      if index + zipEocdSize + unpacked.commentLength ≠ tail.length then
        throw (.valueError "ZIP end record comment is ambiguous or malformed")
      if endRecordAmbiguous tail index then
        throw (.valueError "ZIP end record comment contains an ambiguous end record")
      return (tailStart + index, unpacked)

/-- What the rest of `_zip_directory_metadata` compares, after the ZIP64 record was read. -/
structure DirectoryExtent where
  totalEntries : Nat
  directorySize : Nat
  directoryOffset : Nat
  directoryEndLimit : Nat
  physicalDirectoryEnd : Nat

/-- A value of the end record that is neither its sentinel nor the ZIP64 value. -/
def disagrees (standard sentinel extended : Nat) : Bool :=
  standard ≠ sentinel && standard ≠ extended

/-- The branch for a file with a ZIP64 locator at `locatorOffset`. -/
def zip64Extent (file : List UInt8) (locatorOffset : Nat) (locator : Zip64Locator)
    (record : ZipEndRecord) : Except Exn DirectoryExtent := do
  if locator.disk ≠ 0 ∨ locator.disks ≠ 1 then throw (.valueError "ZIP64 locator is malformed")
  if locatorOffset < zip64EocdMinSize then
    throw (.valueError "ZIP64 end record offset is invalid")
  let physicalZip64Offset := locatorOffset - zip64EocdMinSize
  let zip64Record := window file physicalZip64Offset zip64EocdMinSize
  if zip64Record.length ≠ zip64EocdMinSize then
    throw (.valueError "ZIP64 end record is truncated")
  let values := unpackZip64EndRecord zip64Record
  if ¬At zip64Record 0 zip64EocdSignature ∨ values.recordSize ≠ 44 ∨ values.diskNumber ≠ 0 ∨
      values.directoryDisk ≠ 0 ∨ values.diskEntries ≠ values.totalEntries then
    throw (.valueError "ZIP64 end record is malformed")
  if physicalZip64Offset < locator.recordOffset then
    throw (.valueError "ZIP64 end record offset is invalid")
  let prependedBytes := physicalZip64Offset - locator.recordOffset
  if disagrees record.diskEntries 0xffff values.diskEntries ||
      disagrees record.totalEntries 0xffff values.totalEntries ||
      disagrees record.directorySize 0xffffffff values.directorySize ||
      disagrees record.directoryOffset 0xffffffff values.directoryOffset then
    throw (.valueError "ZIP and ZIP64 directory metadata disagree")
  return {
    totalEntries := values.totalEntries
    directorySize := values.directorySize
    directoryOffset := values.directoryOffset
    directoryEndLimit := physicalZip64Offset - prependedBytes
    physicalDirectoryEnd := physicalZip64Offset }

/-- The branch for a file without a ZIP64 locator. -/
def classicExtent (eocdOffset : Nat) (record : ZipEndRecord) : Except Exn DirectoryExtent := do
  if record.diskEntries = 0xffff ∨ record.totalEntries = 0xffff ∨
      record.directorySize = 0xffffffff ∨ record.directoryOffset = 0xffffffff then
    throw (.valueError "ZIP64 locator is missing")
  if record.diskEntries ≠ record.totalEntries then
    throw (.valueError "ZIP directory entry counts disagree")
  return {
    totalEntries := record.totalEntries
    directorySize := record.directorySize
    directoryOffset := record.directoryOffset
    directoryEndLimit := eocdOffset
    physicalDirectoryEnd := eocdOffset }

/-- The locator is looked for right before the end record. -/
def directoryExtent (file : List UInt8) (eocdOffset : Nat) (record : ZipEndRecord) :
    Except Exn DirectoryExtent :=
  let locator := window file (eocdOffset - zip64LocatorSize) zip64LocatorSize
  if zip64LocatorSize ≤ eocdOffset ∧ locator.length = zip64LocatorSize ∧
      At locator 0 zip64LocatorSignature then
    zip64Extent file (eocdOffset - zip64LocatorSize) (unpackLocator locator) record
  else classicExtent eocdOffset record

/-- `_zip_directory_metadata` -/
def zipDirectoryMetadata (file : List UInt8) : Except Exn ZipDirectoryMetadata := do
  let (eocdOffset, record) ← selectEndRecord file
  if record.diskNumber ≠ 0 ∨ record.directoryDisk ≠ 0 then
    throw (.valueError "multi-disk ZIP archives are not supported")
  let extent ← directoryExtent file eocdOffset record
  if extent.directoryEndLimit < extent.directoryOffset + extent.directorySize then
    throw (.valueError "ZIP central directory extends beyond its end record")
  if extent.physicalDirectoryEnd < extent.directorySize then
    throw (.valueError "ZIP central directory has an invalid physical offset")
  return ⟨extent.totalEntries, extent.directorySize, extent.directoryOffset,
    extent.physicalDirectoryEnd - extent.directorySize⟩

/-! ## Counting the records -/

/-- The variables of the loop; `reads` are the offsets and lengths of its reads so far. -/
structure EntryCount where
  position : Nat
  remaining : Nat
  count : Nat
  reads : List (Nat × Nat)

/-- What the loop is left with: the value that the function returns or the exception that it
raises, and the reads. -/
structure EntryCountResult where
  outcome : Except Exn (Nat × Bool)
  reads : List (Nat × Nat)

/-- The three declared lengths of a central-directory header, the file name, the extra field and
the comment. -/
def variableSize (header : List UInt8) : Nat :=
  number header 28 2 + number header 30 2 + number header 32 2

/-- A turn of the loop in `_count_zip_directory_entries`. -/
def countTurn (file : List UInt8) (stopAfter : Nat) (s : EntryCount) :
    Turn EntryCountResult EntryCount :=
  if s.remaining = 0 then .leave ⟨.ok (s.count, false), s.reads⟩
  else if s.remaining < zipCentralDirectoryHeaderSize then
    .leave ⟨.error (.valueError "truncated ZIP central-directory header"), s.reads⟩
  else
    let header := window file s.position zipCentralDirectoryHeaderSize
    let reads := s.reads ++ [(s.position, zipCentralDirectoryHeaderSize)]
    if header.length ≠ zipCentralDirectoryHeaderSize then
      .leave ⟨.error (.valueError "truncated ZIP central directory"), reads⟩
    else if ¬At header 0 zipCentralDirectorySignature then
      .leave ⟨.error (.valueError "invalid ZIP central-directory signature"), reads⟩
    else
      let recordSize := zipCentralDirectoryHeaderSize + variableSize header
      if s.remaining < recordSize then
        .leave ⟨.error (.valueError "ZIP central-directory entry exceeds declared size"), reads⟩
      else if stopAfter < s.count + 1 then .leave ⟨.ok (s.count + 1, true), reads⟩
      else .again ⟨s.position + recordSize, s.remaining - recordSize, s.count + 1, reads⟩

/-- The loop starts at the physical offset of the directory. -/
def startCount (metadata : ZipDirectoryMetadata) : EntryCount where
  position := metadata.physicalOffset
  remaining := metadata.sizeBytes
  count := 0
  reads := []

/-- `_count_zip_directory_entries`, with a bound on the turns of its loop. -/
def countZipDirectoryEntries (turns : Nat) (file : List UInt8) (metadata : ZipDirectoryMetadata)
    (stopAfter : Nat) : Option EntryCountResult :=
  run (countTurn file stopAfter) turns (startCount metadata)

end ContentInspector

end Polymorph
