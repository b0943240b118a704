import Polymorph.Delivery.Ledger

/-!
# The sealed spool

`SealedSpool` as transactions over its table of quarantined records, keyed by digest. A wire text
stands for its UTF-8 bytes. Inserting validates the canonical form by decoding it; a repeated digest
keeps the stored wire and updates only the reason and the time; reading decodes with the strict
loader and checks digest and canonical form again.
-/

set_option autoImplicit false

namespace Polymorph

open Transaction JsonText Utc

/-- A row of the spool beside its digest. -/
structure SpoolRow where
  tenant : String
  destinationConnector : String
  transferId : String
  recordId : String
  planDigest : String
  reasonCode : String
  quarantinedAt : Instant
  wireJson : String
deriving DecidableEq

/-- The identity of the stored record. -/
def SpoolRow.key (row : SpoolRow) : DeliveryKey :=
  ⟨row.tenant, row.destinationConnector, row.transferId, row.recordId⟩

/-- The table `sealed_quarantine`. -/
abbrev Spool := String → Option SpoolRow

/-- A table without rows. -/
def Spool.empty : Spool := fun _ => none

/-- A spool call. -/
abbrev SpoolM := EStateM Exn Spool

/-- Construction parameters of a spool. -/
structure SpoolConfig where
  limits : ProtocolLimits := {}
  allowLegacyUnsigned : Bool := false
  allowLegacyBlankRecipientKeyId : Bool := false
  maxBatchWireBytes : Nat := 64 * 1024 * 1024
  admitsOneRecord : 0 < maxBatchWireBytes ∧ limits.maxRecordWireBytes ≤ maxBatchWireBytes := by
    decide

namespace SealedSpool

/-- `MAX_SPOOL_BATCH_ITEMS` -/
def maxSpoolBatchItems : Nat := 10000

variable (H : Host) (config : SpoolConfig)

/-- `BlindTransportRecord.from_wire` under the spool's limits and policies. -/
def fromWire (payload : List (String × Json)) : Except Exn BlindTransportRecord :=
  BlindTransportRecord.fromWire H config.limits config.allowLegacyUnsigned
    config.allowLegacyBlankRecipientKeyId payload

/-! ## Inserting -/

/-- The check of a reason code. -/
def validateReasonCode (reasonCode : String) : Except Exn Unit :=
  let letters := reasonCode.toList.filter (· ≠ '_')
  if reasonCode = "" ∨ reasonCode.length > 96 ∨ letters = [] ∨
      letters.all H.isAlnum = false then
    throw (.valueError "reason_code must be a short machine-readable identifier")
  else pure ()

/-- The canonical wire of a record that decodes to itself. -/
def canonicalWire (record : BlindTransportRecord) : Except Exn String := do
  let wire := record.canonicalWire
  let parsed ←
    match plainLoads wire with
    | some (.obj payload) => fromWire H config payload
    | _ => throw (.valueError "spooled transport record is not valid JSON")
  if parsed.digest H ≠ record.digest H ∨ parsed.canonicalWire ≠ wire then
    throw (.integrityError "record failed spool canonical validation")
  pure wire

/-- The row of a record. -/
def rowOf (record : BlindTransportRecord) (reasonCode : String) (instant : Instant)
    (wire : String) : SpoolRow :=
  { tenant := record.tenant, destinationConnector := record.destinationConnector
    transferId := record.transferId, recordId := record.recordId
    planDigest := record.planDigest, reasonCode := reasonCode, quarantinedAt := instant
    wireJson := wire }

/-- Validation of a batch: at position `index` with `total` wire bytes before it. -/
def prepare (reasonCode : String) (instant : Instant) :
    Nat → Nat → List BlindTransportRecord → Except Exn (List (String × SpoolRow))
  | _, _, [] => pure []
  | index, total, record :: rest => do
      if index ≥ maxSpoolBatchItems then
        throw (.valueError "spool batch exceeds the record count limit")
      if record.wireBytes > config.limits.maxRecordWireBytes then
        throw (.valueError "record exceeds spool wire size limit")
      if total + record.wireBytes > config.maxBatchWireBytes then
        throw (.valueError "spool batch exceeds the wire byte limit")
      let wire ← canonicalWire H config record
      let prepared ← prepare reasonCode instant (index + 1) (total + record.wireBytes) rest
      pure ((record.digest H, rowOf record reasonCode instant wire) :: prepared)

/-- `INSERT … ON CONFLICT(record_digest) DO UPDATE` of reason and time. -/
def upsert (digest : String) (row : SpoolRow) : SpoolM Unit := do
  let rows ← get
  match rows digest with
  | some old =>
      set (Function.update rows digest
        (some { old with reasonCode := row.reasonCode, quarantinedAt := row.quarantinedAt }))
  | none => set (Function.update rows digest (some row))

/-- The upserts of a batch in order. -/
def upsertAll : List (String × SpoolRow) → SpoolM Unit
  | [] => pure ()
  | (digest, row) :: rest => do
      upsert digest row
      upsertAll rest

/-- The persistence postcondition: every digest holds the last row given for it. -/
def checkPersisted : List (String × SpoolRow) → SpoolM Unit
  | [] => pure ()
  | (digest, row) :: rest => do
      let rows ← get
      if rows digest ≠ some row then
        throw (.integrityError "sealed spool persistence postcondition failed")
      checkPersisted rest

/-- `quarantine_many`. -/
def quarantineMany (instant : Instant) (records : List BlindTransportRecord)
    (reasonCode : String) : SpoolM Unit := do
  validateReasonCode H reasonCode
  let prepared ← prepare H config reasonCode instant 0 0 records
  if prepared = [] then
    pure ()
  else
    transaction do
      upsertAll prepared
      checkPersisted (dictOf prepared)

/-! ## Reading -/

/-- The exceptions of the decoder that the spool reports as a malformed wire. -/
def isWireSchemaError : Exn → Bool
  | .protocolError _ | .keyError _ | .overflowError _ | .recursionError | .typeError _
  | .unicodeError _ | .valueError _ => true
  | _ => false

/-- `_decode_spooled_record`, with its protocol errors reported as `get` does. -/
def decodeSpooledRecord (wire : String) : Except Exn BlindTransportRecord :=
  match strictLoads wire with
  | some (.obj payload) =>
      match fromWire H config payload with
      | .ok record => .ok record
      | .error e =>
          if isWireSchemaError e then
            .error (.integrityError "sealed spool record is not valid canonical wire data")
          else .error e
  | _ => .error (.integrityError "sealed spool record is not valid canonical wire data")

/-- The check of a digest argument. -/
def validateDigest (recordDigest : String) : Except Exn Unit :=
  if isLowerHex 64 recordDigest = false then
    throw (.valueError "spool record digest must be a lowercase SHA-256 digest")
  else pure ()

/-- The record of a row, decoded and checked. -/
def readRow (recordDigest : String) (row : SpoolRow) : Except Exn BlindTransportRecord := do
  let size := row.wireJson.utf8ByteSize
  if size = 0 ∨ size > config.limits.maxRecordWireBytes then
    throw (.integrityError "sealed spool record has an invalid wire size")
  let record ← decodeSpooledRecord H config row.wireJson
  if record.digest H ≠ recordDigest then
    throw (.integrityError "sealed spool record digest mismatch")
  if record.canonicalWire ≠ row.wireJson then
    throw (.integrityError "sealed spool record is not canonical")
  pure record

/-- `get`. -/
def getRecord (recordDigest : String) : SpoolM (Option BlindTransportRecord) := do
  validateDigest recordDigest
  let rows ← get
  match rows recordDigest with
  | none => pure none
  | some row => some <$> (readRow H config recordDigest row : Except Exn BlindTransportRecord)

/-! ## Removing -/

/-- Validation of every digest of a removal; `index` counts those before. -/
def validateDigests : Nat → List String → Except Exn Unit
  | _, [] => pure ()
  | index, digest :: rest => do
      if index ≥ maxSpoolBatchItems then
        throw (.valueError "spool batch exceeds the record count limit")
      validateDigest digest
      validateDigests (index + 1) rest

/-- `remove_many`; the answer counts the removed rows. -/
def removeMany (digests : List String) : SpoolM Nat := do
  validateDigests 0 digests
  let rows ← get
  set (fun digest => if digest ∈ digests then none else rows digest : Spool)
  pure (digests.dedup.filter fun digest => (rows digest).isSome).length

end SealedSpool

end Polymorph
