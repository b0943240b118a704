import Polymorph.Agents.SourceAgent
import Polymorph.Crypto.HashChain
import Polymorph.Trust.SourceTrust

/-!
# The audit log

`AuditLog` keeps bounded metadata events in a table whose rows form a hash chain, optionally signed.
A batch is appended in one transaction that checks the usage counters, the quotas and, behind its
inserts, the rows that it wrote. `json.loads` and the clock are arguments.
-/

set_option autoImplicit false

namespace Polymorph

open JsonText Utc

/-- `MAX_AUDIT_BATCH_EVENTS` -/
def maxAuditBatchEvents : Nat := 10000

/-- `MAX_AUDIT_EVENT_BYTES` -/
def maxAuditEventBytes : Nat := 16 * 1024

/-- `MAX_AUDIT_BATCH_BYTES` -/
def maxAuditBatchBytes : Nat := 64 * 1024 * 1024

/-- `DEFAULT_MAX_AUDIT_EVENTS` -/
def defaultMaxAuditEvents : Nat := 1000000

/-- `DEFAULT_MAX_AUDIT_LOGICAL_BYTES` -/
def defaultMaxAuditLogicalBytes : Nat := 2 * 1024 * 1024 * 1024

/-! ## Events -/

/-- The timestamp of an event: the instant that it names in UTC, or one whose conversion to UTC
overflows. -/
inductive AuditTimestamp where
  | at (instant : Instant)
  | beyondUtc
deriving DecidableEq

/-- `AuditEvent` -/
structure AuditEvent where
  eventType : String
  actor : String
  status : String
  tenant : String
  connectorId : String
  transferId : String
  recordId : String
  recordDigest : String
  planDigest : String
  reasonCode : Option String := none
  timestamp : Option AuditTimestamp := none
  batchAttemptId : Option String := none
deriving DecidableEq

namespace AuditEvent

/-- `value and len(value) <= maximum and value.replace("_", "").isalnum()` -/
def isMachineReadable (H : Host) (value : String) (maximum : Nat) : Bool :=
  let letters := value.toList.filter (· ≠ '_')
  value.length ≤ maximum && !letters.isEmpty && letters.all H.isAlnum

/-- `value and len(value) <= maximum and value.isprintable()` -/
def isBoundedMetadata (H : Host) (value : String) (maximum : Nat) : Bool :=
  value ≠ "" && value.length ≤ maximum && H.printable value

/-- A digest of 64 hexadecimal digits of either case. -/
def isHexDigest (value : String) : Bool :=
  value.length = 64 && value.toList.all ("0123456789abcdefABCDEF".toList.contains ·)

variable (event : AuditEvent)

def machineFields : List (String × String × Nat) :=
  [("event_type", event.eventType, 64), ("status", event.status, 64)]

def metadataFields : List (String × String × Nat) :=
  [("actor", event.actor, 128), ("tenant", event.tenant, 128),
    ("connector_id", event.connectorId, 128), ("transfer_id", event.transferId, 256),
    ("record_id", event.recordId, 256)]

def digestFields : List (String × String) :=
  [("record_digest", event.recordDigest), ("plan_digest", event.planDigest)]

/-- The instant of an event. -/
def instant (now : Instant) : Except Exn Instant :=
  match event.timestamp with
  | none => .ok now
  | some (.at instant) => .ok instant
  | some .beyondUtc => .error (.overflowError "date value out of range")

/-- `str | None` -/
def optionalText : Option String → Json
  | none => .null
  | some text => .str text

/-- The members of the payload. -/
def payload (instant : Instant) : List (String × Json) :=
  [("actor", .str event.actor), ("connector_id", .str event.connectorId),
    ("event_type", .str event.eventType), ("plan_digest", .str event.planDigest),
    ("reason_code", optionalText event.reasonCode), ("record_digest", .str event.recordDigest),
    ("record_id", .str event.recordId), ("status", .str event.status),
    ("tenant", .str event.tenant), ("timestamp", .str instant.isoformat),
    ("transfer_id", .str event.transferId)] ++
  match event.batchAttemptId with
  | none => []
  | some batchAttemptId => [("batch_attempt_id", .str batchAttemptId)]

/-- `canonical_dict`; `now` is the reading of the clock. -/
def canonicalDict (H : Host) (now : Instant) : Except Exn (List (String × Json)) :=
  match event.machineFields.find? fun f => !isMachineReadable H f.2.1 f.2.2 with
  | some field =>
      .error (.valueError
        ("audit " ++ field.1 ++ " must be a short machine-readable identifier"))
  | none =>
      match event.metadataFields.find? fun f => !isBoundedMetadata H f.2.1 f.2.2 with
      | some field =>
          .error (.valueError ("audit " ++ field.1 ++ " must be bounded printable metadata"))
      | none =>
          match event.digestFields.find? fun f => !isHexDigest f.2 with
          | some field =>
              .error (.valueError ("audit " ++ field.1 ++ " must be a SHA-256 hex digest"))
          | none => do
              let instant ← event.instant now
              if event.reasonCode.any fun code => !isMachineReadable H code 96 then
                throw (.valueError "audit reason_code must be machine-readable")
              if event.batchAttemptId.any fun id => !isLowerHex 32 id then
                throw (.valueError
                  "audit batch_attempt_id must be a lowercase 128-bit identifier")
              return event.payload instant

end AuditEvent

/-! ## The file -/

/-- A row of `audit_events`. -/
structure AuditRow where
  sequence : Nat
  eventJson : String
  previousHash : String
  eventHash : String
  signature : Option (List UInt8)
deriving DecidableEq

/-- `LENGTH(text)` of SQLite stops at a NUL. -/
def sqlLength (text : String) : Nat := (text.toList.takeWhile (· ≠ '\x00')).length

/-- What a row counts in `logical_bytes`. -/
def AuditRow.logicalBytes (row : AuditRow) : Nat :=
  (utf8Bytes row.eventJson.toList).length + sqlLength row.previousHash + sqlLength row.eventHash +
    (row.signature.map List.length).getD 0

/-- The row of `audit_usage`. -/
structure AuditUsage where
  eventCount : Nat
  logicalBytes : Nat
deriving DecidableEq

/-- The file: `audit_events` in the order of `sequence`, `audit_usage`, and the largest sequence
number ever given, which AUTOINCREMENT keeps. -/
structure AuditFile where
  events : List AuditRow := []
  usage : Option AuditUsage := none
  autoincrement : Nat := 0

namespace AuditFile

variable (file : AuditFile)

/-- `_initialize` -/
def initialized : AuditFile :=
  match file.usage with
  | some _ => file
  | none =>
      let logicalBytes := (file.events.map AuditRow.logicalBytes).sum
      { file with usage := some ⟨file.events.length, logicalBytes⟩ }

/-- The largest sequence number in the table. -/
def lastSequence : Nat := (file.events.getLast?.map AuditRow.sequence).getD 0

/-- The usage behind an inserted row, by the trigger. -/
def usageInserted (row : AuditRow) : Option AuditUsage :=
  file.usage.map fun u => ⟨u.eventCount + 1, u.logicalBytes + row.logicalBytes⟩

/-- `INSERT INTO audit_events`; the column `event_hash` is UNIQUE. -/
def insert (eventJson previousHash eventHash : String) (signature : Option (List UInt8)) :
    Except Exn AuditFile :=
  if eventHash ∈ file.events.map AuditRow.eventHash then
    .error (.other "UNIQUE constraint failed: audit_events.event_hash")
  else
    let sequence := max file.autoincrement file.lastSequence + 1
    let row : AuditRow := ⟨sequence, eventJson, previousHash, eventHash, signature⟩
    .ok { events := file.events ++ [row], usage := file.usageInserted row
          autoincrement := sequence }

/-- `DELETE FROM audit_events`, with its trigger. -/
def delete (gone : AuditRow → Bool) : AuditFile :=
  { file with
    events := file.events.filter fun row => !gone row
    usage := (file.events.filter gone).foldl (fun usage row => usage.map fun u =>
      ⟨u.eventCount - 1, u.logicalBytes - row.logicalBytes⟩) file.usage }

/-- `UPDATE audit_events` of other columns than `sequence`, with its trigger. -/
def update (change : AuditRow → AuditRow) : AuditFile :=
  let changed := file.events.map fun row => { change row with sequence := row.sequence }
  if (changed.map AuditRow.eventHash).Nodup then
    { file with
      events := changed
      usage := (file.events.zip changed).foldl (fun usage rows => usage.map fun u =>
        ⟨u.eventCount, u.logicalBytes + rows.2.logicalBytes - rows.1.logicalBytes⟩) file.usage }
  else file

end AuditFile

/-! ## Appending -/

/-- `"0" * 64` -/
def genesisHash : String := String.ofList (List.replicate 64 '0')

/-- `_hash_encoded` behind the encoding of the digest. -/
def chainHash (previousHash encoded : String) : String :=
  Sha256.hexDigest (utf8Bytes previousHash.toList ++ 0 :: utf8Bytes encoded.toList)

/-- `_hash_encoded` -/
def hashEncoded (previousHash encoded : String) : Except Exn String :=
  if previousHash.toList.all (·.toNat < 128) then .ok (chainHash previousHash encoded)
  else .error (.unicodeError "ascii")

/-- The value of a hexadecimal digit. -/
def hexDigitValue (c : Char) : Nat :=
  if c.toNat < 58 then c.toNat - 48 else c.toNat - 87

/-- `bytes.fromhex` of a digest. -/
def fromHex : List Char → List UInt8
  | high :: low :: rest =>
      UInt8.ofNat (16 * hexDigitValue high + hexDigitValue low) :: fromHex rest
  | _ => []

/-- The bytes that are signed: those of the digest. -/
def digestBytes (eventHash : String) : ByteArray := ⟨(fromHex eventHash.toList).toArray⟩

/-- `AuditRecord` -/
structure AuditRecord where
  sequence : Nat
  event : List (String × Json)
  previousHash : String
  eventHash : String
  signature : Option (List UInt8)

/-- The stored row of a record. -/
def AuditRecord.row (record : AuditRecord) : AuditRow :=
  ⟨record.sequence, canonical (.obj record.event), record.previousHash, record.eventHash,
    record.signature⟩

/-- `AuditLog` -/
structure AuditLog where
  signer : Option SigningKeyPair := none
  readOnly : Bool := false
  maxEvents : Nat := defaultMaxAuditEvents
  maxLogicalBytes : Nat := defaultMaxAuditLogicalBytes
  maxEvents_pos : 0 < maxEvents
  maxLogicalBytes_pos : 0 < maxLogicalBytes

namespace AuditLog

/-- The loop over the events: the checked payloads. An item is what `next` returns, or what it
raises; `none` is no `AuditEvent`. -/
def prepare (H : Host) (now : Nat → Instant) : (index : Nat) → (total : Nat) →
    List (Except Exn (Option AuditEvent)) → Except Exn (List (List (String × Json)))
  | _, _, [] => .ok []
  | _, _, .error e :: _ => .error e
  | index, total, .ok item :: rest => do
      if maxAuditBatchEvents ≤ index then
        throw (.valueError "audit batch exceeds the event count limit")
      match item with
      | none => throw (.typeError "audit batch items must be AuditEvent instances")
      | some event => do
          let payload ← event.canonicalDict H (now index)
          let size := (utf8Bytes (canonical (.obj payload)).toList).length
          if maxAuditEventBytes < size then
            throw (.valueError "audit event exceeds the encoded size limit")
          if maxAuditBatchBytes < total + size then
            throw (.valueError "audit batch exceeds the encoded size limit")
          let others ← prepare H now (index + 1) (total + size) rest
          return payload :: others

variable (log : AuditLog)

/-- The loop over the inserts: the records that it expects, and the file. -/
def insertAll : (sequence : Nat) → (previousHash : String) → List (List (String × Json)) →
    AuditFile → Except Exn (List AuditRecord × AuditFile)
  | _, _, [], file => .ok ([], file)
  | sequence, previousHash, payload :: rest, file => do
      let encoded := canonical (.obj payload)
      let eventHash ← hashEncoded previousHash encoded
      let signature := log.signer.map fun signer => signer.sign (digestBytes eventHash)
      let inserted ← file.insert encoded previousHash eventHash signature
      let (records, last) ← insertAll (sequence + 1) eventHash rest inserted
      return (⟨sequence + 1, payload, previousHash, eventHash, signature⟩ :: records, last)

/-- `additional_bytes` -/
def additionalBytes (prepared : List (List (String × Json))) : Nat :=
  (prepared.map fun payload => (utf8Bytes (canonical (.obj payload)).toList).length + 128 +
    if log.signer.isSome then 64 else 0).sum

/-- The transaction of `append_many`. -/
def appendPrepared (prepared : List (List (String × Json))) (file : AuditFile) :
    Except Exn (List AuditRecord × AuditFile) :=
  match file.usage with
  | none => .error (.integrityError "audit usage metadata is missing")
  | some usage => do
      if usage.eventCount ≠ file.lastSequence then
        throw (.integrityError "audit usage metadata does not match the hash-chain tail")
      if log.maxEvents < usage.eventCount + prepared.length then
        throw (.integrityError "audit event quota reached; archive before retrying")
      if log.maxLogicalBytes < usage.logicalBytes + log.additionalBytes prepared then
        throw (.integrityError "audit byte quota reached; archive before retrying")
      let previousHash := (file.events.getLast?.map AuditRow.eventHash).getD genesisHash
      let (records, last) ← log.insertAll file.lastSequence previousHash prepared file
      if last.events.filter (file.lastSequence < ·.sequence) ≠ records.map AuditRecord.row then
        throw (.integrityError "audit append postcondition failed")
      if last.usage ≠ some ⟨file.lastSequence + prepared.length,
          usage.logicalBytes + log.additionalBytes prepared⟩ then
        throw (.integrityError "audit usage metadata postcondition failed")
      return (records, last)

/-- `append_many`; `fault` is what a statement of the transaction raises. What raises leaves the
file as it was. -/
def appendMany (H : Host) (now : Nat → Instant) (fault : Option Exn)
    (events : List (Except Exn (Option AuditEvent))) (file : AuditFile) :
    Except Exn (List AuditRecord) × AuditFile :=
  if log.readOnly then
    (.error (.integrityError "cannot append to a read-only audit store"), file)
  else
    match prepare H now 0 0 events, fault with
    | .error e, _ => (.error e, file)
    | .ok [], _ => (.ok [], file)
    | .ok (_ :: _), some e => (.error e, file)
    | .ok (payload :: rest), none =>
        match log.appendPrepared (payload :: rest) file with
        | .error e => (.error e, file)
        | .ok (records, last) => (.ok records, last)

end AuditLog

/-! ## Verification -/

/-- What `json.loads` makes of a text. -/
inductive LoadedEvent where
  | value (j : Json)
  /-- `JSONDecodeError` -/
  | invalid
  /-- another exception, such as that for integers of too many digits -/
  | raises (e : Exn)

/-- `json.loads` -/
abbrev EventLoads := String → LoadedEvent

section Verification

variable (loads : EventLoads) (ed25519 : List UInt8 → ByteArray → List UInt8 → Bool)
  (trustedPublicKey : Option (List UInt8))

/-- The event of a row. -/
def loadEvent (eventJson : String) : Except Exn (List (String × Json)) :=
  match loads eventJson with
  | .value (.obj members) => .ok members
  | .value _ => .error (.integrityError "audit event JSON is not an object")
  | .invalid => .error (.integrityError "audit event JSON is invalid")
  | .raises e => .error e

/-- The check of the signature of a row. -/
def checkSignature (expectedHash : String) (signature : Option (List UInt8)) : Except Exn Unit :=
  match trustedPublicKey with
  | none => .ok ()
  | some key =>
      match signature with
      | none => .error (.integrityError "signed audit verification found an unsigned event")
      | some signature =>
          SourceTrustStore.verifyEd25519 ed25519 key (digestBytes expectedHash) signature

/-- `_verified_rows`, from this digest and sequence number on. -/
def verifiedRows : (previousHash : String) → (expectedSequence : Nat) → List AuditRow →
    Except Exn (List (AuditRow × List (String × Json)))
  | _, _, [] => .ok []
  | previousHash, expectedSequence, row :: rows => do
      if row.sequence ≠ expectedSequence then
        throw (.integrityError "audit sequence contains a gap")
      let event ← loadEvent loads row.eventJson
      if row.previousHash ≠ previousHash then
        throw (.integrityError "audit hash chain is broken")
      let expectedHash ← hashEncoded previousHash (canonical (.obj event))
      if row.eventHash ≠ expectedHash then
        throw (.integrityError "audit event hash mismatch")
      checkSignature ed25519 trustedPublicKey expectedHash row.signature
      let others ← verifiedRows expectedHash (expectedSequence + 1) rows
      return (row, event) :: others

/-- The verified events of a table. -/
def verifiedEvents (rows : List AuditRow) : Except Exn (List (AuditRow × List (String × Json))) :=
  verifiedRows loads ed25519 trustedPublicKey genesisHash 1 rows

/-- `verify` -/
def verifyAudit (rows : List AuditRow) : Except Exn Nat := do
  let verified ← verifiedEvents loads ed25519 trustedPublicKey rows
  return verified.length

end Verification

end Polymorph
