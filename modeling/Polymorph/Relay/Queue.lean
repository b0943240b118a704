import Polymorph.Concurrency.Transaction
import Polymorph.Relay.Policy
import Polymorph.Storage.Table

/-!
# The sealed relay queue

`SealedRelayQueue`: the queue and the dead letters, with the calls `enqueue_many`, `lease`,
`ack_many` and `release`. The three lease columns of a row are set and cleared together. The text
of a wire is the canonical wire whose UTF-8 encoding the code stores.
-/

set_option autoImplicit false

namespace Polymorph

open JsonText Transaction Table Utc

/-! ## Tables -/

/-- The columns that the queue and the dead letters have in common. -/
structure RelayMetadata where
  recordDigest : String
  tenant : String
  sourceConnector : String
  destinationConnector : String
  transferId : String
  recordId : String
  planDigest : String
  receivedAt : String
deriving DecidableEq

/-- The transfer identity of a row. -/
structure RelayKey where
  tenant : String
  destinationConnector : String
  transferId : String
  recordId : String
deriving DecidableEq

def RelayMetadata.key (m : RelayMetadata) : RelayKey :=
  ⟨m.tenant, m.destinationConnector, m.transferId, m.recordId⟩

/-- The lease columns of a row. -/
structure RelayLease where
  leaseOwner : String
  leaseId : String
  leaseExpiresAt : String
deriving DecidableEq

/-- A row of `sealed_relay_queue`. -/
structure QueueRow extends RelayMetadata where
  wireJson : String
  lease : Option RelayLease
deriving DecidableEq

/-- A row of `sealed_relay_dead_letter`. -/
structure DeadLetterRow extends RelayMetadata where
  reasonCode : String
  deadLetteredAt : String
  wireJson : String
deriving DecidableEq

/-- The two tables. -/
structure RelayTables where
  queue : List QueueRow := []
  deadLetters : List DeadLetterRow := []

namespace RelayTables

/-- `SELECT … FROM sealed_relay_queue WHERE record_digest = ?` -/
def queueRow (tables : RelayTables) (recordDigest : String) : Option QueueRow :=
  selectBy (fun row : QueueRow => row.recordDigest) recordDigest tables.queue

/-- `SELECT … FROM sealed_relay_queue` by the transfer identity. -/
def queueIdentity (tables : RelayTables) (key : RelayKey) : Option QueueRow :=
  selectBy (fun row : QueueRow => row.key) key tables.queue

/-- `SELECT … FROM sealed_relay_dead_letter WHERE record_digest = ?` -/
def deadLetterRow (tables : RelayTables) (recordDigest : String) : Option DeadLetterRow :=
  selectBy (fun row : DeadLetterRow => row.recordDigest) recordDigest tables.deadLetters

/-- `SELECT … FROM sealed_relay_dead_letter` by the transfer identity. -/
def deadLetterIdentity (tables : RelayTables) (key : RelayKey) : Option DeadLetterRow :=
  selectBy (fun row : DeadLetterRow => row.key) key tables.deadLetters

end RelayTables

/-- A relay call. -/
abbrev RelayM := EStateM Exn RelayTables

/-- Construction parameters of a relay queue. -/
structure RelayConfig where
  policy : RelayPolicy
  limits : ProtocolLimits := {}
  maxBatchWireBytes : Nat := 64 * 1024 * 1024
  admitsOneRecord : 0 < maxBatchWireBytes ∧ limits.maxRecordWireBytes ≤ maxBatchWireBytes := by
    decide

theorem RelayConfig.default_admitsOneRecord : 0 < 64 * 1024 * 1024 ∧
    ({} : ProtocolLimits).maxRecordWireBytes ≤ 64 * 1024 * 1024 := by decide

structure RelayReceipt where
  recordDigest : String
  tenant : String
  destinationConnector : String
  transferId : String
  recordId : String
  planDigest : String
  acceptedAt : String
  duplicate : Bool := false

structure LeasedRecord where
  record : BlindTransportRecord
  leaseOwner : String
  leaseExpiresAt : String
  leaseId : String

namespace SealedRelayQueue

/-- `MAX_RELAY_BATCH_ITEMS` -/
def maxRelayBatchItems : Nat := 10000

/-- `MAX_DEAD_LETTERS_PER_LEASE` -/
def maxDeadLettersPerLease : Nat := 1000

/-- `MAX_LEASE_DURATION` in microseconds. -/
def maxLeaseDuration : Int := 60 * 60 * 1000000

variable (H : Host) (ed25519 : List UInt8 → ByteArray → List UInt8 → Bool) (config : RelayConfig)

/-! ## Enqueueing -/

/-- The times that `enqueue_many` reads for one record. -/
structure EnqueueTimes where
  verifiedAt : Instant
  validatedAt : Instant
  acceptedAt : Instant

/-- The size checks of a batch: at position `index` with `total` wire bytes before it. -/
def prepareBatch : Nat → Nat → List BlindTransportRecord → Except Exn Unit
  | _, _, [] => pure ()
  | index, total, record :: rest => do
      if index ≥ maxRelayBatchItems then
        throw (.valueError "relay enqueue batch exceeds the record count limit")
      if record.wireBytes > config.limits.maxRecordWireBytes then
        throw (.policyViolation "sealed record exceeds relay queue size limit")
      if total + record.wireBytes > config.maxBatchWireBytes then
        throw (.valueError "relay enqueue batch exceeds the wire byte limit")
      prepareBatch (index + 1) (total + record.wireBytes) rest

/-- The row of an accepted record. -/
def rowOf (record : BlindTransportRecord) (acceptedAt : String) : QueueRow :=
  { recordDigest := record.digest H, tenant := record.tenant
    sourceConnector := record.sourceConnector
    destinationConnector := record.destinationConnector
    transferId := record.transferId, recordId := record.recordId
    planDigest := record.planDigest, receivedAt := acceptedAt
    wireJson := record.canonicalWire, lease := none }

/-- Authorization of a batch, and the row of each record. -/
def authorize (registry : Option SourceTrustStore) (times : Nat → EnqueueTimes) :
    Nat → List BlindTransportRecord → Except Exn (List QueueRow)
  | _, [] => pure []
  | index, record :: rest => do
      config.policy.validate ed25519 registry record (times index).verifiedAt
        (times index).validatedAt
      let rows ← authorize registry times (index + 1) rest
      pure (rowOf H record (times index).acceptedAt.isoformat :: rows)

def receiptOf (row : QueueRow) (duplicate : Bool) : RelayReceipt :=
  ⟨row.recordDigest, row.tenant, row.destinationConnector, row.transferId, row.recordId,
    row.planDigest, row.receivedAt, duplicate⟩

/-- `INSERT` under the primary key and the unique identity. -/
def insertRow (row : QueueRow) : RelayM Unit := do
  let tables ← get
  if (tables.queueRow row.recordDigest).isSome ∨ (tables.queueIdentity row.key).isSome then
    throw (.other "UNIQUE constraint failed: sealed_relay_queue")
  set { tables with queue := tables.queue ++ [row] }

/-- One authorized record: its receipt, and the row that has to be there afterwards. -/
def enqueueRow (row : QueueRow) : RelayM (RelayReceipt × QueueRow) := do
  let tables ← get
  match tables.queueIdentity row.key with
  | some identity => do
      if identity.recordDigest ≠ row.recordDigest then
        throw (.replayDetected
          "relay transfer identity was reused with different authenticated content")
      let expected := { row with receivedAt := identity.receivedAt, lease := identity.lease }
      if identity ≠ expected then
        throw (.integrityError
          "relay queue stored metadata does not match authenticated record")
      pure (receiptOf expected true, expected)
  | none => do
      if (tables.deadLetterIdentity row.key).isSome then
        throw (.replayDetected "relay transfer identity is permanently dead-lettered")
      insertRow row
      pure (receiptOf row false, row)

def enqueueRows : List QueueRow → RelayM (List (RelayReceipt × QueueRow))
  | [] => pure []
  | row :: rest => do
      let enqueued ← enqueueRow row
      let others ← enqueueRows rest
      pure (enqueued :: others)

/-- `_assert_queue_postconditions` -/
def assertQueuePostconditions : List QueueRow → RelayM Unit
  | [] => pure ()
  | expected :: rest => do
      let tables ← get
      if tables.queueRow expected.recordDigest ≠ some expected then
        throw (.integrityError "relay queue write postcondition failed")
      assertQueuePostconditions rest

/-- `_enqueue_prepared` -/
def enqueuePrepared (rows : List QueueRow) : RelayM (List RelayReceipt) :=
  transaction do
    let enqueued ← enqueueRows rows
    assertQueuePostconditions (enqueued.map Prod.snd)
    pure (enqueued.map Prod.fst)

/-- `enqueue_many` -/
def enqueueMany (registry : Option SourceTrustStore) (times : Nat → EnqueueTimes)
    (records : List BlindTransportRecord) : RelayM (List RelayReceipt) := do
  prepareBatch config 0 0 records
  if records = [] then
    pure []
  else
    let rows ← (authorize H ed25519 config registry times 0 records : Except Exn _)
    enqueuePrepared rows

/-! ## Leasing -/

/-- The exceptions of the decoder that the relay reports as a violation of the wire schema. -/
def isWireViolation : Exn → Bool
  | .keyError _ | .overflowError _ | .recursionError | .typeError _ | .unicodeError _
  | .valueError _ => true
  | _ => false

/-- `_decode_queued_record` -/
def decodeQueuedRecord (wire : String) : Except Exn BlindTransportRecord :=
  if wire.utf8ByteSize > config.limits.maxRecordWireBytes then
    .error (.protocolError "queued transport record exceeds the wire size limit")
  else
    match strictLoads wire with
    | none => .error (.protocolError "queued transport record is not valid JSON")
    | some (.obj payload) =>
        match BlindTransportRecord.fromWire H config.limits config.policy.allowLegacyUnsigned
          config.policy.allowLegacyBlankRecipientKeyId payload with
        | .ok record => .ok record
        | .error e =>
            if isWireViolation e then
              .error (.protocolError "queued transport record violates the wire schema")
            else .error e
    | some _ => .error (.protocolError "queued transport record must be a JSON object")

/-- The reason under which a record that fails its checks is dead-lettered. -/
def failureCode : Exn → Option String
  | .transferExpired _ => some "relay_transfer_expired"
  | .policyViolation _ => some "relay_policy_rejected"
  | .integrityError _ => some "relay_source_authentication_failed"
  | .protocolError _ => some "relay_wire_invalid"
  | _ => none

/-- What becomes of one row that is read. -/
inductive LeaseVerdict where
  | accepted (record : BlindTransportRecord)
  | rejected (reasonCode : String)

/-- Decoding and checking one wire. -/
def examine (registry : Option SourceTrustStore) (now : Instant) (recordDigest wire : String) :
    Except Exn LeaseVerdict :=
  match (do
    let record ← decodeQueuedRecord H config wire
    config.policy.validate ed25519 registry record now now
    pure record : Except Exn BlindTransportRecord) with
  | .ok record =>
      if record.digest H ≠ recordDigest then .ok (.rejected "relay_digest_mismatch")
      else .ok (.accepted record)
  | .error e =>
      match failureCode e with
      | some code => .ok (.rejected code)
      | none => .error e

/-- What a scan found, in the order of the rows. -/
structure LeaseScan where
  leased : List (String × BlindTransportRecord) := []
  oversized : List QueueRow := []
  rejected : List (QueueRow × String × String) := []
  budgetBlocked : Bool := false

/-- The loop over the available rows. So far `leased` records are leased, `dead` rows are to be
dead-lettered and `consumed` wire bytes are read. -/
def scanRows (registry : Option SourceTrustStore) (now : Instant) (tables : RelayTables)
    (limit wireBudget : Nat) : Nat → Nat → Nat → List QueueRow → Except Exn LeaseScan
  | _, _, _, [] => pure {}
  | leased, dead, consumed, row :: rest =>
      if leased ≥ limit then pure {}
      else
        let wireSize := row.wireJson.utf8ByteSize
        if wireSize > config.limits.maxRecordWireBytes then
          if dead ≥ maxDeadLettersPerLease then pure {}
          else do
            let scan ← scanRows registry now tables limit wireBudget leased (dead + 1) consumed rest
            pure { scan with oversized := row :: scan.oversized }
        else if consumed + wireSize > wireBudget then pure { budgetBlocked := true }
        else
          match tables.queueRow row.recordDigest with
          | none =>
              throw (.integrityError "relay queue record disappeared while being leased")
          | some stored =>
              if stored.wireJson.utf8ByteSize ≠ wireSize then
                throw (.integrityError "relay queue wire size changed while being leased")
              else
                match examine H ed25519 config registry now row.recordDigest stored.wireJson with
                | .error e => throw e
                | .ok (.rejected code) =>
                    if dead ≥ maxDeadLettersPerLease then pure {}
                    else do
                      let scan ← scanRows registry now tables limit wireBudget leased (dead + 1)
                        (consumed + wireSize) rest
                      pure { scan with rejected := (row, stored.wireJson, code) :: scan.rejected }
                | .ok (.accepted record) => do
                    let scan ← scanRows registry now tables limit wireBudget (leased + 1) dead
                      (consumed + wireSize) rest
                    pure { scan with leased := (row.recordDigest, record) :: scan.leased }

/-- `WHERE destination_connector = ? AND (lease_expires_at IS NULL OR lease_expires_at <= ?)` -/
def available (destinationConnector now : String) (row : QueueRow) : Bool :=
  decide (row.destinationConnector = destinationConnector) &&
    row.lease.all fun lease => decide (lease.leaseExpiresAt ≤ now)

/-- `ORDER BY received_at ASC, record_digest ASC` -/
def precedes (a b : QueueRow) : Prop :=
  a.receivedAt < b.receivedAt ∨ a.receivedAt = b.receivedAt ∧ a.recordDigest ≤ b.recordDigest

instance : DecidableRel precedes := fun _ _ => inferInstanceAs (Decidable (_ ∨ _))

/-- The rows that a lease scans. -/
def scanned (destinationConnector now : String) (limit : Nat) (queue : List QueueRow) :
    List QueueRow :=
  ((queue.filter (available destinationConnector now)).insertionSort precedes).take
    (limit + maxDeadLettersPerLease)

/-- `_dead_letter`, and `_dead_letter_oversized` with an empty wire, with the row that has to be
there afterwards. -/
def deadLetter (row : QueueRow) (wire reasonCode : String) (now : Instant) :
    RelayM DeadLetterRow := do
  let tables ← get
  let remaining := tables.queue.filter fun r => r.recordDigest ≠ row.recordDigest
  let attempted : DeadLetterRow :=
    { toRelayMetadata := row.toRelayMetadata, reasonCode := reasonCode
      deadLetteredAt := now.isoformat, wireJson := wire }
  match tables.deadLetterRow row.recordDigest with
  | none => do
      set { queue := remaining, deadLetters := tables.deadLetters ++ [attempted] : RelayTables }
      pure attempted
  | some existing => do
      let expected := { attempted with deadLetteredAt := existing.deadLetteredAt }
      if existing ≠ expected then
        throw (.integrityError "relay dead-letter conflict does not match expected record")
      set { tables with queue := remaining }
      pure expected

/-- Dead-lettering what a scan set aside, the oversized rows first. -/
def deadLetterAll (now : Instant) :
    List (QueueRow × String × String) → RelayM (List DeadLetterRow)
  | [] => pure []
  | (row, wire, reasonCode) :: rest => do
      let expected ← deadLetter row wire reasonCode now
      let others ← deadLetterAll now rest
      pure (expected :: others)

/-- `executemany("UPDATE … SET lease_owner = ?, … WHERE record_digest = ?")` with its row count. -/
def fenceRows : List (String × RelayLease) → RelayM Nat
  | [] => pure 0
  | (recordDigest, lease) :: rest => do
      let tables ← get
      let fenced := tables.queue.filter fun row => decide (row.recordDigest = recordDigest)
      set { tables with
        queue := tables.queue.map fun row : QueueRow =>
          if row.recordDigest = recordDigest then { row with lease := some lease } else row }
      let others ← fenceRows rest
      pure (fenced.length + others)

/-- `_assert_dead_letter_postconditions` -/
def assertDeadLetterPostconditions : List DeadLetterRow → RelayM Unit
  | [] => pure ()
  | expected :: rest => do
      let tables ← get
      if tables.deadLetterRow expected.recordDigest ≠ some expected ∨
          (tables.queueRow expected.recordDigest).isSome then
        throw (.integrityError "relay dead-letter transition postcondition failed")
      assertDeadLetterPostconditions rest

/-- The lease of each record of a scan; `token` gives the random ids in the order drawn. -/
def leaseUpdates (leaseOwner expires : String) (token : Nat → String) :
    Nat → List (String × BlindTransportRecord) → List (String × RelayLease)
  | _, [] => []
  | index, (recordDigest, _) :: rest =>
      (recordDigest, ⟨leaseOwner, token index, expires⟩) ::
        leaseUpdates leaseOwner expires token (index + 1) rest

def leasedRecords (leaseOwner expires : String) (token : Nat → String) :
    Nat → List (String × BlindTransportRecord) → List LeasedRecord
  | _, [] => []
  | index, (_, record) :: rest =>
      ⟨record, leaseOwner, expires, token index⟩ ::
        leasedRecords leaseOwner expires token (index + 1) rest

/-- The transaction of `lease`, up to its `COMMIT`. -/
def leaseTransaction (registry : Option SourceTrustStore)
    (destinationConnector leaseOwner : String) (limit wireBudget : Nat) (now expires : Instant)
    (token : Nat → String) : RelayM (List LeasedRecord × Bool) :=
  transaction do
    let tables ← get
    let scan ← (scanRows H ed25519 config registry now tables limit wireBudget 0 0 0
      (scanned destinationConnector now.isoformat limit tables.queue) : Except Exn _)
    let oversized := scan.oversized.map fun row => (row, "", "relay_wire_invalid")
    let expected ← deadLetterAll now (oversized ++ scan.rejected)
    let updates := leaseUpdates leaseOwner expires.isoformat token 0 scan.leased
    let fenced ← fenceRows updates
    if fenced ≠ updates.length then
      throw (.integrityError "relay lease batch changed while being fenced")
    assertDeadLetterPostconditions expected
    pure (leasedRecords leaseOwner expires.isoformat token 0 scan.leased, scan.budgetBlocked)

/-- `lease`; the last check comes after the commit. -/
def lease (registry : Option SourceTrustStore) (destinationConnector leaseOwner : String)
    (limit leaseFor : Int) (maxWireBytes : Option Int) (now : Instant) (token : Nat → String) :
    RelayM (List LeasedRecord) := do
  if leaseOwner = "" ∨ leaseOwner.length > 128 then
    throw (.valueError "lease owner is invalid")
  if ¬(1 ≤ limit ∧ limit ≤ 10000) then
    throw (.valueError "lease limit is outside supported range")
  if leaseFor ≤ 0 ∨ leaseFor > maxLeaseDuration then
    throw (.valueError "lease duration is outside supported range")
  let wireBudget : Int := maxWireBytes.getD config.maxBatchWireBytes
  if ¬(1 ≤ wireBudget ∧ wireBudget ≤ config.maxBatchWireBytes) then
    throw (.valueError "relay lease wire limit is outside supported range")
  match now.add leaseFor with
  | none => throw (.overflowError "date value out of range")
  | some expires => do
      let (leased, budgetBlocked) ← leaseTransaction H ed25519 config registry
        destinationConnector leaseOwner limit.toNat wireBudget.toNat now expires token
      if budgetBlocked = true ∧ leased.isEmpty then
        throw (.valueError "next relay record exceeds the lease wire limit")
      pure leased

/-! ## Acknowledging and releasing -/

/-- `record_digest = ? AND lease_owner = ? AND lease_id = ? AND lease_expires_at > ?` -/
def holdsLease (recordDigest leaseOwner leaseId now : String) (row : QueueRow) : Bool :=
  decide (row.recordDigest = recordDigest) && row.lease.any fun lease =>
    decide (lease.leaseOwner = leaseOwner ∧ lease.leaseId = leaseId ∧ now < lease.leaseExpiresAt)

/-- Validation of a batch of acknowledgements; `index` counts those before. -/
def validateAcknowledgements : Nat → List (String × String) → Except Exn Unit
  | _, [] => pure ()
  | index, (recordDigest, leaseId) :: rest => do
      if index ≥ maxRelayBatchItems then
        throw (.valueError "relay acknowledgement batch exceeds the record count limit")
      if isLowerHex 64 recordDigest = false then
        throw (.valueError "relay acknowledgement digest must be a lowercase SHA-256 digest")
      if leaseId = "" ∨ leaseId.length > 128 ∨ H.printable leaseId = false then
        throw (.valueError "lease id is invalid")
      validateAcknowledgements (index + 1) rest

/-- `executemany("DELETE …")` over the held leases, with its row count. -/
def deleteHeld (leaseOwner now : String) : List (String × String) → RelayM Nat
  | [] => pure 0
  | (recordDigest, leaseId) :: rest => do
      let tables ← get
      let held := tables.queue.filter (holdsLease recordDigest leaseOwner leaseId now)
      set { tables with
        queue := tables.queue.filter fun row =>
          !holdsLease recordDigest leaseOwner leaseId now row }
      let others ← deleteHeld leaseOwner now rest
      pure (held.length + others)

/-- `ack_many` -/
def ackMany (acknowledgements : List (String × String)) (leaseOwner : String) (now : Instant) :
    RelayM Unit := do
  if leaseOwner = "" ∨ leaseOwner.length > 128 ∨ H.printable leaseOwner = false then
    throw (.valueError "lease owner is invalid")
  validateAcknowledgements H 0 acknowledgements
  if acknowledgements = [] then
    pure ()
  else
    transaction do
      let deleted ← deleteHeld leaseOwner now.isoformat acknowledgements
      if deleted ≠ acknowledgements.length then
        throw (.integrityError "relay acknowledgement does not own the active lease")

/-- `release`; its one statement commits by itself. -/
def release (recordDigest leaseOwner leaseId : String) (now : Instant) : RelayM Unit := do
  if leaseId = "" ∨ leaseId.length > 128 then
    throw (.valueError "lease id is invalid")
  let tables ← get
  let held := tables.queue.filter (holdsLease recordDigest leaseOwner leaseId now.isoformat)
  set { tables with
    queue := tables.queue.map fun row =>
      if holdsLease recordDigest leaseOwner leaseId now.isoformat row then
        { row with lease := none }
      else row }
  if held.length ≠ 1 then
    throw (.integrityError "relay release does not own the active lease")

end SealedRelayQueue

end Polymorph
