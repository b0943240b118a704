import Polymorph.Relay.Queue

/-!
# The relay queue on disk

The queue with the bytes that its rows hold, whatever they are, and `lease` over them. What the
JSON library makes of a decoded text is a parameter; its exceptions are the documented ones.
-/

set_option autoImplicit false

namespace Polymorph

open JsonText Transaction Table Utc

/-- What `json.loads` makes of a text under the hooks of the relay. -/
inductive Loaded where
  | value (j : Json)
  /-- a value with a lone surrogate, which cannot be encoded again -/
  | unencodable
  /-- the hook for non-finite constants raised -/
  | constant
  /-- the hook for repeated keys raised -/
  | duplicateKey
  /-- `JSONDecodeError` -/
  | malformed
  /-- `RecursionError` -/
  | nested
  /-- `ValueError` on an integer literal beyond the digit limit of the interpreter -/
  | longInteger

/-- `json.loads` -/
abbrev JsonLoads := String → Loaded

/-- A value of the column `wire_json`; SQLite keeps the storage class that it was given. -/
inductive WireColumn where
  | blob (bytes : List UInt8)
  /-- a value that is no BLOB, of which only its `LENGTH` is read -/
  | other (length : Nat)
deriving DecidableEq

/-- `LENGTH(wire_json)` -/
def WireColumn.length : WireColumn → Nat
  | .blob bytes => bytes.length
  | .other length => length

/-- The bytes that a dead letter keeps. -/
def WireColumn.bytes : WireColumn → List UInt8
  | .blob bytes => bytes
  | .other _ => []

/-- A row of `sealed_relay_queue`. -/
structure StoredRow extends RelayMetadata where
  wireJson : WireColumn
  lease : Option RelayLease
deriving DecidableEq

/-- A row of `sealed_relay_dead_letter`. -/
structure StoredLetter extends RelayMetadata where
  reasonCode : String
  deadLetteredAt : String
  wireJson : List UInt8
deriving DecidableEq

/-- The two tables. -/
structure StoredTables where
  queue : List StoredRow := []
  deadLetters : List StoredLetter := []

namespace StoredTables

/-- `SELECT … FROM sealed_relay_queue WHERE record_digest = ?` -/
def queueRow (tables : StoredTables) (recordDigest : String) : Option StoredRow :=
  selectBy (fun row : StoredRow => row.recordDigest) recordDigest tables.queue

/-- `SELECT … FROM sealed_relay_dead_letter WHERE record_digest = ?` -/
def deadLetterRow (tables : StoredTables) (recordDigest : String) : Option StoredLetter :=
  selectBy (fun row : StoredLetter => row.recordDigest) recordDigest tables.deadLetters

end StoredTables

/-- A call on the stored queue. -/
abbrev StoredM := EStateM Exn StoredTables

namespace StoredQueue

open SealedRelayQueue

variable (H : Host) (ed25519 : List UInt8 → ByteArray → List UInt8 → Bool) (loads : JsonLoads)
  (config : RelayConfig)

/-! ## One wire -/

/-- `wire.decode("utf-8")` and `json.loads`. -/
def loadWire (wire : List UInt8) : Loaded :=
  match String.fromUTF8? ⟨wire.toArray⟩ with
  | none => .malformed
  | some text => loads text

/-- `_decode_queued_record`. Only `ValueError` of `json.loads` passes its `except` clauses. -/
def decodeQueuedRecord (wire : List UInt8) : Except Exn BlindTransportRecord :=
  if wire.length > config.limits.maxRecordWireBytes then
    .error (.protocolError "queued transport record exceeds the wire size limit")
  else
    match loadWire loads wire with
    | .malformed => .error (.protocolError "queued transport record is not valid JSON")
    | .nested => .error (.protocolError "queued transport record is not valid JSON")
    | .longInteger => .error (.valueError "Exceeds the limit for integer string conversion")
    | .constant => .error (.protocolError "non-finite JSON constant is not allowed")
    | .duplicateKey => .error (.protocolError "duplicate key in queued transport record")
    -- Whichever check sees such a value first, its exception becomes a `ProtocolError`.
    | .unencodable => .error (.protocolError "queued transport record violates the wire schema")
    | .value (.obj payload) =>
        match BlindTransportRecord.fromWire H config.limits config.policy.allowLegacyUnsigned
          config.policy.allowLegacyBlankRecipientKeyId payload with
        | .ok record => .ok record
        | .error e =>
            if isWireViolation e then
              .error (.protocolError "queued transport record violates the wire schema")
            else .error e
    | .value _ => .error (.protocolError "queued transport record must be a JSON object")

/-- Decoding and checking one wire. -/
def examine (registry : Option SourceTrustStore) (now : Instant) (recordDigest : String)
    (wire : List UInt8) : Except Exn LeaseVerdict :=
  match (do
    let record ← decodeQueuedRecord H loads config wire
    config.policy.validate ed25519 registry record now now
    pure record : Except Exn BlindTransportRecord) with
  | .ok record =>
      if record.digest H ≠ recordDigest then .ok (.rejected "relay_digest_mismatch")
      else .ok (.accepted record)
  | .error e =>
      match failureCode e with
      | some code => .ok (.rejected code)
      | none => .error e

/-- Reading the wire of a row again, and examining it. -/
def examineStored (registry : Option SourceTrustStore) (now : Instant) (recordDigest : String)
    (wireSize : Nat) : WireColumn → Except Exn LeaseVerdict
  | .other _ => .ok (.rejected "relay_wire_invalid")
  | .blob wire =>
      if wire.length ≠ wireSize then
        .error (.integrityError "relay queue wire size changed while being leased")
      else examine H ed25519 loads config registry now recordDigest wire

/-! ## Leasing -/

/-- What a scan found, in the order of the rows. -/
structure StoredScan where
  leased : List (String × BlindTransportRecord) := []
  oversized : List StoredRow := []
  rejected : List (StoredRow × List UInt8 × String) := []
  budgetBlocked : Bool := false

/-- The loop over the available rows. So far `leased` records are leased, `dead` rows are to be
dead-lettered and `consumed` wire bytes are read. -/
def scanRows (registry : Option SourceTrustStore) (now : Instant) (tables : StoredTables)
    (limit wireBudget : Nat) : Nat → Nat → Nat → List StoredRow → Except Exn StoredScan
  | _, _, _, [] => pure {}
  | leased, dead, consumed, row :: rest =>
      if leased ≥ limit then pure {}
      else
        let wireSize := row.wireJson.length
        if wireSize > config.limits.maxRecordWireBytes then
          if dead ≥ maxDeadLettersPerLease then pure {}
          else do
            let scan ← scanRows registry now tables limit wireBudget leased (dead + 1) consumed rest
            pure { scan with oversized := row :: scan.oversized }
        else if consumed + wireSize > wireBudget then pure { budgetBlocked := true }
        else
          match tables.queueRow row.recordDigest with
          | none =>
              throw (.integrityError "relay queue record disappeared while being leased")
          | some stored =>
              match examineStored H ed25519 loads config registry now row.recordDigest wireSize
                stored.wireJson with
              | .error e => throw e
              | .ok (.rejected code) =>
                  if dead ≥ maxDeadLettersPerLease then pure {}
                  else do
                    let scan ← scanRows registry now tables limit wireBudget leased (dead + 1)
                      (consumed + wireSize) rest
                    pure { scan with
                      rejected := (row, stored.wireJson.bytes, code) :: scan.rejected }
              | .ok (.accepted record) => do
                  let scan ← scanRows registry now tables limit wireBudget (leased + 1) dead
                    (consumed + wireSize) rest
                  pure { scan with leased := (row.recordDigest, record) :: scan.leased }

/-- `WHERE destination_connector = ? AND (lease_expires_at IS NULL OR lease_expires_at <= ?)` -/
def available (destinationConnector now : String) (row : StoredRow) : Bool :=
  decide (row.destinationConnector = destinationConnector) &&
    row.lease.all fun lease => decide (lease.leaseExpiresAt ≤ now)

/-- `ORDER BY received_at ASC, record_digest ASC` -/
def precedes (a b : StoredRow) : Prop :=
  a.receivedAt < b.receivedAt ∨ a.receivedAt = b.receivedAt ∧ a.recordDigest ≤ b.recordDigest

instance : DecidableRel precedes := fun _ _ => inferInstanceAs (Decidable (_ ∨ _))

/-- The rows that a lease scans. -/
def scanned (destinationConnector now : String) (limit : Nat) (queue : List StoredRow) :
    List StoredRow :=
  ((queue.filter (available destinationConnector now)).insertionSort precedes).take
    (limit + maxDeadLettersPerLease)

/-- The letter that a row becomes. -/
def letterOf (now : Instant) (item : StoredRow × List UInt8 × String) : StoredLetter :=
  { toRelayMetadata := item.1.toRelayMetadata, reasonCode := item.2.2
    deadLetteredAt := now.isoformat, wireJson := item.2.1 }

/-- `_dead_letter` and `_dead_letter_oversized`, with the row that has to be there afterwards. -/
def deadLetter (now : Instant) (item : StoredRow × List UInt8 × String) : StoredM StoredLetter := do
  let tables ← get
  let remaining := tables.queue.filter fun r => r.recordDigest ≠ item.1.recordDigest
  let attempted := letterOf now item
  match tables.deadLetterRow item.1.recordDigest with
  | none => do
      set { queue := remaining, deadLetters := tables.deadLetters ++ [attempted] : StoredTables }
      pure attempted
  | some existing => do
      let expected := { attempted with deadLetteredAt := existing.deadLetteredAt }
      if existing ≠ expected then
        throw (.integrityError "relay dead-letter conflict does not match expected record")
      set { tables with queue := remaining }
      pure expected

/-- Dead-lettering what a scan set aside, the oversized rows first. -/
def deadLetterAll (now : Instant) :
    List (StoredRow × List UInt8 × String) → StoredM (List StoredLetter)
  | [] => pure []
  | item :: rest => do
      let expected ← deadLetter now item
      let others ← deadLetterAll now rest
      pure (expected :: others)

/-- `executemany("UPDATE … SET lease_owner = ?, … WHERE record_digest = ?")` with its row count. -/
def fenceRows : List (String × RelayLease) → StoredM Nat
  | [] => pure 0
  | (recordDigest, lease) :: rest => do
      let tables ← get
      let fenced := tables.queue.filter fun row => decide (row.recordDigest = recordDigest)
      set { tables with
        queue := tables.queue.map fun row : StoredRow =>
          if row.recordDigest = recordDigest then { row with lease := some lease } else row }
      let others ← fenceRows rest
      pure (fenced.length + others)

/-- `_assert_dead_letter_postconditions` -/
def assertDeadLetterPostconditions : List StoredLetter → StoredM Unit
  | [] => pure ()
  | expected :: rest => do
      let tables ← get
      if tables.deadLetterRow expected.recordDigest ≠ some expected ∨
          (tables.queueRow expected.recordDigest).isSome then
        throw (.integrityError "relay dead-letter transition postcondition failed")
      assertDeadLetterPostconditions rest

/-- The rows that a scan sets aside for dead-lettering, with the bytes and the reason kept. -/
def StoredScan.setAside (scan : StoredScan) : List (StoredRow × List UInt8 × String) :=
  scan.oversized.map (fun row => (row, [], "relay_wire_invalid")) ++ scan.rejected

/-- The transaction of `lease`, from its `BEGIN` to its `COMMIT`. -/
def leaseTransaction (registry : Option SourceTrustStore)
    (destinationConnector leaseOwner : String) (limit wireBudget : Nat) (now expires : Instant)
    (token : Nat → String) : StoredM (List LeasedRecord × Bool) :=
  transaction do
    let tables ← get
    let scan ← (scanRows H ed25519 loads config registry now tables limit wireBudget 0 0 0
      (scanned destinationConnector now.isoformat limit tables.queue) : Except Exn _)
    let expected ← deadLetterAll now scan.setAside
    let updates := leaseUpdates leaseOwner expires.isoformat token 0 scan.leased
    let fenced ← fenceRows updates
    if fenced ≠ updates.length then
      throw (.integrityError "relay lease batch changed while being fenced")
    assertDeadLetterPostconditions expected
    pure (leasedRecords leaseOwner expires.isoformat token 0 scan.leased, scan.budgetBlocked)

/-- `lease`; the last check comes after the commit. -/
def lease (registry : Option SourceTrustStore) (destinationConnector leaseOwner : String)
    (limit leaseFor : Int) (maxWireBytes : Option Int) (now : Instant) (token : Nat → String) :
    StoredM (List LeasedRecord) := do
  if leaseOwner = "" ∨ leaseOwner.length > 128 then
    throw (.valueError "lease owner is invalid")
  if ¬(1 ≤ limit ∧ limit ≤ 10000) then
    throw (.valueError "lease limit is outside supported range")
  if leaseFor ≤ 0 ∨ leaseFor > maxLeaseDuration then
    throw (.valueError "lease duration is outside supported range")
  let wireBudget : Int := maxWireBytes.getD config.maxBatchWireBytes
  if ¬(1 ≤ wireBudget ∧ wireBudget ≤ config.maxBatchWireBytes) then
    throw (.valueError "relay lease wire limit is outside supported range")
  match now.add leaseFor with
  | none => throw (.overflowError "date value out of range")
  | some expires => do
      let (leased, budgetBlocked) ← leaseTransaction H ed25519 loads config registry
        destinationConnector leaseOwner limit.toNat wireBudget.toNat now expires token
      if budgetBlocked = true ∧ leased.isEmpty then
        throw (.valueError "next relay record exceeds the lease wire limit")
      pure leased

end StoredQueue

end Polymorph
