import Polymorph.Concurrency.Transaction
import Polymorph.Storage.Table
import Polymorph.Transport.Binding
import Polymorph.Transport.WireCodec

/-!
# The source outbox

`SourceOutbox`: the table of sealed records that await an acknowledgement, with the calls
`stage_many`, `pending` and `ack_many`. The text of a row is the canonical wire whose UTF-8
encoding the code stores.
-/

set_option autoImplicit false

namespace Polymorph

open JsonText Transaction Table Utc

/-- A row of `sealed_source_outbox`. -/
structure OutboxRow where
  recordDigest : String
  tenant : String
  sourceConnector : String
  destinationConnector : String
  transferId : String
  recordId : String
  planDigest : String
  stagedAt : String
  wireJson : String
deriving DecidableEq

/-- The columns under which a row is unique. -/
structure OutboxKey where
  tenant : String
  sourceConnector : String
  destinationConnector : String
  transferId : String
  recordId : String
deriving DecidableEq

def OutboxRow.key (row : OutboxRow) : OutboxKey :=
  ⟨row.tenant, row.sourceConnector, row.destinationConnector, row.transferId, row.recordId⟩

/-- The transfer identity of a record. -/
def BlindTransportRecord.outboxKey (r : BlindTransportRecord) : OutboxKey :=
  ⟨r.tenant, r.sourceConnector, r.destinationConnector, r.transferId, r.recordId⟩

/-- The table `sealed_source_outbox`. -/
abbrev Outbox := List OutboxRow

/-- An outbox call. -/
abbrev OutboxM := EStateM Exn Outbox

/-- Construction parameters of an outbox. -/
structure OutboxConfig where
  limits : ProtocolLimits := {}
  allowLegacyUnsigned : Bool := false
  allowLegacyBlankRecipientKeyId : Bool := false
  maxBatchWireBytes : Nat := 64 * 1024 * 1024
  admitsOneRecord : 0 < maxBatchWireBytes ∧ limits.maxRecordWireBytes ≤ maxBatchWireBytes := by
    decide

structure OutboxReceipt where
  recordDigest : String
  stagedAt : String
  duplicate : Bool := false
deriving DecidableEq

structure PendingRecord where
  record : BlindTransportRecord
  wireBytes : String
  stagedAt : String

namespace SourceOutbox

/-- `MAX_OUTBOX_BATCH_ITEMS` -/
def maxOutboxBatchItems : Nat := 10000

variable (H : Host) (config : OutboxConfig)

/-- `BlindTransportRecord.from_wire(json.loads(wire))` under the outbox's limits and policies. -/
def decodeWire (wire : String) : Except Exn BlindTransportRecord :=
  match plainLoads wire with
  | some (.obj payload) =>
      BlindTransportRecord.fromWire H config.limits config.allowLegacyUnsigned
        config.allowLegacyBlankRecipientKeyId payload
  | some _ => .error (.other "AttributeError: the wire is not an object")
  | none => .error (.valueError "Expecting value")

/-! ## Staging -/

/-- The row of a record. -/
def rowOf (record : BlindTransportRecord) (stagedAt : String) : OutboxRow :=
  { recordDigest := record.digest H, tenant := record.tenant
    sourceConnector := record.sourceConnector, destinationConnector := record.destinationConnector
    transferId := record.transferId, recordId := record.recordId
    planDigest := record.planDigest, stagedAt := stagedAt, wireJson := record.canonicalWire }

/-- `_prepare_stage`: the row to insert. -/
def prepareStage (instant : Instant) (record : BlindTransportRecord) : Except Exn OutboxRow := do
  if record.wireBytes > config.limits.maxRecordWireBytes then
    throw (.protocolError "sealed record exceeds source outbox size limit")
  let parsed ← decodeWire H config record.canonicalWire
  if parsed.digest H ≠ record.digest H then
    throw (.integrityError "sealed source outbox record digest mismatch")
  pure (rowOf H record instant.isoformat)

/-- Validation of a batch: at position `index` with `total` wire bytes before it. -/
def prepareBatch (clock : Nat → Instant) :
    Nat → Nat → List BlindTransportRecord → Except Exn (List OutboxRow)
  | _, _, [] => pure []
  | index, total, record :: rest => do
      if index ≥ maxOutboxBatchItems then
        throw (.valueError "source outbox batch exceeds the record count limit")
      let row ← prepareStage H config (clock index) record
      if total + record.wireBytes > config.maxBatchWireBytes then
        throw (.valueError "source outbox batch exceeds the wire byte limit")
      let rows ← prepareBatch clock (index + 1) (total + record.wireBytes) rest
      pure (row :: rows)

/-- `INSERT` under the primary key and the unique identity. -/
def insertRow (row : OutboxRow) : OutboxM Unit := do
  let rows ← get
  if (selectBy OutboxRow.recordDigest row.recordDigest rows).isSome ∨
      (selectBy OutboxRow.key row.key rows).isSome then
    throw (.other "UNIQUE constraint failed: sealed_source_outbox")
  set (rows ++ [row])

/-- One prepared record: its receipt, and the row that has to be there afterwards. -/
def stageRow (row : OutboxRow) : OutboxM (OutboxReceipt × OutboxRow) := do
  let rows ← get
  match selectBy OutboxRow.key row.key rows with
  | some identity => do
      if identity.recordDigest ≠ row.recordDigest ∨ identity.wireJson ≠ row.wireJson then
        throw (.replayDetected
          "source outbox transfer identity was reused with different sealed bytes")
      let expected := { row with stagedAt := identity.stagedAt }
      if identity ≠ expected then
        throw (.integrityError
          "sealed source outbox stored metadata does not match sealed record")
      pure (⟨row.recordDigest, identity.stagedAt, true⟩, expected)
  | none => do
      insertRow row
      pure (⟨row.recordDigest, row.stagedAt, false⟩, row)

def stageRows : List OutboxRow → OutboxM (List (OutboxReceipt × OutboxRow))
  | [] => pure []
  | row :: rest => do
      let staged ← stageRow row
      let others ← stageRows rest
      pure (staged :: others)

/-- The persistence postcondition. -/
def checkPersisted : List OutboxRow → OutboxM Unit
  | [] => pure ()
  | expected :: rest => do
      let rows ← get
      if selectBy OutboxRow.recordDigest expected.recordDigest rows ≠ some expected then
        throw (.integrityError "sealed source outbox write postcondition failed")
      checkPersisted rest

/-- `stage_many`; `clock` gives the time read for each position. -/
def stageMany (clock : Nat → Instant) (records : List BlindTransportRecord) :
    OutboxM (List OutboxReceipt) := do
  let prepared ← (prepareBatch H config clock 0 0 records : Except Exn _)
  if prepared = [] then
    pure []
  else
    transaction do
      let staged ← stageRows prepared
      checkPersisted (staged.map Prod.snd)
      pure (staged.map Prod.fst)

/-! ## Reading -/

/-- `ORDER BY staged_at ASC, record_digest ASC` -/
def precedes (a b : OutboxRow) : Prop :=
  a.stagedAt < b.stagedAt ∨ a.stagedAt = b.stagedAt ∧ a.recordDigest ≤ b.recordDigest

instance : DecidableRel precedes := fun _ _ => inferInstanceAs (Decidable (_ ∨ _))

/-- The rows in the order of `pending`. -/
def ordered (rows : Outbox) : Outbox := rows.insertionSort precedes

/-- The rows within the wire budget; `total` bytes are selected so far. -/
def selectPending (budget : Nat) : Nat → Bool → List OutboxRow → Except Exn (List OutboxRow)
  | _, _, [] => pure []
  | total, selected, row :: rest => do
      let wireSize := row.wireJson.utf8ByteSize
      if wireSize > config.limits.maxRecordWireBytes then
        throw (.integrityError "sealed source outbox record exceeds its wire size limit")
      if total + wireSize > budget then
        if selected = false then
          throw (.valueError "next outbox record exceeds the pending wire limit")
        pure []
      else do
        let others ← selectPending budget (total + wireSize) true rest
        pure (row :: others)

/-- One selected row, read again and decoded. -/
def readPending (selected : OutboxRow) : OutboxM PendingRecord := do
  let rows ← get
  match selectBy OutboxRow.recordDigest selected.recordDigest rows with
  | none =>
      throw (.integrityError "sealed source outbox record disappeared while reading")
  | some stored => do
      if stored.wireJson.utf8ByteSize ≠ selected.wireJson.utf8ByteSize then
        throw (.integrityError "sealed source outbox wire size changed while reading")
      let record ← (decodeWire H config stored.wireJson : Except Exn _)
      if record.digest H ≠ selected.recordDigest then
        throw (.integrityError "sealed source outbox record digest mismatch")
      if record.canonicalWire ≠ stored.wireJson then
        throw (.integrityError "sealed source outbox wire representation is not canonical")
      pure ⟨record, record.canonicalWire, selected.stagedAt⟩

def readAllPending : List OutboxRow → OutboxM (List PendingRecord)
  | [] => pure []
  | selected :: rest => do
      let record ← readPending H config selected
      let others ← readAllPending rest
      pure (record :: others)

/-- `pending` -/
def pending (limit : Int) (maxWireBytes : Option Int) : OutboxM (List PendingRecord) := do
  if ¬(1 ≤ limit ∧ limit ≤ 10000) then
    throw (.valueError "outbox limit is outside supported range")
  let wireBudget : Int := maxWireBytes.getD config.maxBatchWireBytes
  if ¬(1 ≤ wireBudget ∧ wireBudget ≤ config.maxBatchWireBytes) then
    throw (.valueError "outbox pending wire limit is outside supported range")
  transaction do
    let rows ← get
    let selected ← (selectPending config wireBudget.toNat 0 false
      ((ordered rows).take limit.toNat) : Except Exn _)
    readAllPending H config selected

/-! ## Acknowledging -/

/-- Validation of every digest of an acknowledgement; `index` counts those before. -/
def validateDigests : Nat → List String → Except Exn Unit
  | _, [] => pure ()
  | index, recordDigest :: rest => do
      if index ≥ maxOutboxBatchItems then
        throw (.valueError "source outbox acknowledgement batch exceeds the record count limit")
      if isLowerHex 64 recordDigest = false then
        throw (.valueError "source outbox record digest must be a lowercase SHA-256 digest")
      validateDigests (index + 1) rest

/-- `DELETE … WHERE record_digest = ?` for each digest, with the prior presence of its row. -/
def deleteDigests : List String → OutboxM (List Bool)
  | [] => pure []
  | recordDigest :: rest => do
      let rows ← get
      let remaining := rows.filter fun row => row.recordDigest ≠ recordDigest
      set remaining
      let others ← deleteDigests rest
      pure (decide (rows.length - remaining.length = 1) :: others)

/-- `ack_many` -/
def ackMany (recordDigests : List String) : OutboxM (List Bool) := do
  validateDigests 0 recordDigests
  if recordDigests = [] then
    pure []
  else
    transaction (deleteDigests recordDigests)

end SourceOutbox

end Polymorph
