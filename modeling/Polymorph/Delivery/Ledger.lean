import Polymorph.Concurrency.Transaction
import Polymorph.Transport.Record

/-!
# The delivery ledger

`DeliveryLedger` as transactions over its table of rows. A row is keyed by the delivery identity.
Every call reads the clock once and draws its claim tokens and its batch attempt id from the
outside; the calls of one kind are instances of `transition` and `transitionMany`, as in the
source. A call that raises inside its transaction is rolled back by `transaction`, not by the
shape of the definitions.
-/

set_option autoImplicit false

namespace Polymorph

open Transaction Utc

/-- States of a delivery. -/
inductive DeliveryState where
  | claimed
  | writeStarted
  | batchWriteStarted
  | replayClaimed
  | replayWriteStarted
  | committed
  | uncertain
  | batchUncertain
  | replayUncertain
  | quarantined
  | replayQuarantined
deriving DecidableEq, Repr

/-- What a claim found. -/
inductive ClaimDisposition where
  | new
  | recovered
  | inProgress
  | alreadyCommitted
  | ambiguous
deriving DecidableEq, Repr

/-- Answer of a claim. -/
structure ClaimResult where
  disposition : ClaimDisposition
  state : DeliveryState
  recordDigest : String
  claimToken : Option String := none
  claimExpiresAt : Option Instant := none
  batchAttemptId : Option String := none

/-- The delivery identity: the primary key of a row. -/
structure DeliveryKey where
  tenant : String
  destinationConnector : String
  transferId : String
  recordId : String
deriving DecidableEq

/-- The columns of a row beside its key. -/
structure LedgerRow where
  recordDigest : String
  planDigest : String
  state : DeliveryState
  createdAt : Instant
  updatedAt : Instant
  reasonCode : Option String := none
  claimToken : Option String := none
  claimExpiresAt : Option Instant := none
  currentWriteBatchAttemptId : Option String := none
  idempotencyContractId : Option String := none
deriving DecidableEq

/-- The table `deliveries`. -/
abbrev Ledger := DeliveryKey → Option LedgerRow

/-- A table without rows. -/
def Ledger.empty : Ledger := fun _ => none

/-- A ledger call. -/
abbrev LedgerM := EStateM Exn Ledger

/-- `DeliveryLedger._key`. -/
def BlindTransportRecord.key (r : BlindTransportRecord) : DeliveryKey :=
  ⟨r.tenant, r.destinationConnector, r.transferId, r.recordId⟩

/-- What the clock of one call gives: a datetime, naive or aware, or an exception. -/
abbrev ClockReading := Except Exn Reading

namespace DeliveryLedger

/-- `MAX_LEDGER_BATCH_ITEMS` -/
def maxLedgerBatchItems : Nat := 10000

/-- `MAX_CLAIM_DURATION` in microseconds. -/
def maxClaimDuration : Int := 3600 * 1000000

/-- `DEFAULT_CLAIM_DURATION` in microseconds. -/
def defaultClaimDuration : Int := 300 * 1000000

/-- `MAX_IDEMPOTENCY_CONTRACT_ID_LENGTH` -/
def maxIdempotencyContractIdLength : Nat := 128

/-! ## Validation -/

/-- `DeliveryLedger._now`. -/
def now : ClockReading → Except Exn Instant
  | .ok (.aware instant) => pure instant
  | .ok .naive =>
      throw (.valueError "delivery ledger clock must return a timezone-aware datetime")
  | .error e => throw e

/-- `now_value + lease_for`. -/
def expiry (instant : Instant) (leaseFor : Int) : Except Exn Instant :=
  match instant.add leaseFor with
  | some t => pure t
  | none => throw (.overflowError "date value out of range")

/-- `_validate_lease_duration`. -/
def validateLeaseDuration (leaseFor : Int) : Except Exn Unit :=
  if leaseFor ≤ 0 ∨ leaseFor > maxClaimDuration then
    throw (.valueError "claim duration is outside supported range")
  else pure ()

/-- `_validate_claim_token`. -/
def validateClaimToken (claimToken : String) : Except Exn Unit :=
  if claimToken = "" ∨ claimToken.length > 128 then
    throw (.valueError "claim token is invalid")
  else pure ()

/-- `_validate_batch_attempt_id`. -/
def validateBatchAttemptId (batchAttemptId : String) : Except Exn Unit :=
  if isLowerHex 32 batchAttemptId = false then
    throw (.valueError
      "batch attempt id must be a lowercase 128-bit hexadecimal identifier")
  else pure ()

/-- The shape of an idempotency contract id. -/
def idempotencyContractIdOk (H : Host) (contractId : String) : Bool :=
  contractId ≠ "" && contractId.length ≤ maxIdempotencyContractIdLength &&
    H.printable contractId && contractId = H.strip contractId

/-- `_validate_idempotency_contract_id`. -/
def validateIdempotencyContractId (H : Host) (contractId : String) : Except Exn Unit :=
  if idempotencyContractIdOk H contractId then pure ()
  else throw (.valueError "idempotency contract id is invalid")

/-- An optional contract id given by a caller. -/
def validateOptionalContractId (H : Host) : Option String → Except Exn Unit
  | none => pure ()
  | some contractId => validateIdempotencyContractId H contractId

/-- `_idempotency_contract_from_row`. -/
def idempotencyContractFromRow (H : Host) (row : LedgerRow) : Except Exn (Option String) :=
  match row.idempotencyContractId with
  | none => pure none
  | some contractId =>
      if idempotencyContractIdOk H contractId then pure (some contractId)
      else throw (.integrityError "delivery ledger contains an invalid idempotency contract id")

/-- States of a row whose last write was an atomic batch. -/
def batchStates : List DeliveryState := [.batchWriteStarted, .batchUncertain]

/-- The stored batch attempt id, checked against the row's state. -/
def batchAttemptFromRow (row : LedgerRow) : Except Exn (Option String) :=
  match row.currentWriteBatchAttemptId with
  | some batchAttemptId =>
      if isLowerHex 32 batchAttemptId then pure (some batchAttemptId)
      else throw (.integrityError "delivery ledger contains an invalid batch attempt id")
  | none =>
      if row.state ∈ batchStates then
        throw (.integrityError "batch delivery state is missing its attempt id")
      else pure none

/-- At most `maxLedgerBatchItems` items with pairwise distinct identities. -/
def validateBatch (keys : List DeliveryKey) : Except Exn Unit := do
  if keys.length > maxLedgerBatchItems then
    throw (.valueError "delivery ledger batch exceeds the record count limit")
  if ¬ keys.Nodup then
    throw (.valueError "delivery batch contains a duplicate transfer identity")

/-! ## Statements -/

/-- `SELECT … WHERE` the primary key is `key`. -/
def selectRow (key : DeliveryKey) : LedgerM (Option LedgerRow) := do
  let rows ← get
  pure (rows key)

/-- `INSERT` of a row under a free key. -/
def insertRow (key : DeliveryKey) (row : LedgerRow) : LedgerM Unit := do
  let rows ← get
  set (Function.update rows key (some row))

/-- `UPDATE … SET … WHERE` the primary key is `key` and `cond` holds, with its row count. -/
def updateRow (key : DeliveryKey) (cond : LedgerRow → Bool) (change : LedgerRow → LedgerRow) :
    LedgerM Nat := do
  let rows ← get
  match rows key with
  | some row =>
      if cond row then
        set (Function.update rows key (some (change row)))
        pure 1
      else pure 0
  | none => pure 0

/-! ## Claims -/

/-- Token and expiry of a claim that carries fencing metadata. -/
def fencing (row : LedgerRow) : Option (String × Instant) :=
  match row.claimToken, row.claimExpiresAt with
  | some token, some expires => if token = "" then none else some (token, expires)
  | _, _ => none

/-- One record of `claim_many`, inside its transaction. -/
def claimRecord (H : Host) (instant claimExpiresAt : Instant) (record : BlindTransportRecord)
    (claimToken : String) : LedgerM ClaimResult := do
  let digest := record.digest H
  match ← selectRow record.key with
  | none => do
      insertRow record.key
        { recordDigest := digest, planDigest := record.planDigest, state := .claimed
          createdAt := instant, updatedAt := instant, claimToken := some claimToken
          claimExpiresAt := some claimExpiresAt }
      pure ⟨.new, .claimed, digest, some claimToken, some claimExpiresAt, none⟩
  | some row => do
      if row.recordDigest ≠ digest ∨ row.planDigest ≠ record.planDigest then
        throw (.replayDetected "transfer identity was reused with different authenticated content")
      let batchAttemptId ← batchAttemptFromRow row
      let _ ← idempotencyContractFromRow H row
      let ambiguous : ClaimResult := ⟨.ambiguous, row.state, digest, none, none, batchAttemptId⟩
      match row.state with
      | .committed => pure ⟨.alreadyCommitted, .committed, digest, none, none, batchAttemptId⟩
      | .claimed =>
          match fencing row with
          | none => pure ambiguous
          | some (previousToken, previousExpiry) =>
              if instant < previousExpiry then
                pure ⟨.inProgress, .claimed, digest, none, some previousExpiry, batchAttemptId⟩
              else do
                let count ← updateRow record.key
                  (fun row' => row'.recordDigest = digest && row'.planDigest = record.planDigest &&
                    row'.state = .claimed && row'.claimToken = some previousToken &&
                    row'.claimExpiresAt = some previousExpiry)
                  (fun row' => { row' with
                    claimToken := some claimToken, claimExpiresAt := some claimExpiresAt
                    updatedAt := instant, reasonCode := none })
                if count ≠ 1 then
                  throw (.integrityError "stale delivery claim could not be fenced")
                pure ⟨.recovered, .claimed, digest, some claimToken, some claimExpiresAt,
                  batchAttemptId⟩
      | .replayClaimed =>
          match fencing row with
          | none => pure ambiguous
          | some (_, previousExpiry) =>
              if instant < previousExpiry then
                pure ⟨.inProgress, .replayClaimed, digest, none, some previousExpiry,
                  batchAttemptId⟩
              else pure ambiguous
      -- Every state at or beyond the write boundary needs idempotency or explicit recovery.
      | _ => pure ambiguous

/-- The records of `claim_many` in order; `token i` is the `i`-th token drawn. -/
def claimRecords (H : Host) (instant claimExpiresAt : Instant) (token : Nat → String) :
    Nat → List BlindTransportRecord → LedgerM (List ClaimResult)
  | _, [] => pure []
  | i, record :: rest => do
      let result ← claimRecord H instant claimExpiresAt record (token i)
      let results ← claimRecords H instant claimExpiresAt token (i + 1) rest
      pure (result :: results)

/-- `claim_many`. -/
def claimMany (H : Host) (clock : ClockReading) (token : Nat → String)
    (records : List BlindTransportRecord) (leaseFor : Int) : LedgerM (List ClaimResult) := do
  validateLeaseDuration leaseFor
  if records = [] then
    pure []
  else do
    validateBatch (records.map BlindTransportRecord.key)
    let instant ← now clock
    let claimExpiresAt ← expiry instant leaseFor
    transaction (claimRecords H instant claimExpiresAt token 0 records)

/-! ## Transitions -/

/-- What a transition does to a column that not every transition sets. -/
inductive ColumnChange (α : Type) where
  | keep
  | assign (value : α)

/-- The column after the change. -/
def ColumnChange.apply {α : Type} : ColumnChange α → α → α
  | .keep, old => old
  | .assign value, _ => value

/-- The parameters of `_transition` and `_transition_many`. -/
structure Transition where
  target : DeliveryState
  expected : DeliveryState
  reasonCode : Option String := none
  requireUnexpired : Bool := false
  batchAttempt : ColumnChange (Option String) := .keep
  idempotencyContract : ColumnChange (Option String) := .keep

/-- The `WHERE` clause of a transition. -/
def Transition.applies (t : Transition) (H : Host) (instant : Instant)
    (record : BlindTransportRecord) (claimToken : String) (row : LedgerRow) : Bool :=
  row.recordDigest = record.digest H && row.planDigest = record.planDigest &&
    row.state = t.expected && row.claimToken = some claimToken &&
    (!t.requireUnexpired || match row.claimExpiresAt with
      | some expires => decide (instant < expires)
      | none => false)

/-- The `SET` clause of a transition. -/
def Transition.change (t : Transition) (instant : Instant) (row : LedgerRow) : LedgerRow :=
  { row with
    state := t.target, updatedAt := instant, reasonCode := t.reasonCode
    currentWriteBatchAttemptId := t.batchAttempt.apply row.currentWriteBatchAttemptId
    idempotencyContractId := t.idempotencyContract.apply row.idempotencyContractId }

/-- The contract id a transition stores. -/
def Transition.contractId (t : Transition) : Option String :=
  match t.idempotencyContract with
  | .keep => none
  | .assign contractId => contractId

/-- One fenced `UPDATE`, which must hit its row. -/
def transitionRecord (H : Host) (instant : Instant) (t : Transition) (message : String)
    (record : BlindTransportRecord) (claimToken : String) : LedgerM Unit := do
  let count ← updateRow record.key (t.applies H instant record claimToken) (t.change instant)
  if count ≠ 1 then
    throw (.integrityError message)

/-- `_transition`. -/
def transition (H : Host) (clock : ClockReading) (t : Transition) (record : BlindTransportRecord)
    (claimToken : String) : LedgerM Unit := do
  validateClaimToken claimToken
  validateOptionalContractId H t.contractId
  let instant ← now clock
  transaction
    (transitionRecord H instant t "invalid delivery ledger state transition" record claimToken)

/-- The updates of `_transition_many` in order. -/
def transitionRecords (H : Host) (instant : Instant) (t : Transition) :
    List (BlindTransportRecord × String) → LedgerM Unit
  | [] => pure ()
  | (record, claimToken) :: rest => do
      transitionRecord H instant t "invalid delivery ledger batch state transition" record
        claimToken
      transitionRecords H instant t rest

/-- Validation of every token of a batch. -/
def validateClaimTokens : List (BlindTransportRecord × String) → Except Exn Unit
  | [] => pure ()
  | (_, claimToken) :: rest => do
      validateClaimToken claimToken
      validateClaimTokens rest

/-- The batch attempt id a transition stores, when it stores one. -/
def Transition.validateBatchAttempt (t : Transition) : Except Exn Unit :=
  match t.batchAttempt with
  | .assign (some batchAttemptId) => validateBatchAttemptId batchAttemptId
  | _ => pure ()

/-- `_transition_many`. -/
def transitionMany (H : Host) (clock : ClockReading) (t : Transition)
    (items : List (BlindTransportRecord × String)) : LedgerM Unit :=
  if items = [] then
    pure ()
  else do
    validateBatch (items.map fun item => item.1.key)
    validateClaimTokens items
    t.validateBatchAttempt
    validateOptionalContractId H t.contractId
    let instant ← now clock
    transaction (transitionRecords H instant t items)

/-- The transition of `start_write`. -/
def startWriteTransition (idempotencyContractId : Option String) : Transition :=
  { target := .writeStarted, expected := .claimed, requireUnexpired := true
    batchAttempt := .assign none, idempotencyContract := .assign idempotencyContractId }

/-- The transition of `start_replay_write`: it keeps the stored contract id. -/
def startReplayWriteTransition : Transition :=
  { target := .replayWriteStarted, expected := .replayClaimed, requireUnexpired := true }

/-- The transition of `start_write_many`. -/
def startWriteManyTransition (batchAttemptId : String) (idempotencyContractId : Option String) :
    Transition :=
  { target := .batchWriteStarted, expected := .claimed, requireUnexpired := true
    batchAttempt := .assign (some batchAttemptId)
    idempotencyContract := .assign idempotencyContractId }

/-- The transition of the calls that record an acknowledged write. -/
def committedTransition (expected : DeliveryState) : Transition :=
  { target := .committed, expected := expected }

/-- The transition of the calls that record an unknown write outcome. -/
def uncertainTransition (target expected : DeliveryState) (reasonCode : String) : Transition :=
  { target := target, expected := expected, reasonCode := some reasonCode }

/-- The transition of `mark_quarantined`. -/
def quarantinedTransition (reasonCode : String) (expectedState : DeliveryState) : Transition :=
  { target :=
      if expectedState ∈ [DeliveryState.replayClaimed, .replayWriteStarted] then
        .replayQuarantined
      else .quarantined
    expected := expectedState, reasonCode := some reasonCode
    requireUnexpired := decide (expectedState ∈ [DeliveryState.claimed, .replayClaimed]) }

/-- The transition of `mark_quarantined_many`. -/
def quarantinedManyTransition (reasonCode : String) (expectedState : DeliveryState) :
    Transition :=
  { target := .quarantined, expected := expectedState, reasonCode := some reasonCode
    requireUnexpired := decide (expectedState = .claimed) }

/-- `start_write`. -/
def startWrite (H : Host) (clock : ClockReading) (record : BlindTransportRecord)
    (claimToken : String) (idempotencyContractId : Option String) : LedgerM Unit :=
  transition H clock (startWriteTransition idempotencyContractId) record claimToken

/-- `start_replay_write`. -/
def startReplayWrite (H : Host) (clock : ClockReading) (record : BlindTransportRecord)
    (claimToken : String) : LedgerM Unit :=
  transition H clock startReplayWriteTransition record claimToken

/-- `start_write_many`; `batchAttemptId` is the identifier drawn for the attempt. -/
def startWriteMany (H : Host) (clock : ClockReading) (batchAttemptId : String)
    (items : List (BlindTransportRecord × String)) (idempotencyContractId : Option String) :
    LedgerM String := do
  transitionMany H clock (startWriteManyTransition batchAttemptId idempotencyContractId) items
  pure batchAttemptId

/-- `mark_committed`. -/
def markCommitted (H : Host) (clock : ClockReading) (record : BlindTransportRecord)
    (claimToken : String) : LedgerM Unit :=
  transition H clock (committedTransition .writeStarted) record claimToken

/-- `mark_replay_committed`. -/
def markReplayCommitted (H : Host) (clock : ClockReading) (record : BlindTransportRecord)
    (claimToken : String) : LedgerM Unit :=
  transition H clock (committedTransition .replayWriteStarted) record claimToken

/-- `mark_committed_many`. -/
def markCommittedMany (H : Host) (clock : ClockReading)
    (items : List (BlindTransportRecord × String)) : LedgerM Unit :=
  transitionMany H clock (committedTransition .batchWriteStarted) items

/-- `mark_uncertain`. -/
def markUncertain (H : Host) (clock : ClockReading) (record : BlindTransportRecord)
    (reasonCode claimToken : String) : LedgerM Unit :=
  transition H clock (uncertainTransition .uncertain .writeStarted reasonCode) record claimToken

/-- `mark_replay_uncertain`. -/
def markReplayUncertain (H : Host) (clock : ClockReading) (record : BlindTransportRecord)
    (reasonCode claimToken : String) : LedgerM Unit :=
  transition H clock (uncertainTransition .replayUncertain .replayWriteStarted reasonCode) record
    claimToken

/-- `mark_uncertain_many`. -/
def markUncertainMany (H : Host) (clock : ClockReading)
    (items : List (BlindTransportRecord × String)) (reasonCode : String) : LedgerM Unit :=
  transitionMany H clock (uncertainTransition .batchUncertain .batchWriteStarted reasonCode) items

/-- The states `mark_quarantined` accepts. -/
def quarantineStates : List DeliveryState :=
  [.claimed, .writeStarted, .replayClaimed, .replayWriteStarted]

/-- `mark_quarantined`. -/
def markQuarantined (H : Host) (clock : ClockReading) (record : BlindTransportRecord)
    (reasonCode claimToken : String) (expectedState : DeliveryState := .claimed) :
    LedgerM Unit :=
  if expectedState ∈ quarantineStates then
    transition H clock (quarantinedTransition reasonCode expectedState) record claimToken
  else throw (.valueError "invalid state for delivery quarantine")

/-- The states `mark_quarantined_many` accepts. -/
def batchQuarantineStates : List DeliveryState := [.claimed, .batchWriteStarted]

/-- `mark_quarantined_many`. -/
def markQuarantinedMany (H : Host) (clock : ClockReading)
    (items : List (BlindTransportRecord × String)) (reasonCode : String)
    (expectedState : DeliveryState := .claimed) : LedgerM Unit :=
  if expectedState ∈ batchQuarantineStates then
    transitionMany H clock (quarantinedManyTransition reasonCode expectedState) items
  else throw (.valueError "invalid state for delivery quarantine")

/-! ## Retries and reads -/

/-- The state a retry enters from the state it found. -/
def rearmTarget (expectedState : DeliveryState) : DeliveryState :=
  if expectedState = .quarantined then .claimed else .replayClaimed

/-- The transaction of `rearm_for_retry`. -/
def rearmRecord (H : Host) (instant claimExpiresAt : Instant) (claimToken : String)
    (record : BlindTransportRecord) (expectedState : DeliveryState) : LedgerM ClaimResult := do
  let digest := record.digest H
  match ← selectRow record.key with
  | none => throw (.integrityError "invalid delivery ledger retry transition")
  | some row => do
      if row.recordDigest ≠ digest ∨ row.planDigest ≠ record.planDigest ∨
          row.state ≠ expectedState then
        throw (.integrityError "invalid delivery ledger retry transition")
      if expectedState ∈ [DeliveryState.claimed, .replayClaimed] ∧
          (fencing row).any (fun fence => instant < fence.2) then
        throw (.integrityError "active delivery claim cannot be rearmed")
      let batchAttemptId ← batchAttemptFromRow row
      let _ ← idempotencyContractFromRow H row
      let count ← updateRow record.key
        (fun row' => row'.recordDigest = digest && row'.planDigest = record.planDigest &&
          row'.state = expectedState && row'.claimToken = row.claimToken &&
          row'.claimExpiresAt = row.claimExpiresAt &&
          row'.currentWriteBatchAttemptId = batchAttemptId)
        (fun row' => { row' with
          state := rearmTarget expectedState, updatedAt := instant
          claimToken := some claimToken, claimExpiresAt := some claimExpiresAt })
      if count ≠ 1 then
        throw (.integrityError "invalid delivery ledger retry transition")
      pure ⟨.recovered, rearmTarget expectedState, digest, some claimToken,
        some claimExpiresAt, batchAttemptId⟩

/-- `rearm_for_retry`. -/
def rearmForRetry (H : Host) (clock : ClockReading) (claimToken : String)
    (record : BlindTransportRecord) (expectedState : DeliveryState) (leaseFor : Int) :
    LedgerM ClaimResult := do
  if expectedState = .committed then
    throw (.valueError "delivery state cannot be rearmed")
  validateLeaseDuration leaseFor
  let instant ← now clock
  let claimExpiresAt ← expiry instant leaseFor
  transaction (rearmRecord H instant claimExpiresAt claimToken record expectedState)

/-- `get`: the row under the record's identity. -/
def get (H : Host) (record : BlindTransportRecord) : LedgerM (Option LedgerRow) := do
  match ← selectRow record.key with
  | none => pure none
  | some row => do
      let _ ← batchAttemptFromRow row
      let _ ← idempotencyContractFromRow H row
      pure (some row)

end DeliveryLedger

end Polymorph
