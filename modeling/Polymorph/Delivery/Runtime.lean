import Polymorph.Concurrency.Program
import Polymorph.Delivery.Capabilities
import Polymorph.Delivery.Chunks
import Polymorph.Delivery.LedgerCalls
import Polymorph.Delivery.Spool
import Polymorph.Model.Schema

/-!
# The destination runtime

`deliver`, `deliver_many` and `replay` as programs over the calls they make: the ledger, the spool,
the connector, the destination agent and the capability authorizer. A program is the same whatever
runs beside it; sequential and interleaved semantics are given elsewhere. Receipts are built
without the audit and event sinks, whose failures the source swallows.
-/

set_option autoImplicit false

namespace Polymorph

open Concurrency

/-- A decrypted record: the keys of a dictionary in order. -/
abbrev Payload := List (String × PyValue)

/-- Raw bytes of a recipient's private key. -/
abbrev PrivateKey := List UInt8

/-- Operations a capability may grant. -/
inductive CapabilityOperation where
  | readSchema
  | readRecords
  | writeRecords
  | replay
  | forceUncertainReplay
deriving DecidableEq

/-- `DeliveryContext` -/
structure DeliveryContext where
  transferId : String
  recordId : String
  recordDigest : String
  idempotencyKey : String
deriving DecidableEq

/-- `BatchWriteItem` -/
structure BatchWriteItem where
  values : Payload
  context : DeliveryContext
  wireBytes : Nat

/-- Calls of the runtime. The records beside a write name what its values were opened from. -/
inductive Op where
  | capabilities
  | authorizeRecord (record : BlindTransportRecord)
  | authorizeCapability (operation : CapabilityOperation) (record : BlindTransportRecord)
  | openRecord (record : BlindTransportRecord) (privateKey : PrivateKey)
  | resolveForeignKey (targetFieldId matchColumn : String) (value : PyValue)
  | ledger (call : LedgerCall)
  | quarantine (records : List BlindTransportRecord) (reasonCode : String)
  | spoolGet (recordDigest : String)
  | remove (recordDigests : List String)
  | writeRecords (record : BlindTransportRecord) (values : Payload) (context : DeliveryContext)
  | writeBatch (items : List (BlindTransportRecord × BatchWriteItem))

/-- What a call answers. A write answers its count, `none` when it is not an `int`. -/
abbrev Op.Res : Op → Type
  | .capabilities => ConnectorCapabilities
  | .authorizeRecord _ => PrivateKey
  | .authorizeCapability _ _ => Unit
  | .openRecord _ _ => Payload
  | .resolveForeignKey _ _ _ => PyValue
  | .ledger call => call.Answer
  | .quarantine _ _ => Unit
  | .spoolGet _ => Option BlindTransportRecord
  | .remove _ => Nat
  | .writeRecords _ _ _ => Option Int
  | .writeBatch _ => Option Int

/-- A program of the runtime. -/
abbrev RuntimeM := Prog Op Op.Res Exn

/-- One call of the runtime. -/
def call (op : Op) : RuntimeM op.Res := Prog.perform op

/-- Construction parameters of a runtime. -/
structure DestinationRuntime where
  connectorId : String
  plan : MappingPlan
  targetSchema : SchemaDescriptor
  /-- A capability authorizer is configured. -/
  authorizer : Bool := false
  /-- An event stream is configured. -/
  events : Bool := false
  /-- The connector has a `write_batch` method. -/
  batchWriter : Bool := false
  /-- The connector has a `resolve_foreign_key` method. -/
  resolver : Bool := false
  /-- Lease of a claim in microseconds. -/
  claimLease : Int := DeliveryLedger.defaultClaimDuration
  spool : SpoolConfig := {}

namespace DestinationRuntime

open Prog

variable (H : Host) (rt : DestinationRuntime)

/-- `_mapped_target_fields` -/
def mappedTargetFields : List FieldDescriptor :=
  rt.plan.rules.filterMap fun rule => rt.targetSchema.fieldById? rule.targetFieldId

/-- `_idempotency_key` -/
def idempotencyKey (record : BlindTransportRecord) : String :=
  H.sha256Hex ("\x00".intercalate ["angusu.bridge.delivery/v1", record.tenant,
    record.destinationConnector, record.transferId, record.recordId, record.digest H])

/-- The delivery context of a record. -/
def deliveryContext (record : BlindTransportRecord) : DeliveryContext :=
  { transferId := record.transferId, recordId := record.recordId
    recordDigest := record.digest H, idempotencyKey := idempotencyKey H record }

/-- `_receipt`, without the sinks. -/
def receipt (record : BlindTransportRecord) (status : DeliveryStatus)
    (reasonCode : Option String := none) (retrySafe : Bool := false)
    (batchAttemptId : Option String := none) : DeliveryReceipt :=
  { status := status, tenant := record.tenant
    destinationConnector := record.destinationConnector, transferId := record.transferId
    recordId := record.recordId, recordDigest := record.digest H, planDigest := record.planDigest
    reasonCode := reasonCode, retrySafe := retrySafe, batchAttemptId := batchAttemptId }

/-- `_authorize_capability` -/
def authorizeCapability (operation : CapabilityOperation) (record : BlindTransportRecord) :
    RuntimeM Unit :=
  if rt.authorizer then call (.authorizeCapability operation record) else pure ()

/-! ## Payload checks -/

/-- `_record_uses_runtime_plan` -/
def recordUsesRuntimePlan (record : BlindTransportRecord) : Bool :=
  record.planId = rt.plan.id && record.planDigest = rt.plan.digest H

/-- `_payload_has_exact_mapped_fields` -/
def payloadHasExactMappedFields (payload : Payload) : Bool :=
  payload.all (fun p => rt.mappedTargetFields.any fun f => f.id = p.1) &&
    rt.mappedTargetFields.all fun f => payload.any fun p => p.1 = f.id

/-- Whether one mapped field of the payload satisfies its declared type and nullability. -/
def fieldSatisfied (payload : Payload) (target : FieldDescriptor) : Bool :=
  match JsonText.dictGet target.id payload with
  | none => false
  | some .none => target.nullable
  | some value => valueSatisfiesType value target.dataType

/-- `_payload_satisfies_target_contract` -/
def payloadSatisfiesTargetContract (payload : Payload) : Bool :=
  rt.payloadHasExactMappedFields payload && rt.mappedTargetFields.all (fieldSatisfied payload)

/-- Transforms that run at the source. -/
def sourceTransforms : List String :=
  ["copy", "trim", "parse_integer", "parse_decimal", "parse_datetime"]

/-- One rule of `_apply_destination_transforms`. -/
def applyDestinationTransform (rule : MappingRule) (payload : Payload) : RuntimeM Payload :=
  if rule.transform ∈ sourceTransforms ∨ rule.transform = "opaque_forward" then
    pure payload
  else if rule.transform ≠ "lookup_foreign_key" then
    raise (.polymorphError s!"unknown transform: {rule.transform}")
  else if rt.resolver = false then
    raise (.policyViolation "destination connector cannot resolve foreign keys")
  else
    let matchColumn := rule.parameter "match_column"
    let relation := rt.targetSchema.relationForSourceField rule.targetFieldId
    match matchColumn, relation.bind (fun r => matchColumn.bind r.lookupKey) with
    | some matchColumn, some lookupKey =>
        match (JsonText.dictGet rule.targetFieldId payload).getD .none with
        | .none => pure payload
        | value =>
            if valueSatisfiesType value lookupKey.dataType = false then
              raise (.policyViolation "foreign-key input violates lookup-column type")
            else do
              match ← call (.resolveForeignKey rule.targetFieldId matchColumn value) with
              | .none =>
                  raise (.policyViolation "non-null foreign-key lookup input did not resolve")
              | resolved => pure (JsonText.dictSet rule.targetFieldId resolved payload)
    | _, _ => raise (.integrityError "foreign-key mapping is missing match_column")

/-- `_apply_destination_transforms` -/
def applyDestinationTransforms : List MappingRule → Payload → RuntimeM Payload
  | [], payload => pure payload
  | rule :: rest, payload => do
      let payload ← rt.applyDestinationTransform rule payload
      applyDestinationTransforms rest payload

/-- The checks between the claim and the write boundary: the payload to write, or the reason code
of the check that failed. -/
def checkedPayload (record : BlindTransportRecord) (opened : RuntimeM Payload) :
    RuntimeM (Except String Payload) := do
  match ← attempt opened with
  | .error _ => pure (.error "transport_verification_failed")
  | .ok payload =>
      if !rt.recordUsesRuntimePlan H record || !rt.payloadHasExactMappedFields payload then
        pure (.error "destination_contract_failed")
      else
        match ← attempt (rt.applyDestinationTransforms rt.plan.rules payload) with
        | .error _ => pure (.error "destination_resolution_failed")
        | .ok payload =>
            if rt.payloadSatisfiesTargetContract payload then pure (.ok payload)
            else pure (.error "destination_contract_failed")

/-- Whether the advertised capabilities still equal the authorized ones. -/
def capabilityChanged (authorized : ConnectorCapabilities) : RuntimeM Bool := do
  match ← attempt (call .capabilities) with
  | .ok current => pure (decide (current ≠ authorized))
  | .error _ => pure true

/-! ## One record -/

/-- `_quarantine_before_write` -/
def quarantineBeforeWrite (record : BlindTransportRecord) (reasonCode claimToken : String)
    (expectedState : DeliveryState := .claimed) (batchAttemptId : Option String := none)
    (retrySafe : Bool := false) : RuntimeM DeliveryReceipt := do
  call (.quarantine [record] reasonCode)
  match ← attempt (call
      (.ledger (.markQuarantined record reasonCode claimToken expectedState))) with
  | .ok _ =>
      pure (receipt H record .quarantined (some reasonCode) retrySafe batchAttemptId)
  | .error (.integrityError _) => do
      let current ← attempt (call (.ledger (.get record)))
      match current with
      | .ok (some row) =>
          if row.state = .committed then do
            match ← attempt (call (.remove [record.digest H])) with
            | .ok _ =>
                pure (receipt H record .duplicate none false row.currentWriteBatchAttemptId)
            | .error _ =>
                pure (receipt H record .duplicate (some "sealed_spool_cleanup_failed") false
                  row.currentWriteBatchAttemptId)
          else pure (receipt H record .ambiguous (some "delivery_claim_lost") false batchAttemptId)
      | _ => pure (receipt H record .ambiguous (some "delivery_claim_lost") false batchAttemptId)
  | .error e => raise e

/-- Arguments of `_deliver_claimed` beside the record. -/
structure ClaimedDelivery where
  claimToken : String
  authorizedPrivateKey : Option PrivateKey := none
  replayAttempt : Bool := false
  batchAttemptId : Option String := none
  historicalIdempotencyContractId : Option String := none
  authorizedCapabilities : ConnectorCapabilities

/-- `claimed_state` -/
def ClaimedDelivery.claimedState (c : ClaimedDelivery) : DeliveryState :=
  if c.replayAttempt then .replayClaimed else .claimed

/-- `write_started_state` -/
def ClaimedDelivery.writeStartedState (c : ClaimedDelivery) : DeliveryState :=
  if c.replayAttempt then .replayWriteStarted else .writeStarted

/-- `write_retry_safe` -/
def ClaimedDelivery.writeRetrySafe (c : ClaimedDelivery) : Bool :=
  let scalar := scalarIdempotencyContractId c.authorizedCapabilities
  if c.replayAttempt then
    c.historicalIdempotencyContractId.isSome && c.historicalIdempotencyContractId = scalar &&
      (c.batchAttemptId.isNone ||
        (batchIdempotencyContractId c.authorizedCapabilities).isSome)
  else scalar.isSome

/-- `open_record`, or `_open_authorized_record` when the key was authorized before. -/
def openClaimed (record : BlindTransportRecord) (c : ClaimedDelivery) : RuntimeM Payload := do
  match c.authorizedPrivateKey with
  | some privateKey => call (.openRecord record privateKey)
  | none => do
      let privateKey ← call (.authorizeRecord record)
      call (.openRecord record privateKey)

/-- The call that crosses the write boundary. -/
def ClaimedDelivery.startCall (record : BlindTransportRecord) (c : ClaimedDelivery) : LedgerCall :=
  if c.replayAttempt then .startReplayWrite record c.claimToken
  else .startWrite record c.claimToken (scalarIdempotencyContractId c.authorizedCapabilities)

/-- The call that records an unknown outcome. -/
def ClaimedDelivery.uncertainCall (record : BlindTransportRecord) (c : ClaimedDelivery) :
    LedgerCall :=
  if c.replayAttempt then .markReplayUncertain record "write_outcome_unknown" c.claimToken
  else .markUncertain record "write_outcome_unknown" c.claimToken

/-- The call that records an acknowledged write. -/
def ClaimedDelivery.committedCall (record : BlindTransportRecord) (c : ClaimedDelivery) :
    LedgerCall :=
  if c.replayAttempt then .markReplayCommitted record c.claimToken
  else .markCommitted record c.claimToken

/-- A ledger call whose answer is not used. -/
def ledgerCall (c : LedgerCall) : RuntimeM Unit := do
  let _ ← call (.ledger c)
  pure ()

/-- After a write proven not to have happened. -/
def writeNotCommitted (record : BlindTransportRecord) (c : ClaimedDelivery) :
    RuntimeM DeliveryReceipt := do
  call (.quarantine [record] "write_not_committed")
  ledgerCall
    (.markQuarantined record "write_not_committed" c.claimToken c.writeStartedState)
  pure (receipt H record .quarantined (some "write_not_committed")
    (if c.replayAttempt then c.writeRetrySafe else true) c.batchAttemptId)

/-- After a write whose effect is not known. -/
def writeOutcomeUnknown (record : BlindTransportRecord) (c : ClaimedDelivery) :
    RuntimeM DeliveryReceipt := do
  call (.quarantine [record] "write_outcome_unknown")
  ledgerCall (c.uncertainCall record)
  pure (receipt H record .quarantined (some "write_outcome_unknown") c.writeRetrySafe
    c.batchAttemptId)

/-- After an acknowledged write: commit, then clean up. -/
def writeAcknowledged (record : BlindTransportRecord) (c : ClaimedDelivery) :
    RuntimeM DeliveryReceipt := do
  match ← attempt (ledgerCall (c.committedCall record)) with
  | .error _ => do
      call (.quarantine [record] "delivery_outcome_record_failed")
      pure (receipt H record .ambiguous (some "delivery_outcome_record_failed") c.writeRetrySafe
        c.batchAttemptId)
  | .ok _ =>
      match ← attempt (call (.remove [record.digest H])) with
      | .error _ =>
          pure (receipt H record .delivered (some "sealed_spool_cleanup_failed") false
            c.batchAttemptId)
      | .ok _ => pure (receipt H record .delivered none false c.batchAttemptId)

/-- The connector call of one record and what follows each outcome. -/
def writeScalar (record : BlindTransportRecord) (c : ClaimedDelivery) (payload : Payload) :
    RuntimeM DeliveryReceipt := do
  match ← attempt (call (.writeRecords record payload (deliveryContext H record))) with
  | .ok written =>
      if written = some 1 then writeAcknowledged H record c else writeOutcomeUnknown H record c
  | .error e =>
      if e.provesNotCommitted then writeNotCommitted H record c
      else writeOutcomeUnknown H record c

/-- Cross the write boundary, then write. A lost claim is reported, never written. -/
def crossAndWrite (record : BlindTransportRecord) (c : ClaimedDelivery) (payload : Payload) :
    RuntimeM DeliveryReceipt := do
  match ← attempt (ledgerCall (c.startCall record)) with
  | .error (.integrityError _) =>
      pure (receipt H record .ambiguous (some "delivery_claim_lost") false c.batchAttemptId)
  | .error e => raise e
  | .ok _ => writeScalar H record c payload

/-- `_deliver_claimed` -/
def deliverClaimed (record : BlindTransportRecord) (c : ClaimedDelivery) :
    RuntimeM DeliveryReceipt := do
  match ← rt.checkedPayload H record (openClaimed record c) with
  | .error reasonCode =>
      quarantineBeforeWrite H record reasonCode c.claimToken c.claimedState c.batchAttemptId
        c.writeRetrySafe
  | .ok payload => do
      if ← capabilityChanged c.authorizedCapabilities then
        quarantineBeforeWrite H record
          (if c.replayAttempt then "replay_capability_changed"
            else "destination_capability_changed")
          c.claimToken c.claimedState c.batchAttemptId (!c.replayAttempt)
      else crossAndWrite H record c payload

/-- The reason code of an ambiguous claim. -/
def ambiguousReason (state : DeliveryState) : String :=
  if state ∈ [DeliveryState.writeStarted, .batchWriteStarted, .replayWriteStarted] then
    "previous_write_started_ambiguous"
  else "previous_delivery_ambiguous"

/-- An ambiguous claim: seal the record and report it. -/
def deliverAmbiguous (record : BlindTransportRecord) (claim : ClaimResult) :
    RuntimeM DeliveryReceipt := do
  call (.quarantine [record] (ambiguousReason claim.state))
  pure (receipt H record .ambiguous (some (ambiguousReason claim.state)) false
    claim.batchAttemptId)

/-- `_deliver_with_capabilities` -/
def deliverWithCapabilities (record : BlindTransportRecord) (caps : ConnectorCapabilities) :
    RuntimeM DeliveryReceipt := do
  if caps.writeRecords = false then
    raise (.policyViolation "destination connector no longer advertises write capability")
  else do
    let privateKey ← call (.authorizeRecord record)
    rt.authorizeCapability .writeRecords record
    let claims ← call (.ledger (.claimMany [record] rt.claimLease))
    match claims with
    | [] => raise (.other "tuple index out of range")
    | claim :: _ =>
        match claim.disposition with
        | .alreadyCommitted =>
            pure (receipt H record .duplicate none false claim.batchAttemptId)
        | .inProgress =>
            pure (receipt H record .ambiguous (some "delivery_claim_in_progress") false
              claim.batchAttemptId)
        | .ambiguous => deliverAmbiguous H record claim
        | _ =>
            match claim.claimToken with
            | none => raise (.integrityError "delivery ledger issued an unfenced claim")
            | some claimToken =>
                rt.deliverClaimed H record
                  { claimToken := claimToken, authorizedPrivateKey := some privateKey
                    authorizedCapabilities := caps }

/-- `deliver` -/
def deliver (record : BlindTransportRecord) : RuntimeM DeliveryReceipt := do
  let caps ← call .capabilities
  rt.deliverWithCapabilities H record caps

/-! ## Atomic batches -/

/-- Receipts of a chunk by input position. -/
abbrev Receipts := List (Option DeliveryReceipt)

/-- A claimed record of a chunk. -/
structure ClaimedItem where
  index : Nat
  record : BlindTransportRecord
  claimToken : String
  privateKey : PrivateKey

/-- A record of a chunk that passed the checks before the write boundary. -/
structure PreparedItem where
  index : Nat
  record : BlindTransportRecord
  claimToken : String
  item : BatchWriteItem

/-- Authorize every record of a chunk. -/
def authorizeRecords : List BlindTransportRecord → RuntimeM (List PrivateKey)
  | [] => pure []
  | record :: rest => do
      let privateKey ← call (.authorizeRecord record)
      let privateKeys ← authorizeRecords rest
      pure (privateKey :: privateKeys)

/-- Authorize the write capability for every record of a chunk. -/
def authorizeCapabilities : List BlindTransportRecord → RuntimeM Unit
  | [] => pure ()
  | record :: rest => do
      rt.authorizeCapability .writeRecords record
      authorizeCapabilities rest

/-- The loop over the claims of a chunk. -/
def sortClaims : List (BlindTransportRecord × PrivateKey × ClaimResult) → Nat → Receipts →
    List ClaimedItem → RuntimeM (Receipts × List ClaimedItem)
  | [], _, receipts, claimed => pure (receipts, claimed)
  | (record, privateKey, claim) :: rest, index, receipts, claimed =>
      match claim.disposition with
      | .alreadyCommitted =>
          sortClaims rest (index + 1)
            (receipts.set index
              (some (receipt H record .duplicate none false claim.batchAttemptId)))
            claimed
      | .inProgress =>
          sortClaims rest (index + 1)
            (receipts.set index
              (some (receipt H record .ambiguous (some "delivery_claim_in_progress") false
                claim.batchAttemptId)))
            claimed
      | .ambiguous => do
          let r ← deliverAmbiguous H record claim
          sortClaims rest (index + 1) (receipts.set index (some r)) claimed
      | _ =>
          match claim.claimToken with
          | none => raise (.integrityError "delivery ledger issued an unfenced batch claim")
          | some claimToken =>
              sortClaims rest (index + 1) receipts
                (claimed ++ [⟨index, record, claimToken, privateKey⟩])

/-- Fill one position; an exception keeps the receipts filled before it. -/
def fill (receipts : Receipts) (index : Nat) (p : RuntimeM DeliveryReceipt) :
    RuntimeM (Receipts × Except Exn Unit) := do
  match ← attempt p with
  | .ok r => pure (receipts.set index (some r), .ok ())
  | .error e => pure (receipts, .error e)

/-- The preparation loop of `_deliver_atomic_batch`. -/
def prepareBatch : List ClaimedItem → Receipts → List PreparedItem →
    RuntimeM (Receipts × Except Exn (List PreparedItem))
  | [], receipts, prepared => pure (receipts, .ok prepared)
  | c :: rest, receipts, prepared => do
      match ← rt.checkedPayload H c.record (call (.openRecord c.record c.privateKey)) with
      | .error reasonCode => do
          let filled ← fill receipts c.index
            (quarantineBeforeWrite H c.record reasonCode c.claimToken)
          match filled with
          | (receipts, .error e) => pure (receipts, .error e)
          | (receipts, .ok _) => prepareBatch rest receipts prepared
      | .ok payload =>
          prepareBatch rest receipts (prepared ++
            [⟨c.index, c.record, c.claimToken,
              { values := payload, context := deliveryContext H c.record
                wireBytes := c.record.wireBytes }⟩])

/-- Quarantine every prepared record after a capability change. -/
def quarantinePrepared : List PreparedItem → Receipts → RuntimeM (Receipts × Except Exn Unit)
  | [], receipts => pure (receipts, .ok ())
  | p :: rest, receipts => do
      let filled ← fill receipts p.index
        (quarantineBeforeWrite H p.record "atomic_batch_capability_changed" p.claimToken .claimed
          none true)
      match filled with
      | (receipts, .error e) => pure (receipts, .error e)
      | (receipts, .ok _) => quarantinePrepared rest receipts

/-- One receipt for every prepared record. -/
def fillPrepared (prepared : List PreparedItem) (status : DeliveryStatus)
    (reasonCode : Option String) (retrySafe : Bool) (batchAttemptId : Option String)
    (receipts : Receipts) : Receipts :=
  prepared.foldl (fun receipts p =>
    receipts.set p.index (some (receipt H p.record status reasonCode retrySafe batchAttemptId)))
    receipts

/-- The transitions of the prepared records. -/
def transitions (prepared : List PreparedItem) : List (BlindTransportRecord × String) :=
  prepared.map fun p => (p.record, p.claimToken)

/-- Record the outcome of a batch that was not acknowledged: seal every record, then mark the rows. -/
def recordBatchOutcome (prepared : List PreparedItem) (reasonCode : String) (mark : LedgerCall) :
    RuntimeM Unit := do
  call (.quarantine (prepared.map PreparedItem.record) reasonCode)
  ledgerCall mark

/-- After an atomic batch that was not acknowledged. -/
def batchNotAcknowledged (prepared : List PreparedItem) (caps : ConnectorCapabilities)
    (batchAttemptId : String) (outcome : WriteOutcome) (receipts : Receipts) :
    RuntimeM (Receipts × Except Exn Unit) := do
  if outcome = .notCommitted then
    match ← attempt (recordBatchOutcome prepared "write_not_committed"
        (.markQuarantinedMany (transitions prepared) "write_not_committed"
          .batchWriteStarted)) with
    | .error e => pure (receipts, .error e)
    | .ok _ =>
        pure (fillPrepared H prepared .quarantined (some "write_not_committed") true
          (some batchAttemptId) receipts, .ok ())
  else
    match ← attempt (recordBatchOutcome prepared "atomic_batch_write_outcome_unknown"
        (.markUncertainMany (transitions prepared) "atomic_batch_write_outcome_unknown")) with
    | .error e => pure (receipts, .error e)
    | .ok _ =>
        pure (fillPrepared H prepared .quarantined (some "atomic_batch_write_outcome_unknown")
          (batchIdempotencyContractId caps).isSome (some batchAttemptId) receipts, .ok ())

/-- After an acknowledged atomic batch: commit, then clean up. -/
def batchAcknowledged (prepared : List PreparedItem) (batchAttemptId : String)
    (receipts : Receipts) : RuntimeM (Receipts × Except Exn Unit) := do
  match ← attempt (ledgerCall (.markCommittedMany (transitions prepared))) with
  | .error _ => do
      let _ ← attempt (call (.quarantine (prepared.map PreparedItem.record)
        "delivery_outcome_record_failed"))
      pure (fillPrepared H prepared .ambiguous (some "delivery_outcome_record_failed") false
        (some batchAttemptId) receipts, .ok ())
  | .ok _ =>
      match ← attempt (call (.remove (prepared.map fun p => p.record.digest H))) with
      | .error _ =>
          pure (fillPrepared H prepared .delivered (some "sealed_spool_cleanup_failed") false
            (some batchAttemptId) receipts, .ok ())
      | .ok _ =>
          pure (fillPrepared H prepared .delivered none false (some batchAttemptId) receipts,
            .ok ())

/-- The durability outcome of `write_batch`, `none` when it acknowledged the whole batch. -/
def batchOutcome (count : Nat) : Except Exn (Option Int) → Option WriteOutcome
  | .ok written => if written = some (count : Int) then none else some .unknown
  | .error e => some (e.writeOutcome?.getD .unknown)

/-- Cross the write boundary for a whole batch, then write it. -/
def crossAndWriteBatch (prepared : List PreparedItem) (caps : ConnectorCapabilities)
    (receipts : Receipts) : RuntimeM (Receipts × Except Exn Unit) := do
  match ← attempt (call (.ledger (.startWriteMany (transitions prepared)
      (batchIdempotencyContractId caps)))) with
  | .error (.integrityError _) =>
      pure (fillPrepared H prepared .ambiguous (some "delivery_claim_lost") false none receipts,
        .ok ())
  | .error e => pure (receipts, .error e)
  | .ok batchAttemptId => do
      let written ← attempt (call (.writeBatch (prepared.map fun p => (p.record, p.item))))
      match batchOutcome prepared.length written with
      | some outcome => batchNotAcknowledged H prepared caps batchAttemptId outcome receipts
      | none => batchAcknowledged H prepared batchAttemptId receipts

/-- `_execute_atomic_batch` -/
def executeAtomicBatch (prepared : List PreparedItem) (caps : ConnectorCapabilities)
    (receipts : Receipts) : RuntimeM (Receipts × Except Exn Unit) := do
  if prepared.isEmpty then
    pure (receipts, .ok ())
  else if ← capabilityChanged caps then
    quarantinePrepared H prepared receipts
  else crossAndWriteBatch H prepared caps receipts

/-- The receipts of a chunk, or its exception with the receipts completed before it. -/
def concludeBatch (receipts : Receipts) (result : Except Exn Unit) :
    RuntimeM (List DeliveryReceipt) :=
  let completed := receipts.filterMap id
  let result : Except Exn Unit :=
    match result with
    | .ok _ =>
        if receipts.any Option.isNone then
          .error (.integrityError "delivery batch did not produce one receipt per record")
        else .ok ()
    | .error e => .error e
  match result with
  | .ok _ => pure completed
  | .error (.deliveryBatchInterrupted receipts) => raise (.deliveryBatchInterrupted receipts)
  | .error e => if completed.isEmpty then raise e else raise (.deliveryBatchInterrupted completed)

/-- `_deliver_atomic_batch` -/
def deliverAtomicBatch (records : List BlindTransportRecord) (caps : ConnectorCapabilities) :
    RuntimeM (List DeliveryReceipt) := do
  let privateKeys ← authorizeRecords records
  rt.authorizeCapabilities records
  let claims ← call (.ledger (.claimMany records rt.claimLease))
  let (receipts, claimed) ← sortClaims H (records.zip (privateKeys.zip claims)) 0
    (records.map fun _ => none) []
  let (receipts, prepared) ← rt.prepareBatch H claimed receipts []
  match prepared with
  | .error e => concludeBatch receipts (.error e)
  | .ok prepared => do
      let (receipts, result) ← executeAtomicBatch H prepared caps receipts
      concludeBatch receipts result

/-! ## Many records -/

/-- `MAX_EVENT_BATCH_EVENTS` -/
def maxEventBatchEvents : Nat := 10000

/-- `maximum_chunk_records` -/
def maximumChunkRecords (batch : AtomicBatchCapabilities) : Nat :=
  min batch.maxRecords (min DeliveryLedger.maxLedgerBatchItems
    (min SealedSpool.maxSpoolBatchItems
      (if rt.events then maxEventBatchEvents - 1 else maxEventBatchEvents)))

/-- `maximum_chunk_wire_bytes` -/
def maximumChunkWireBytes (batch : AtomicBatchCapabilities) : Nat :=
  min batch.maxWireBytes rt.spool.maxBatchWireBytes

/-- The admission loop: at `count` records and `total` wire bytes before this one. -/
def admitRecords : Nat → Nat → List BlindTransportRecord → Except Exn Unit
  | _, _, [] => .ok ()
  | count, total, record :: rest =>
      if count ≥ 10000 then
        .error (.valueError "delivery batch exceeds the record count limit")
      else if total + record.wireBytes > rt.spool.maxBatchWireBytes then
        .error (.valueError "delivery batch exceeds the runtime wire byte limit")
      else admitRecords (count + 1) (total + record.wireBytes) rest

/-- An exception of a later step, with the receipts completed before it. -/
def interrupted (receipts : List DeliveryReceipt) : Exn → Exn
  | .deliveryBatchInterrupted completed => .deliveryBatchInterrupted (receipts ++ completed)
  | e => if receipts.isEmpty then e else .deliveryBatchInterrupted receipts

/-- Deliver one record after the other. -/
def deliverScalars (caps : ConnectorCapabilities) :
    List BlindTransportRecord → List DeliveryReceipt → RuntimeM (List DeliveryReceipt)
  | [], receipts => pure receipts
  | record :: rest, receipts => do
      match ← attempt (rt.deliverWithCapabilities H record caps) with
      | .ok r => deliverScalars caps rest (receipts ++ [r])
      | .error e =>
          if receipts.isEmpty then raise e else raise (.deliveryBatchInterrupted receipts)

/-- One chunk: a single record goes the scalar way. -/
def deliverChunk (caps : ConnectorCapabilities) :
    List BlindTransportRecord → RuntimeM (List DeliveryReceipt)
  | [record] => do
      let r ← rt.deliverWithCapabilities H record caps
      pure [r]
  | chunk => rt.deliverAtomicBatch H chunk caps

/-- Deliver one chunk after the other. -/
def deliverChunks (caps : ConnectorCapabilities) :
    List (List BlindTransportRecord) → List DeliveryReceipt → RuntimeM (List DeliveryReceipt)
  | [], receipts => pure receipts
  | chunk :: rest, receipts => do
      match ← attempt (rt.deliverChunk H caps chunk) with
      | .ok more => deliverChunks caps rest (receipts ++ more)
      | .error e => raise (interrupted receipts e)

/-- `deliver_many` -/
def deliverMany (records : List BlindTransportRecord) : RuntimeM (List DeliveryReceipt) := do
  let caps ← call .capabilities
  if caps.writeRecords = false then
    raise (.policyViolation "destination connector no longer advertises write capability")
  else
    match rt.admitRecords 0 0 records with
    | .error e => raise e
    | .ok _ =>
        match caps.atomicBatchWrite with
        | some batch =>
            if rt.batchWriter then
              rt.deliverChunks H caps (deliveryChunks (rt.maximumChunkRecords batch)
                (rt.maximumChunkWireBytes batch) records) []
            else rt.deliverScalars H caps records []
        | none => rt.deliverScalars H caps records []

/-! ## Replay -/

/-- `scalar_ambiguous_write_states` -/
def scalarAmbiguousWriteStates : List DeliveryState := [.uncertain, .writeStarted]

/-- `batch_ambiguous_write_states` -/
def batchAmbiguousWriteStates : List DeliveryState := [.batchUncertain, .batchWriteStarted]

/-- `guarded_replay_states` -/
def guardedReplayStates : List DeliveryState :=
  [.replayClaimed, .replayWriteStarted, .replayUncertain, .replayQuarantined]

/-- The states whose earlier write may have taken effect. -/
def ambiguousOrGuardedStates : List DeliveryState :=
  scalarAmbiguousWriteStates ++ batchAmbiguousWriteStates ++ guardedReplayStates

/-- Whether the destination's idempotency contract covers the write the row recorded. -/
def replayContractMatches (row : LedgerRow) (caps : ConnectorCapabilities) : Bool :=
  row.idempotencyContractId.isSome &&
    row.idempotencyContractId = scalarIdempotencyContractId caps &&
    (!(decide (row.state ∈ batchAmbiguousWriteStates) || row.currentWriteBatchAttemptId.isSome) ||
      (batchIdempotencyContractId caps).isSome)

/-- `requires_force` -/
def requiresForce (forceUncertain : Bool) (row : LedgerRow) : Bool :=
  forceUncertain && (row.state ∈ ambiguousOrGuardedStates || row.state = .claimed)

/-- Arm the retry and deliver under it. -/
def rearmAndDeliver (record : BlindTransportRecord) (row : LedgerRow)
    (caps : ConnectorCapabilities) : RuntimeM DeliveryReceipt := do
  let rearmed ← call (.ledger (.rearmForRetry record row.state rt.claimLease))
  match rearmed.claimToken with
  | none => raise (.integrityError "delivery ledger issued an unfenced retry claim")
  | some claimToken =>
      rt.deliverClaimed H record
        { claimToken := claimToken
          replayAttempt := decide (rearmed.state = .replayClaimed)
          batchAttemptId := rearmed.batchAttemptId
          historicalIdempotencyContractId := row.idempotencyContractId
          authorizedCapabilities := caps }

/-- The gate of a replay that has read the row. -/
def replayRow (forceUncertain : Bool) (recordDigest : String) (record : BlindTransportRecord)
    (row : LedgerRow) (caps : ConnectorCapabilities) : RuntimeM DeliveryReceipt := do
  if row.state = .committed then
    match ← attempt (call (.remove [recordDigest])) with
    | .ok _ =>
        pure (receipt H record .duplicate none false row.currentWriteBatchAttemptId)
    | .error _ =>
        pure (receipt H record .duplicate (some "sealed_spool_cleanup_failed") false
          row.currentWriteBatchAttemptId)
  else if decide (row.state ∈ ambiguousOrGuardedStates) && !replayContractMatches row caps &&
      !forceUncertain then
    raise (.policyViolation
      "uncertain write cannot be replayed without destination idempotency")
  else if row.state = .claimed ∧ forceUncertain = false then
    raise (.policyViolation "ambiguous claimed delivery requires explicit recovery")
  else if requiresForce forceUncertain row then
    if rt.authorizer = false then
      raise (.policyViolation
        "forced uncertain replay requires an explicit capability authorizer")
    else do
      rt.authorizeCapability .forceUncertainReplay record
      rt.rearmAndDeliver H record row caps
  else rt.rearmAndDeliver H record row caps

/-- `replay` -/
def replay (recordDigest : String) (forceUncertain : Bool) : RuntimeM DeliveryReceipt := do
  let caps ← call .capabilities
  if caps.writeRecords = false then
    raise (.policyViolation "destination connector no longer advertises write capability")
  else do
    match ← call (.spoolGet recordDigest) with
    | none => raise (.keyError "sealed quarantine record does not exist")
    | some record => do
        rt.authorizeCapability .replay record
        match ← call (.ledger (.get record)) with
        | none => raise (.integrityError "quarantine record has no delivery ledger entry")
        | some row => rt.replayRow H forceUncertain recordDigest record row caps

end DestinationRuntime

end Polymorph
