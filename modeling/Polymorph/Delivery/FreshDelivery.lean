import Polymorph.Delivery.ScalarRuns
import Polymorph.StandardHost

/-!
# Delivering a record for the first time

The whole run of `deliver` on a record without a row that passes the checks: the row committed and
the spool untouched by the record, or the row uncertain and the record sealed. A sample record with
its runtime carries the examples of the developments about interleaved workers.
-/

set_option autoImplicit false

namespace Polymorph

open Concurrency Prog DeliveryLedger DestinationRuntime Transaction

/-- What a first delivery meets when nothing goes wrong before the connector is called. -/
structure FirstDelivery (H : Host) (S : Services) (rt : DestinationRuntime)
    (record : BlindTransportRecord) (payload : Payload) (s : Session) where
  privateKey : PrivateKey
  claimExpiresAt : Utc.Instant
  write : s.world.capabilities.writeRecords = true
  fresh : s.world.ledger record.key = none
  authorized : S.authorizeRecord record = .ok privateKey
  capability : S.authorizeCapability .writeRecords record = .ok ()
  lease : validateLeaseDuration rt.claimLease = .ok ()
  expiry : expiry (S.clock s.storeCalls) rt.claimLease = .ok claimExpiresAt
  token : validateClaimToken (S.claimToken s.storeCalls 0) = .ok ()
  contract : validateOptionalContractId H
    (scalarIdempotencyContractId s.world.capabilities) = .ok ()
  checked : ∀ c : ClaimedDelivery, c.authorizedPrivateKey = some privateKey →
    S.toAgent.Returns H (rt.checkedPayload H record (openClaimed record c)) (.ok (.ok payload))
  live : S.clock (s.storeCalls + 1) < claimExpiresAt

namespace FirstDelivery

variable {H : Host} {S : Services} {rt : DestinationRuntime} {record : BlindTransportRecord}
  {payload : Payload} {s : Session} {spool : SpoolConfig} {job : Job}
  {P : (op : Op) → Except Exn op.Res → Prop}

/-- The claim the delivery holds. -/
def claim (h : FirstDelivery H S rt record payload s) : ClaimedDelivery :=
  { claimToken := S.claimToken s.storeCalls 0, authorizedPrivateKey := some h.privateKey
    authorizedCapabilities := s.world.capabilities }

/-- The row of the claim. -/
def claimedRow (h : FirstDelivery H S rt record payload s) : LedgerRow :=
  freshRow H (S.clock s.storeCalls) h.claimExpiresAt record (S.claimToken s.storeCalls 0)

/-- The session after the claim. -/
def claimed (h : FirstDelivery H S rt record payload s) : Session :=
  s.withLedger (Function.update s.world.ledger record.key (some h.claimedRow))

/-- The row past the write boundary. -/
def startedRow (h : FirstDelivery H S rt record payload s) : LedgerRow :=
  h.claim.startTransition.change (S.clock (s.storeCalls + 1)) h.claimedRow

/-- The session when the connector is called. -/
def started (h : FirstDelivery H S rt record payload s) : Session :=
  h.claimed.moved S record h.claim.startTransition h.claimedRow

theorem started_row (h : FirstDelivery H S rt record payload s) :
    h.started.world.ledger record.key = some h.startedRow := Function.update_self ..

theorem startedRow_fenced (h : FirstDelivery H S rt record payload s) :
    h.startedRow.Fenced H record h.claim.writeStartedState h.claim.claimToken :=
  (@fenced_change _ _ _ _ .claimed) ⟨rfl, rfl, rfl, rfl⟩

/-- Up to the connector, a first delivery claims the record and crosses the write boundary. -/
theorem steps_started (h : FirstDelivery H S rt record payload s) (hP : Tolerates P) :
    S.Steps H spool job P (rt.deliver H record) s (writeScalar H record h.claim payload)
      h.started := by
  have hread : S.answer H spool job .capabilities s = (.ok s.world.capabilities, s) := rfl
  have houtcome : claimOutcome H (S.clock s.storeCalls) h.claimExpiresAt record
      (S.claimToken s.storeCalls 0) (s.world.ledger record.key) =
      .ok (⟨.new, .claimed, record.digest H, some (S.claimToken s.storeCalls 0),
        some h.claimExpiresAt, none⟩, h.claimedRow) := by
    rw [h.fresh]
    rfl
  unfold deliver
  refine (steps_call (hP.silent _ _ rfl) hread).trans ?_
  refine (steps_deliver_held hP h.write h.authorized h.capability h.lease h.expiry houtcome
    (.inl rfl) rfl).trans ?_
  exact @steps_deliverClaimed_write _ _ _ _ h.claimed _ h.claim h.claimedRow _ hP _ _
    (h.checked _ rfl) rfl h.token h.contract (Function.update_self ..) ⟨rfl, rfl, rfl, rfl⟩
    ⟨h.claimExpiresAt, rfl, h.live⟩

/-- The session after an acknowledged first delivery. -/
def committed (h : FirstDelivery H S rt record payload s) (job : Job) : Session :=
  ((h.started.wrote job record payload (deliveryContext H record) (.ok (some 1))).moved S record
    (committedTransition .writeStarted) h.startedRow).removed H record

theorem committed_row (h : FirstDelivery H S rt record payload s) (job : Job) :
    ∃ row, (h.committed job).world.ledger record.key = some row ∧ row.state = .committed := by
  have hrow := (h.started.wrote job record payload (deliveryContext H record)
    (.ok (some 1))).moved_row S record (committedTransition .writeStarted) h.startedRow
  exact ⟨_, hrow, rfl⟩

theorem steps_committed (h : FirstDelivery H S rt record payload s) (hP : Tolerates P)
    (houtcome : S.writeRecords record payload = .ok (some 1)) :
    S.Steps H spool job P (rt.deliver H record) s
      (pure (receipt H record .delivered none false none)) (h.committed job) := by
  refine (h.steps_started hP).trans ((steps_writeScalar_committed hP houtcome).trans ?_)
  exact steps_writeAcknowledged hP h.token h.started_row h.startedRow_fenced

/-- The session after a first delivery of unknown outcome. -/
def uncertain (h : FirstDelivery H S rt record payload s) (job : Job) (e : Exn) : Session :=
  ((h.started.wrote job record payload (deliveryContext H record) (.error e)).sealed S H record
    "write_outcome_unknown").moved S record h.claim.uncertainTransition h.startedRow

theorem uncertain_row (h : FirstDelivery H S rt record payload s) (job : Job) (e : Exn) :
    ∃ row, (h.uncertain job e).world.ledger record.key = some row ∧ row.state = .uncertain := by
  have hrow := ((h.started.wrote job record payload (deliveryContext H record) (.error e)).sealed
    S H record "write_outcome_unknown").moved_row S record h.claim.uncertainTransition h.startedRow
  exact ⟨_, hrow, rfl⟩

theorem uncertain_entry (h : FirstDelivery H S rt record payload s) (job : Job) (e : Exn) :
    (h.uncertain job e).world.spool (record.digest H) =
      some (SealedSpool.rowOf record "write_outcome_unknown" (S.clock h.started.storeCalls)
        record.canonicalWire) := Function.update_self ..

theorem steps_uncertain (h : FirstDelivery H S rt record payload s) (hP : Tolerates P) {e : Exn}
    (hadmitted : SealedSpool.Admitted H spool s.world.spool record)
    (houtcome : S.writeRecords record payload = .error e) (he : e.provesNotCommitted = false) :
    S.Steps H spool job P (rt.deliver H record) s
      (pure (receipt H record .quarantined (some "write_outcome_unknown") h.claim.writeRetrySafe
        none)) (h.uncertain job e) := by
  refine (h.steps_started hP).trans ((steps_writeScalar_unknown hP houtcome he).trans ?_)
  exact steps_writeOutcomeUnknown hP hadmitted h.token h.started_row h.startedRow_fenced

end FirstDelivery

/-! ## A sample record and its runtime -/

namespace Sample

/-- A 64-digit key id. -/
def keyId : String := "0000000000000000000000000000000000000000000000000000000000000000"

theorem keyId_hex : isLowerHex 64 keyId = true := by decide

def instant : Utc.Instant := ⟨⟨2026, 1, 1, 0, 0, 0, 0⟩, Utc.valid_newYear2026⟩

def expiresAt : Utc.Instant := ⟨⟨2026, 1, 1, 0, 5, 0, 0⟩, Utc.valid_fifthMinute2026⟩

theorem email_nodup :
    ([{ id := "email", name := "email", dataType := .string }].map FieldDescriptor.id).Nodup := by
  decide

theorem email_relations :
    (([] : List RelationDescriptor).map RelationDescriptor.sourceFieldId).Nodup ∧
      ∀ r ∈ ([] : List RelationDescriptor), r.sourceFieldId ∈
        [{ id := "email", name := "email", dataType := .string }].map FieldDescriptor.id := by
  decide

def schema : SchemaDescriptor :=
  { id := "contacts", fields := [{ id := "email", name := "email", dataType := .string }]
    fieldIds := email_nodup, relationFields := email_relations }

def plan (H : Host) : MappingPlan :=
  { id := "plan", sourceSchemaId := "contacts", targetSchemaId := "contacts"
    sourceFingerprint := schema.fingerprint H, targetFingerprint := schema.fingerprint H
    rules := [{ sourceFieldId := "email", targetFieldId := "email" }], createdAt := instant }

def context (H : Host) : TransferContext where
  tenant := "tenant"
  sourceConnector := "source"
  destinationConnector := "destination"
  fieldId := "email"
  schemaVersion := schema.fingerprint H
  recordId := "record"
  transferId := "transfer"
  planId := "plan"
  planDigest := (plan H).digest H
  recipientKeyId := keyId
  valid := by
    simp only [TransferContextFields.check, keyId_hex]
    rfl

def envelope : OpaqueEnvelope where
  ephemeralPublicKey := List.replicate 32 0
  nonce := List.replicate 12 0
  ciphertext := List.replicate 16 0
  valid := by decide

def authentication : RecordAuthentication where
  keyId := keyId
  signature := List.replicate 64 0
  valid := by
    simp only [RecordAuthenticationFields.check, keyId_hex]
    rfl

def record (H : Host) : BlindTransportRecord where
  recordId := "record"
  fields := [⟨"email", context H, envelope⟩]
  authentication := some authentication
  valid := by
    simp [RecordFields.check, checkFields, sharedContextValues, context, keyId]

/-- A spool that admits records of the given wire size. -/
def spoolOfSize (n : Nat) : SpoolConfig where
  limits := { maxRecordWireBytes := n }
  maxBatchWireBytes := n + 1
  admitsOneRecord := ⟨Nat.succ_pos n, Nat.le_succ n⟩

theorem spoolOfSize_maxRecordWireBytes (n : Nat) :
    (spoolOfSize n).limits.maxRecordWireBytes = n := rfl

/-- A spool that admits exactly records of the sample's size. -/
def spool (H : Host) : SpoolConfig := spoolOfSize (record H).wireBytes

theorem withinLimits (H : Host) : (record H).WithinLimits H (spool H).limits where
  version := rfl
  signed := rfl
  recipient := by
    change keyId ≠ ""
    decide
  policy := rfl
  fieldCount := by
    change 1 ≤ 4096
    decide
  wireSize := by
    rw [spool, spoolOfSize_maxRecordWireBytes]
  ciphertexts f hf := by
    rw [List.mem_singleton.1 hf]
    change (List.replicate 16 (0 : UInt8)).length ≤ 16 * 1024 * 1024
    decide

/-- A spool without an entry for the sample admits it. -/
theorem admitted {H : Host} {rows : Spool} (h : rows ((record H).digest H) = none) :
    SealedSpool.Admitted H (spool H) rows (record H) :=
  ⟨withinLimits H, fun row hrow => by rw [h] at hrow; cases hrow⟩

def runtime (H : Host) : DestinationRuntime :=
  { connectorId := "destination", plan := plan H, targetSchema := schema, spool := spool H }

/-- The plaintext of the sample. -/
def payload : Payload := [("email", .str (PyText.ofString "a@example.org"))]

/-- Services that open the sample, with a connector that gives one answer. -/
def services (outcome : Except Exn (Option Int)) : Services where
  authorizeRecord _ := .ok []
  authorizeCapability _ _ := .ok ()
  openRecord _ _ := .ok payload
  resolveForeignKey _ _ value := .ok value
  writeRecords _ _ := outcome
  writeBatch _ := outcome
  clock _ := instant
  claimToken _ _ := "token"
  batchAttemptId _ := "00000000000000000000000000000000"

/-- The sample passes the checks, whether or not capabilities are authorized. -/
theorem checked_opened (H : Host) (outcome : Except Exn (Option Int)) (authorizer : Bool)
    {opened : RuntimeM Payload}
    (hopened : (services outcome).toAgent.Returns H opened (.ok payload)) :
    (services outcome).toAgent.Returns H
      ({ runtime H with authorizer := authorizer }.checkedPayload H (record H) opened)
      (.ok (.ok payload)) := by
  intro S hS P hP spool job s
  have hplan : recordUsesRuntimePlan H { runtime H with authorizer := authorizer } (record H) =
      true := by
    unfold recordUsesRuntimePlan
    rw [decide_eq_true (show (record H).planId = (runtime H).plan.id from rfl),
      decide_eq_true (show (record H).planDigest = (runtime H).plan.digest H from rfl)]
    rfl
  have hfields : { runtime H with authorizer := authorizer }.payloadHasExactMappedFields payload =
      true := by rfl
  have hcontract :
      { runtime H with authorizer := authorizer }.payloadSatisfiesTargetContract payload =
        true := by rfl
  unfold checkedPayload
  refine ((hopened S hS P hP spool job s).attempt_bind _).trans ?_
  simp only [hplan, hfields]
  have htransform : S.Steps H spool job P
      ({ runtime H with authorizer := authorizer }.applyDestinationTransforms
        (runtime H).plan.rules payload) s (pure payload) s := .refl _ _
  refine (htransform.attempt_bind _).trans ?_
  simp only [hcontract, if_true]
  exact .refl _ _

theorem opened_authorized (H : Host) (outcome : Except Exn (Option Int)) {c : ClaimedDelivery}
    {privateKey : PrivateKey} (hc : c.authorizedPrivateKey = some privateKey) :
    (services outcome).toAgent.Returns H (openClaimed (record H) c) (.ok payload) := by
  intro S hS P hP spool job s
  unfold openClaimed
  rw [hc]
  refine steps_perform (hP _ _ rfl) ?_
  rw [Services.answer, show S.openRecord = (services outcome).openRecord from
    congrArg Agent.openRecord hS]
  rfl

theorem checked (H : Host) (outcome : Except Exn (Option Int)) {c : ClaimedDelivery}
    {privateKey : PrivateKey} (hc : c.authorizedPrivateKey = some privateKey) :
    (services outcome).toAgent.Returns H ((runtime H).checkedPayload H (record H)
      (openClaimed (record H) c)) (.ok (.ok payload)) :=
  checked_opened H outcome false (opened_authorized H outcome hc)

theorem expiry_instant : expiry instant DeliveryLedger.defaultClaimDuration = .ok expiresAt := by
  have hadd : instant.add DeliveryLedger.defaultClaimDuration = some expiresAt := by decide
  rw [expiry, hadd]
  rfl

theorem validateClaimToken_token : validateClaimToken "token" = .ok () := by
  rw [validateClaimToken, if_neg (by decide)]
  rfl

/-- The sample's first delivery, from a session without a row for it. -/
def firstDelivery (H : Host) (outcome : Except Exn (Option Int)) (s : Session)
    (hwrite : s.world.capabilities.writeRecords = true)
    (hfresh : s.world.ledger (record H).key = none)
    (hcontract : validateOptionalContractId H
      (scalarIdempotencyContractId s.world.capabilities) = .ok ()) :
    FirstDelivery H (services outcome) (runtime H) (record H) payload s where
  privateKey := []
  claimExpiresAt := expiresAt
  write := hwrite
  fresh := hfresh
  authorized := rfl
  capability := rfl
  lease := by rfl
  expiry := expiry_instant
  token := validateClaimToken_token
  contract := hcontract
  checked _ hc := checked H outcome hc
  live := by
    change instant < expiresAt
    decide

/-- A connector without idempotency. -/
def capabilities : ConnectorCapabilities := { writeRecords := true }

/-- A session on empty stores. -/
def start : Session := { world := { capabilities := capabilities } }

/-- The job that delivers the sample. -/
noncomputable def job : Job := .deliver (record standardHost)

theorem start_writes : start.world.capabilities.writeRecords = true := rfl

theorem start_fresh : start.world.ledger (record standardHost).key = none := rfl

theorem start_contract : validateOptionalContractId standardHost
    (scalarIdempotencyContractId start.world.capabilities) = .ok () := rfl

/-- The session after the sample was delivered on empty stores. -/
noncomputable def delivered : Session :=
  (firstDelivery standardHost (.ok (some 1)) start start_writes start_fresh
    start_contract).committed job

theorem delivered_row :
    ∃ row, delivered.world.ledger (record standardHost).key = some row ∧
      row.state = .committed :=
  FirstDelivery.committed_row _ _

theorem steps_delivered {P : (op : Op) → Except Exn op.Res → Prop} (hP : Tolerates P)
    {config : SpoolConfig} :
    (services (.ok (some 1))).Steps standardHost config job P
      (job.body standardHost (runtime standardHost)) start
      (pure [receipt standardHost (record standardHost) .delivered none false none]) delivered :=
  steps_bind ((firstDelivery standardHost (.ok (some 1)) start rfl rfl rfl).steps_committed hP rfl)

/-- The session after a delivery of the sample whose outcome stayed unknown. -/
noncomputable def unresolved : Session :=
  (firstDelivery standardHost (.error (.other "timeout")) start rfl rfl rfl).uncertain job
    (.other "timeout")

theorem unresolved_row :
    ∃ row, unresolved.world.ledger (record standardHost).key = some row ∧
      row.state = .uncertain :=
  FirstDelivery.uncertain_row _ _ _

theorem unresolved_entry :
    unresolved.world.spool ((record standardHost).digest standardHost) =
      some (SealedSpool.rowOf (record standardHost) "write_outcome_unknown" instant
        (record standardHost).canonicalWire) :=
  FirstDelivery.uncertain_entry _ _ _

theorem steps_unresolved {P : (op : Op) → Except Exn op.Res → Prop} (hP : Tolerates P) :
    ∃ receipts, (services (.error (.other "timeout"))).Steps standardHost (spool standardHost) job P
      (job.body standardHost (runtime standardHost)) start (pure receipts) unresolved :=
  ⟨_, steps_bind ((firstDelivery standardHost (.error (.other "timeout")) start rfl rfl
    rfl).steps_uncertain hP (admitted rfl) rfl rfl)⟩

end Sample

end Polymorph
