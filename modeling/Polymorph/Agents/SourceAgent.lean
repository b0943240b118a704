import Polymorph.Planning.Preflight
import Polymorph.Transport.Envelope
import Polymorph.Transport.PayloadCodec
import Polymorph.Trust.BatchAuthorization

/-!
# The source agent

`BlindSourceAgent` runs the source stage of a plan on a record, encodes every value and seals it for
the recipient key, one field after the other, and signs the record. A batch is sealed under one
authorization. Random values and readings of the clock are arguments.
-/

set_option autoImplicit false

namespace Polymorph

open JsonText Utc

/-- `MAX_SOURCE_BATCH_RECORDS` -/
def maxSourceBatchRecords : Nat := 10000

/-- `DEFAULT_SOURCE_BATCH_WIRE_BYTES` -/
def defaultSourceBatchWireBytes : Nat := 64 * 1024 * 1024

/-- `SigningKeyPair` of the library: the key has 32 bytes, and its signatures have 64. -/
structure SigningKeyPair where
  publicBytes : List UInt8
  sign : ByteArray → List UInt8
  publicBytes_length : publicBytes.length = 32
  sign_length : ∀ payload, (sign payload).length = 64

/-- `signing_key_id(signer.public_bytes())` -/
def SigningKeyPair.keyId (signer : SigningKeyPair) : String := Sha256.hexDigest signer.publicBytes

theorem SigningKeyPair.signingKeyId_eq (signer : SigningKeyPair) :
    signingKeyId signer.publicBytes = .ok signer.keyId := by
  unfold signingKeyId
  rw [if_neg (not_not.mpr signer.publicBytes_length)]
  rfl

namespace BlindTransportRecord

/-- `signed` -/
def signed (H : Host) (signer : SigningKeyPair) (record : BlindTransportRecord) :
    Except Exn BlindTransportRecord := do
  if record.protocolVersion ≠ 3 then
    throw (.protocolError "legacy transport records cannot be source-signed")
  if record.authentication ≠ none then
    throw (.protocolError "transport record is already source-signed")
  record.fields.forM fun field => field.context.validateNewMetadata H
  let keyId ← signingKeyId signer.publicBytes
  let payload ← record.sourceAuthenticationBytes keyId
  let authentication ←
    RecordAuthentication.make { keyId := keyId, signature := signer.sign payload }
  make { record.toRecordFields with authentication := some authentication }

end BlindTransportRecord

/-- What is drawn for a sealed field. -/
structure FieldDraw where
  ephemeral : List UInt8
  nonce : List UInt8
  /-- the time that `seal_for_recipient` reads -/
  now : Instant

/-- What is drawn for a record. -/
structure RecordDraw where
  issuedAt : Instant
  field : Nat → FieldDraw

/-- What all fields of a record share. -/
structure Issue where
  recordId : String
  transferId : String
  issuedAt : Instant
  destinationPublicKey : List UInt8
  destinationKeyId : String

/-- `_bounded_new_identifier` -/
def boundedNewIdentifier (H : Host) (label : String) (maximum : Nat) : Option String →
    Except Exn String
  | none =>
      .error (.protocolError ("new source " ++ label ++ " must be bounded printable metadata"))
  | some value =>
      if TransferContext.isPrintableMetadata H value maximum then .ok value
      else .error (.protocolError
        ("new source " ++ label ++ " must be bounded printable metadata"))

/-- The fields of a source agent; the time to live is in microseconds. -/
structure SourceAgentFields where
  tenant : String
  sourceConnectorId : String
  destinationConnectorId : String
  sourceSchema : SchemaDescriptor
  targetSchema : SchemaDescriptor
  plan : MappingPlan
  destinationPublicKey : Option (List UInt8) := none
  signingKey : Option SigningKeyPair := none
  schemaVersion : String := "1"
  transferTtl : Option Int := none
  protocolVersion : Int := 3
  allowLegacyUnsigned : Bool := false
  recipientKeyTrustStore : Option RecipientKeyTrustStore := none
  allowUnauthenticatedRecipientKey : Bool := false

/-- The recipient part of `__post_init__`; `authorized` is what `authorize` of the store returns. -/
def SourceAgentFields.checkRecipient {env : RecipientEnvironment} (a : SourceAgentFields)
    (authorized : Except Exn (RecipientKeyCertificate env)) : Except Exn Unit :=
  match a.recipientKeyTrustStore, a.destinationPublicKey with
  | some _, some _ =>
      .error (.valueError "destination public key must come only from the recipient key trust store")
  | some _, none => do
      let _ ← authorized
      return ()
  | none, key =>
      if a.protocolVersion = 3 ∧ a.allowUnauthenticatedRecipientKey = false then
        .error (.valueError ("record protocol v3 requires an authenticated recipient key trust " ++
          "store; legacy raw keys require explicit opt-in"))
      else
        match key with
        | none => .error (.valueError "legacy recipient key mode requires a destination public key")
        | some key => do
            let _ ← recipientKeyId env key
            return ()

/-- `BlindSourceAgent.__post_init__` -/
def SourceAgentFields.check {env : RecipientEnvironment} (a : SourceAgentFields)
    (authorized : Except Exn (RecipientKeyCertificate env)) : Except Exn Unit := do
  let _ ← boundedNewIdentifier env.host "tenant" 128 (some a.tenant)
  let _ ← boundedNewIdentifier env.host "source connector" 128 (some a.sourceConnectorId)
  let _ ← boundedNewIdentifier env.host "destination connector" 128 (some a.destinationConnectorId)
  (PlanValidator.validate env.host a.plan a.sourceSchema a.targetSchema).raiseIfInvalid
  if a.protocolVersion = 3 ∧ a.signingKey.isNone then
    throw (.valueError "record protocol v3 requires a source signing key")
  if a.protocolVersion = 2 ∧ a.allowLegacyUnsigned = false then
    throw (.valueError "record protocol v2 requires explicit legacy opt-in")
  if a.protocolVersion ≠ 2 ∧ a.protocolVersion ≠ 3 then
    throw (.valueError "unsupported source record protocol version")
  a.checkRecipient authorized

/-- A source agent, with what the trust store returned to its constructor. -/
structure BlindSourceAgent (env : RecipientEnvironment) extends SourceAgentFields where
  authorized : Except Exn (RecipientKeyCertificate env)
  valid : toSourceAgentFields.check authorized = .ok ()

namespace BlindSourceAgent

variable {env : RecipientEnvironment} (agent : BlindSourceAgent env) (lib : SealingLibrary)

/-! ## One record -/

/-- The key id that a record carries. -/
def boundKeyId (keyId : String) : String := if agent.protocolVersion = 3 then keyId else ""

/-- The recipient without a trust store. -/
def staticRecipient : Except Exn (List UInt8 × String) :=
  match agent.destinationPublicKey with
  | none => .error (.other "AssertionError")
  | some key =>
      if agent.protocolVersion = 3 then do
        let keyId ← recipientKeyId env key
        return (key, keyId)
      else .ok (key, "")

/-- `_recipient_key`; `authorize` is that of the store. -/
def recipientKey (authorize : Instant → Except Exn (RecipientKeyCertificate env)) (now : Instant) :
    Except Exn (List UInt8 × String) :=
  match agent.recipientKeyTrustStore with
  | some _ => do
      let certificate ← authorize now
      return (certificate.publicKey, agent.boundKeyId certificate.keyId)
  | none => agent.staticRecipient

/-- The value of a rule at the source stage, with the target of the rule. -/
def transformed (record : SourceRecord) (rule : MappingRule) :
    Except Exn (FieldDescriptor × PyValue) := do
  let source ← agent.sourceSchema.fieldById rule.sourceFieldId
  let target ← agent.targetSchema.fieldById rule.targetFieldId
  validateRoute source target rule.transform
  let value := (dictGet source.id record).getD .none
  let stage ← transformStage rule.transform
  if source.sensitivity.isSealed then return (target, value)
  else if stage = .source then do
    let value ← applyTransform env.host rule.transform value rule.parameters
    return (target, value)
  else return (target, value)

/-- The context of a field. -/
def contextFields (issue : Issue) (expiresAt : Option Instant) (target : FieldDescriptor) :
    TransferContextFields where
  tenant := agent.tenant
  sourceConnector := agent.sourceConnectorId
  destinationConnector := agent.destinationConnectorId
  fieldId := target.id
  schemaVersion := agent.schemaVersion
  recordId := issue.recordId
  transferId := issue.transferId
  planId := agent.plan.id
  planDigest := agent.plan.digest env.host
  protocolVersion := agent.protocolVersion
  recipientKeyId := issue.destinationKeyId
  issuedAt := some issue.issuedAt
  expiresAt := expiresAt

/-- One pass of the loop over the rules. -/
def sealRule (issue : Issue) (expiresAt : Option Instant) (record : SourceRecord)
    (draw : FieldDraw) (rule : MappingRule) : Except Exn SealedField := do
  let (target, value) ← agent.transformed record rule
  let context ← TransferContext.make (agent.contextFields issue expiresAt target)
  let plaintext ← PayloadCodec.encode env.host value
  let envelope ← lib.sealForRecipient env.host draw.ephemeral draw.nonce draw.now plaintext
    issue.destinationPublicKey context
  return ⟨target.id, context, envelope⟩

/-- The loop over the rules, from the rule with this number on. -/
def sealRules (issue : Issue) (expiresAt : Option Instant) (record : SourceRecord)
    (draws : Nat → FieldDraw) : Nat → List MappingRule → Except Exn (List SealedField)
  | _, [] => .ok []
  | k, rule :: rules => do
      let sealedField ← agent.sealRule lib issue expiresAt record (draws k) rule
      let others ← sealRules issue expiresAt record draws (k + 1) rules
      return sealedField :: others

/-- `issued_at + self.transfer_ttl` -/
def expiry (issuedAt : Instant) : Except Exn (Option Instant) :=
  match agent.transferTtl with
  | none => .ok none
  | some ttl =>
      match issuedAt.add ttl with
      | none => .error (.overflowError "date value out of range")
      | some expiresAt => .ok (some expiresAt)

/-- `_prepare_authorized_record`; what is no mapping is `none`. -/
def prepareAuthorizedRecord (issue : Issue) (draws : Nat → FieldDraw)
    (record : Option SourceRecord) : Except Exn BlindTransportRecord :=
  match record with
  | none => .error (.typeError "source record must be a mapping")
  | some record => do
      let expiresAt ← agent.expiry issue.issuedAt
      let fields ← agent.sealRules lib issue expiresAt record draws 0 agent.plan.rules
      let transport ← BlindTransportRecord.make { recordId := issue.recordId, fields := fields }
      if agent.protocolVersion = 2 then return transport
      else
        match agent.signingKey with
        | none => throw (.other "AssertionError")
        | some signer => transport.signed env.host signer

/-- The transfer id of a call; `uuid` is `str(uuid.uuid4())`. -/
def transferIdOf (uuid : String) : Option String → Except Exn String
  | none => .ok uuid
  | some transferId => boundedNewIdentifier env.host "transfer id" 256 (some transferId)

/-- `prepare_record` -/
def prepareRecord (authorize : Instant → Except Exn (RecipientKeyCertificate env)) (uuid : String)
    (draw : RecordDraw) (record : Option SourceRecord) (recordId : Option String)
    (transferId : Option String) : Except Exn BlindTransportRecord := do
  let recordId ← boundedNewIdentifier env.host "record id" 256 recordId
  let transferId ← @transferIdOf env uuid transferId
  let (publicKey, keyId) ← agent.recipientKey authorize draw.issuedAt
  agent.prepareAuthorizedRecord lib ⟨recordId, transferId, draw.issuedAt, publicKey, keyId⟩
    draw.field record

/-! ## A batch -/

/-- The length error of a batch. -/
def lengthsDiffer : Exn := .valueError "source batch records and record ids differ in length"

/-- The loop over a batch, from the record with number `index` on. An item is what `next` returns,
or what it raises; `seen` and `total` are `seen_record_ids` and `total_wire_bytes`. -/
def sealBatch (transferId : String) (recipient : Instant → Except Exn (List UInt8 × String))
    (maxWireBytes : Int) (draws : Nat → RecordDraw) : (index : Nat) → (seen : List String) →
    (total : Nat) → List (Except Exn (Option SourceRecord)) →
    List (Except Exn (Option String)) → Except Exn (List BlindTransportRecord)
  | _, _, _, [], [] => .ok []
  | _, _, _, [], .error e :: _ => .error e
  | _, _, _, [], .ok _ :: _ => .error lengthsDiffer
  | _, _, _, .error e :: _, _ => .error e
  | _, _, _, .ok _ :: _, [] => .error lengthsDiffer
  | _, _, _, .ok _ :: _, .error e :: _ => .error e
  | index, seen, total, .ok record :: records, .ok recordId :: recordIds => do
      if maxSourceBatchRecords ≤ index then
        throw (.valueError "source batch exceeds the record count limit")
      if record.isNone then
        throw (.typeError "source batch records must be mappings")
      let recordId ← boundedNewIdentifier env.host "record id" 256 recordId
      if recordId ∈ seen then
        throw (.valueError "source batch contains a duplicate record id")
      let (publicKey, keyId) ← recipient (draws index).issuedAt
      let prepared ← agent.prepareAuthorizedRecord lib
        ⟨recordId, transferId, (draws index).issuedAt, publicKey, keyId⟩ (draws index).field record
      if maxWireBytes < (total + prepared.wireBytes : Nat) then
        throw (.valueError "source batch exceeds the wire byte limit")
      let others ← sealBatch transferId recipient maxWireBytes draws (index + 1) (recordId :: seen)
        (total + prepared.wireBytes) records recordIds
      return prepared :: others

/-- The recipient of a record under the authorization of its batch. -/
def batchRecipient (token : Nat) (authorization : RecipientKeyBatchAuthorization env)
    (now : Instant) : Except Exn (List UInt8 × String) := do
  let certificate ← RecipientKeyTrustStore.authorizeBatchRecord token authorization now
  return (certificate.publicKey, agent.boundKeyId certificate.keyId)

/-- `prepare_records`; `begun`, `token` and `confirm` are what the trust store returns to
`begin_batch_authorization`, its token, and `confirm_batch_authorization`. -/
def prepareRecords (begun : Except Exn (RecipientKeyBatchAuthorization env)) (token : Nat)
    (confirm : RecipientKeyBatchAuthorization env → Except Exn Unit) (uuid : String)
    (draws : Nat → RecordDraw) (records : List (Except Exn (Option SourceRecord)))
    (recordIds : List (Except Exn (Option String))) (transferId : Option String)
    (maxWireBytes : Int) : Except Exn (List BlindTransportRecord) := do
  if ¬(1 ≤ maxWireBytes ∧ maxWireBytes ≤ defaultSourceBatchWireBytes) then
    throw (.valueError "source batch wire limit is outside supported range")
  let transferId ← @transferIdOf env uuid transferId
  match agent.recipientKeyTrustStore with
  | none => do
      let recipient ← agent.staticRecipient
      agent.sealBatch lib transferId (fun _ => .ok recipient) maxWireBytes draws 0 [] 0 records
        recordIds
  | some _ => do
      let authorization ← begun
      let prepared ← agent.sealBatch lib transferId (agent.batchRecipient token authorization)
        maxWireBytes draws 0 [] 0 records recordIds
      confirm authorization
      return prepared

end BlindSourceAgent

end Polymorph
