import Polymorph.Agents.SourceAgent
import Polymorph.Transport.PayloadRoundTrip
import Polymorph.Transport.WireCodec

/-!
# Prepared records

What a source agent has done when it returns a record, and a batch: every rule was sealed, in order,
for the recipient of the record; and a batch under an authorization was sealed to one certificate
that was the published one all the time.
-/

set_option autoImplicit false

namespace Polymorph

open JsonText Utc

/-- The authentication of a record is that of a signer. -/
structure BlindTransportRecord.SignedBy (transport : BlindTransportRecord)
    (signer : SigningKeyPair) : Prop where
  authentication : ∃ (a : RecordAuthentication) (payload : ByteArray),
    transport.authentication = some a ∧ a.keyId = signer.keyId ∧ a.algorithm = "ed25519" ∧
      transport.sourceAuthenticationBytes signer.keyId = .ok payload ∧
      a.signature = signer.sign payload

namespace BlindSourceAgent

open RecipientKeyTrustStore

variable {env : RecipientEnvironment} {agent : BlindSourceAgent env} {lib : SealingLibrary}

/-! ## One record -/

/-- A field that was sealed for a rule and its value at the source stage. -/
structure FieldSealed (agent : BlindSourceAgent env) (lib : SealingLibrary) (issue : Issue)
    (expiresAt : Option Instant) (record : SourceRecord) (rule : MappingRule) (value : PyValue)
    (field : SealedField) : Prop where
  made : ∃ (target : FieldDescriptor) (plaintext : List UInt8) (draw : FieldDraw),
    agent.transformed record rule = .ok (target, value) ∧ field.targetFieldId = target.id ∧
      field.context.toTransferContextFields = agent.contextFields issue expiresAt target ∧
      PayloadCodec.encode env.host value = .ok plaintext ∧
      lib.SealedUnder env.host draw.ephemeral draw.nonce draw.now plaintext
        issue.destinationPublicKey field.context field.envelope

/-- A record that was prepared for its issue. -/
structure PreparedFrom (agent : BlindSourceAgent env) (lib : SealingLibrary) (issue : Issue)
    (record : SourceRecord) (transport : BlindTransportRecord) : Prop where
  recordId : transport.recordId = issue.recordId
  fields : ∃ expiresAt, agent.expiry issue.issuedAt = .ok expiresAt ∧
    List.Forall₂ (fun rule field =>
      ∃ value, agent.FieldSealed lib issue expiresAt record rule value field)
      agent.plan.rules transport.fields
  signed : agent.protocolVersion ≠ 2 →
    ∃ signer, agent.signingKey = some signer ∧ transport.SignedBy signer
  policy : transport.allowLegacyBlankRecipientKeyId = false

theorem context_of_make {fields : TransferContextFields} {context : TransferContext}
    (h : TransferContext.make fields = .ok context) :
    context.toTransferContextFields = fields := by
  unfold TransferContext.make at h
  split at h
  · cases h
    rfl
  · cases h

variable {issue : Issue} {expiresAt : Option Instant} {record : SourceRecord}

theorem sealRule_ok {draw : FieldDraw} {rule : MappingRule} {field : SealedField}
    (h : agent.sealRule lib issue expiresAt record draw rule = .ok field) :
    ∃ value, agent.FieldSealed lib issue expiresAt record rule value field := by
  unfold sealRule at h
  obtain ⟨⟨target, value⟩, htransformed, h⟩ := bind_eq_ok h
  obtain ⟨context, hcontext, h⟩ := bind_eq_ok h
  obtain ⟨plaintext, hplaintext, h⟩ := bind_eq_ok h
  obtain ⟨envelope, henvelope, h⟩ := bind_eq_ok h
  cases h
  exact ⟨value, ⟨target, plaintext, draw, htransformed, rfl, context_of_make hcontext, hplaintext,
    SealingLibrary.sealedUnder_of_ok henvelope⟩⟩

theorem sealRules_ok {draws : Nat → FieldDraw} {rules : List MappingRule} {k : Nat}
    {fields : List SealedField}
    (h : agent.sealRules lib issue expiresAt record draws k rules = .ok fields) :
    List.Forall₂ (fun rule field =>
      ∃ value, agent.FieldSealed lib issue expiresAt record rule value field) rules fields := by
  induction rules generalizing k fields with
  | nil =>
      cases h
      exact .nil
  | cons rule rules ih =>
      obtain ⟨field, hfield, h⟩ := bind_eq_ok h
      obtain ⟨others, hothers, h⟩ := bind_eq_ok h
      cases h
      exact .cons (sealRule_ok hfield) (ih hothers)

/-- A signed record has the content of the record, with the signature over it. -/
theorem signed_ok {H : Host} {signer : SigningKeyPair} {transport after : BlindTransportRecord}
    (h : transport.signed H signer = .ok after) :
    after.recordId = transport.recordId ∧ after.fields = transport.fields ∧
      after.allowLegacyBlankRecipientKeyId = transport.allowLegacyBlankRecipientKeyId ∧
      after.SignedBy signer := by
  unfold BlindTransportRecord.signed at h
  obtain ⟨-, h⟩ := guard_eq_ok h
  obtain ⟨-, h⟩ := guard_eq_ok h
  obtain ⟨_, -, h⟩ := bind_eq_ok h
  obtain ⟨keyId, hkeyId, h⟩ := bind_eq_ok h
  rw [signer.signingKeyId_eq] at hkeyId
  cases hkeyId
  obtain ⟨payload, hpayload, h⟩ := bind_eq_ok h
  obtain ⟨a, ha, h⟩ := bind_eq_ok h
  have hmade := BlindTransportRecord.make_ok h
  have hid : after.recordId = transport.recordId := by rw [hmade]
  have hfields : after.fields = transport.fields := by rw [hmade]
  refine ⟨hid, hfields, by rw [hmade], ⟨a, payload, by rw [hmade], ?_⟩⟩
  have hparts : a.toRecordAuthenticationFields =
      { keyId := signer.keyId, signature := signer.sign payload } := by
    unfold RecordAuthentication.make at ha
    split at ha
    · cases ha
      rfl
    · cases ha
  -- The signature covers the content only, which the signed record keeps.
  have hsame : after.sourceAuthenticationBytes signer.keyId =
      transport.sourceAuthenticationBytes signer.keyId := by
    have hmembers := BlindTransportRecord.contentMembers_eq hid hfields
    have hversion : after.protocolVersion = transport.protocolVersion := by
      unfold BlindTransportRecord.protocolVersion BlindTransportRecord.first
      simp only [hfields]
    unfold BlindTransportRecord.sourceAuthenticationBytes BlindTransportRecord.authenticatedMembers
    rw [hversion, hmembers]
  refine ⟨by rw [hparts], by rw [hparts], ?_, by rw [hparts]⟩
  rw [hsame]
  exact hpayload

theorem prepareAuthorizedRecord_ok {draws : Nat → FieldDraw} {item : Option SourceRecord}
    {transport : BlindTransportRecord}
    (h : agent.prepareAuthorizedRecord lib issue draws item = .ok transport) :
    ∃ record, item = some record ∧ agent.PreparedFrom lib issue record transport := by
  cases item with
  | none => cases h
  | some record =>
      refine ⟨record, rfl, ?_⟩
      obtain ⟨expiresAt, hexpiry, h⟩ := bind_eq_ok h
      obtain ⟨fields, hfields, h⟩ := bind_eq_ok h
      obtain ⟨unsigned, hunsigned, h⟩ := bind_eq_ok h
      have hmade := BlindTransportRecord.make_ok hunsigned
      have hsealed := sealRules_ok hfields
      by_cases hversion : agent.protocolVersion = 2
      · rw [if_pos hversion] at h
        cases h
        refine ⟨by rw [hmade], ⟨expiresAt, hexpiry, ?_⟩, fun hne => absurd hversion hne,
          by rw [hmade]⟩
        rw [hmade]
        exact hsealed
      · rw [if_neg hversion] at h
        cases hsigner : agent.signingKey with
        | none =>
            rw [hsigner] at h
            cases h
        | some signer =>
            rw [hsigner] at h
            obtain ⟨hid, hsame, hpolicy, hsigned⟩ := signed_ok h
            refine ⟨?_, ⟨expiresAt, hexpiry, ?_⟩, fun _ => ⟨signer, hsigner, hsigned⟩, ?_⟩
            · rw [hid, hmade]
            · rw [hsame, hmade]
              exact hsealed
            · rw [hpolicy, hmade]

/-! ## When preparing succeeds -/

/-- A record with one field of the current protocol. -/
theorem check_single {c : TransferContext} {e : OpaqueEnvelope} {a : Option RecordAuthentication}
    (hversion : c.protocolVersion = 3) (hkey : c.recipientKeyId ≠ "") :
    RecordFields.check
      { recordId := c.recordId, fields := [⟨c.fieldId, c, e⟩], authentication := a } = .ok () := by
  simp [RecordFields.check, checkFields, sharedContextValues, hversion, hkey]

theorem forM_ok {α : Type} {f : α → Except Exn PUnit} {l : List α} (h : ∀ a ∈ l, f a = .ok ()) :
    l.forM f = .ok () := by
  induction l with
  | nil => rfl
  | cons a l ih =>
      have ha := h a List.mem_cons_self
      have hl := ih fun b hb => h b (List.mem_cons_of_mem _ hb)
      change (f a >>= fun _ => l.forM f) = _
      rw [ha, ok_bind, hl]

/-- A record of the current protocol with checked metadata can be signed. -/
theorem signed_eq_ok {H : Host} {signer : SigningKeyPair} {record after : BlindTransportRecord}
    {a : RecordAuthentication} {payload : ByteArray} (hversion : record.protocolVersion = 3)
    (hunsigned : record.authentication = none)
    (hmetadata : ∀ f ∈ record.fields, f.context.validateNewMetadata H = .ok ())
    (hpayload : record.sourceAuthenticationBytes signer.keyId = .ok payload)
    (ha : a.toRecordAuthenticationFields =
      { keyId := signer.keyId, signature := signer.sign payload })
    (hafter : after.toRecordFields = { record.toRecordFields with authentication := some a }) :
    record.signed H signer = .ok after := by
  unfold BlindTransportRecord.signed
  rw [if_neg (not_not.mpr hversion), if_neg (not_not.mpr hunsigned), forM_ok hmetadata, ok_bind,
    signer.signingKeyId_eq, ok_bind, hpayload, ok_bind, ← ha, a.make_valid, ok_bind]
  rw [← after.make_valid, hafter]

/-- When every step of sealing a field succeeds. -/
theorem sealRule_eq_ok {draw : FieldDraw} {record : SourceRecord}
    {expiresAt : Option Instant} {rule : MappingRule} {target : FieldDescriptor} {value : PyValue}
    {plaintext : List UInt8} {context : TransferContext} {envelope : OpaqueEnvelope}
    (htransformed : agent.transformed record rule = .ok (target, value))
    (hcontext : context.toTransferContextFields = agent.contextFields issue expiresAt target)
    (hplaintext : PayloadCodec.encode env.host value = .ok plaintext)
    (hsealed : lib.sealForRecipient env.host draw.ephemeral draw.nonce draw.now plaintext
      issue.destinationPublicKey context = .ok envelope) :
    agent.sealRule lib issue expiresAt record draw rule = .ok ⟨target.id, context, envelope⟩ := by
  unfold BlindSourceAgent.sealRule
  rw [htransformed, ok_bind]
  dsimp only
  rw [← hcontext, context.make_valid, ok_bind, hplaintext, ok_bind, hsealed]
  rfl

/-- When every step of preparing a record succeeds. -/
theorem prepareAuthorizedRecord_eq_ok {draws : Nat → FieldDraw} {record : SourceRecord}
    {expiresAt : Option Instant} {fields : List SealedField} {signer : SigningKeyPair}
    {unsigned transport : BlindTransportRecord}
    (hversion : agent.protocolVersion = 3) (hsigner : agent.signingKey = some signer)
    (hexpiry : agent.expiry issue.issuedAt = .ok expiresAt)
    (hfields : agent.sealRules lib issue expiresAt record draws 0 agent.plan.rules = .ok fields)
    (hunsigned : unsigned.toRecordFields = { recordId := issue.recordId, fields := fields })
    (hsigned : unsigned.signed env.host signer = .ok transport) :
    agent.prepareAuthorizedRecord lib issue draws (some record) = .ok transport := by
  have hnot : ¬agent.protocolVersion = 2 := by
    rw [hversion]
    decide
  unfold BlindSourceAgent.prepareAuthorizedRecord
  dsimp only
  rw [hexpiry, ok_bind, hfields, ok_bind, ← hunsigned, unsigned.make_valid, ok_bind, if_neg hnot,
    hsigner]
  exact hsigned

/-! ## A batch -/

/-- A record of a batch that was sealed to a certificate, within its validity. -/
structure SealedTo (agent : BlindSourceAgent env) (lib : SealingLibrary)
    (recipient : Instant → Except Exn (List UInt8 × String)) (transferId : String)
    (input : Except Exn (Option SourceRecord) × Except Exn (Option String))
    (transport : BlindTransportRecord) : Prop where
  made : ∃ (record : SourceRecord) (issue : Issue), input = (.ok (some record),
      .ok (some issue.recordId)) ∧ issue.transferId = transferId ∧
    recipient issue.issuedAt = .ok (issue.destinationPublicKey, issue.destinationKeyId) ∧
    agent.PreparedFrom lib issue record transport

theorem boundedNewIdentifier_ok {H : Host} {label : String} {maximum : Nat} {value : Option String}
    {text : String} (h : boundedNewIdentifier H label maximum value = .ok text) :
    value = some text := by
  unfold boundedNewIdentifier at h
  split at h
  · cases h
  · split at h
    · cases h
      rfl
    · cases h

variable {transferId : String} {recipient : Instant → Except Exn (List UInt8 × String)}
  {maxWireBytes : Int} {draws : Nat → RecordDraw}

/-- The loop over a batch: one record for each input, in order, under ids that are new, within the
limit of the wire. -/
theorem sealBatch_ok {records : List (Except Exn (Option SourceRecord))}
    {recordIds : List (Except Exn (Option String))} {index : Nat} {seen : List String} {total : Nat}
    {prepared : List BlindTransportRecord}
    (h : agent.sealBatch lib transferId recipient maxWireBytes draws index seen total records
      recordIds = .ok prepared) :
    records.length = recordIds.length ∧
      List.Forall₂ (agent.SealedTo lib recipient transferId) (records.zip recordIds) prepared ∧
      (prepared.map fun r => r.recordId).Nodup ∧
      (∀ r ∈ prepared, r.recordId ∉ seen) ∧
      (prepared ≠ [] →
        ((total + (prepared.map BlindTransportRecord.wireBytes).sum : Nat) : Int) ≤
          maxWireBytes) := by
  induction records generalizing recordIds index seen total prepared with
  | nil =>
      cases recordIds with
      | nil =>
          cases h
          exact ⟨rfl, .nil, List.nodup_nil, nofun, fun hne => absurd rfl hne⟩
      | cons id recordIds =>
          cases id with
          | error e => cases h
          | ok id => cases h
  | cons record records ih =>
      cases record with
      | error e => cases h
      | ok record =>
          cases recordIds with
          | nil => cases h
          | cons id recordIds =>
              cases id with
              | error e => cases h
              | ok id =>
                  obtain ⟨-, h⟩ := guard_eq_ok h
                  obtain ⟨-, h⟩ := guard_eq_ok h
                  obtain ⟨recordId, hid, h⟩ := bind_eq_ok h
                  obtain ⟨hfresh, h⟩ := guard_eq_ok h
                  obtain ⟨⟨publicKey, keyId⟩, hrecipient, h⟩ := bind_eq_ok h
                  obtain ⟨transport, htransport, h⟩ := bind_eq_ok h
                  obtain ⟨hlimit, h⟩ := guard_eq_ok h
                  obtain ⟨others, hothers, h⟩ := bind_eq_ok h
                  cases h
                  obtain ⟨source, rfl, hprepared⟩ := prepareAuthorizedRecord_ok htransport
                  obtain ⟨hlength, hsealed, hnodup, hnew, hwire⟩ := ih hothers
                  have hsame : transport.recordId = recordId := hprepared.recordId
                  refine ⟨?_, ?_, ?_, ?_, ?_⟩
                  · rw [List.length_cons, List.length_cons, hlength]
                  · rw [List.zip_cons_cons]
                    refine .cons ⟨source, _, ?_, rfl, hrecipient, hprepared⟩ hsealed
                    rw [boundedNewIdentifier_ok hid]
                  · -- The ids of the later records are not among those seen, this one included.
                    rw [List.map_cons, List.nodup_cons, hsame]
                    refine ⟨?_, hnodup⟩
                    intro hmem
                    obtain ⟨other, hother, heq⟩ := List.mem_map.mp hmem
                    exact hnew other hother (heq ▸ List.mem_cons_self)
                  · intro r hr
                    rcases List.mem_cons.mp hr with rfl | hr
                    · rw [hsame]
                      exact hfresh
                    · exact fun hseen => hnew r hr (List.mem_cons_of_mem _ hseen)
                  · intro _
                    rw [List.map_cons, List.sum_cons, ← Nat.add_assoc]
                    cases others with
                    | nil => exact not_lt.mp hlimit
                    | cons other rest => exact hwire (List.cons_ne_nil _ _)

/-- A batch that was sealed to a certificate, each record within its validity. -/
structure BatchSealed (agent : BlindSourceAgent env) (lib : SealingLibrary)
    (certificate : RecipientKeyCertificate env) (records : List (Except Exn (Option SourceRecord)))
    (recordIds : List (Except Exn (Option String))) (maxWireBytes : Int)
    (prepared : List BlindTransportRecord) : Prop where
  length : records.length = recordIds.length
  inputs : ∃ transferId, List.Forall₂ (fun input transport =>
    ∃ (record : SourceRecord) (issue : Issue),
      input = (.ok (some record), .ok (some issue.recordId)) ∧ issue.transferId = transferId ∧
        issue.destinationPublicKey = certificate.publicKey ∧
        issue.destinationKeyId = agent.boundKeyId certificate.keyId ∧
        verifyCurrentValidity certificate issue.issuedAt = .ok () ∧
        agent.PreparedFrom lib issue record transport) (records.zip recordIds) prepared
  distinct : (prepared.map fun r => r.recordId).Nodup
  wire : ((prepared.map BlindTransportRecord.wireBytes).sum : Int) ≤ maxWireBytes

theorem batchRecipient_ok {token : Nat} {authorization : RecipientKeyBatchAuthorization env}
    {now : Instant} {publicKey : List UInt8} {keyId : String}
    (h : agent.batchRecipient token authorization now = .ok (publicKey, keyId)) :
    publicKey = authorization.certificate.publicKey ∧
      keyId = agent.boundKeyId authorization.certificate.keyId ∧
      verifyCurrentValidity authorization.certificate now = .ok () := by
  obtain ⟨certificate, hcertificate, h⟩ := bind_eq_ok h
  obtain ⟨-, hcertificate⟩ := guard_eq_ok hcertificate
  obtain ⟨_, hvalidity, hcertificate⟩ := bind_eq_ok hcertificate
  cases hcertificate
  cases h
  exact ⟨rfl, rfl, hvalidity⟩

/-- A batch of an agent with a trust store: what was begun is what is confirmed. -/
theorem prepareRecords_ok {store : RecipientKeyTrustStore}
    (hstore : agent.recipientKeyTrustStore = some store)
    {begun : Except Exn (RecipientKeyBatchAuthorization env)} {token : Nat}
    {confirm : RecipientKeyBatchAuthorization env → Except Exn Unit} {uuid : String}
    {records : List (Except Exn (Option SourceRecord))}
    {recordIds : List (Except Exn (Option String))} {given : Option String}
    {prepared : List BlindTransportRecord}
    (h : agent.prepareRecords lib begun token confirm uuid draws records recordIds given
      maxWireBytes = .ok prepared) :
    ∃ authorization, begun = .ok authorization ∧ confirm authorization = .ok () ∧
      agent.BatchSealed lib authorization.certificate records recordIds maxWireBytes prepared := by
  unfold prepareRecords at h
  obtain ⟨hlimit, h⟩ := guard_eq_ok h
  obtain ⟨transferId, -, h⟩ := bind_eq_ok h
  rw [hstore] at h
  obtain ⟨authorization, hbegun, h⟩ := bind_eq_ok h
  obtain ⟨sealedRecords, hsealed, h⟩ := bind_eq_ok h
  obtain ⟨⟨⟩, hconfirm, h⟩ := bind_eq_ok h
  cases h
  obtain ⟨hlength, hinputs, hnodup, -, hwire⟩ := sealBatch_ok hsealed
  refine ⟨authorization, hbegun, hconfirm, hlength, ⟨transferId, ?_⟩, hnodup, ?_⟩
  · refine hinputs.imp ?_
    rintro input transport ⟨record, issue, hinput, htransfer, hrecipient, hprepared⟩
    obtain ⟨hkey, hid, hvalidity⟩ := batchRecipient_ok hrecipient
    exact ⟨record, issue, hinput, htransfer, hkey, hid, hvalidity, hprepared⟩
  · cases prepared with
    | nil => exact Int.le_trans Int.one_nonneg (not_not.mp hlimit).1
    | cons r rest =>
        have hsum := hwire (List.cons_ne_nil _ _)
        rw [Nat.zero_add] at hsum
        exact hsum

/-- **A batch is sealed to one published key**: whatever the stores on the state path do between
`begin_batch_authorization` and `confirm_batch_authorization`, a batch that comes back has a record
for each input, in order and under distinct ids, all sealed to one certificate within its validity;
and this certificate was the last published one in every state in between. -/
theorem batch_sealed_to_published {ι : Type} [DecidableEq ι] (store : RecipientKeyTrustStore)
    (hstore : agent.recipientKeyTrustStore = some store) (actions more : List (SharedStep ι env))
    (i : ι) {object later : StoreObject env} {beginning confirming : Option Exn} {uuid : String}
    {records : List (Except Exn (Option SourceRecord))}
    {recordIds : List (Except Exn (Option String))} {given : Option String}
    {prepared : List BlindTransportRecord}
    (hobject : (store.sharedRun actions).objects i = some object)
    (hlater : (store.sharedRun (actions ++ more)).objects i = some later)
    (h : agent.prepareRecords lib
      (store.beginBatchAuthorization agent.tenant agent.destinationConnectorId beginning object
        (store.sharedRun actions).file)
      object.token
      (store.confirmBatchAuthorization confirming later (store.sharedRun (actions ++ more)).file)
      uuid draws records recordIds given maxWireBytes = .ok prepared) :
    ∃ certificate, agent.BatchSealed lib certificate records recordIds maxWireBytes prepared ∧
      ∀ between, between <+: more →
        (store.sharedRun (actions ++ between)).file = (store.sharedRun actions).file ∧
          (store.sharedRun (actions ++ between)).published.getLast? = some certificate := by
  obtain ⟨authorization, hbegun, hconfirm, hsealed⟩ := prepareRecords_ok hstore h
  exact ⟨authorization.certificate, hsealed, fun between hbetween =>
    published_throughout hobject hbegun hlater hconfirm hbetween⟩

theorem batchRecipient_eq_ok {token : Nat} {authorization : RecipientKeyBatchAuthorization env}
    {now : Instant} (htoken : authorization.storeToken = token)
    (hvalidity : verifyCurrentValidity authorization.certificate now = .ok ()) :
    agent.batchRecipient token authorization now =
      .ok (authorization.certificate.publicKey,
        agent.boundKeyId authorization.certificate.keyId) := by
  unfold batchRecipient RecipientKeyTrustStore.authorizeBatchRecord
  rw [if_neg (not_not.mpr htoken), hvalidity]
  rfl

/-- A batch of one record that goes through. -/
theorem prepareRecords_eq_ok {store : RecipientKeyTrustStore}
    (hstore : agent.recipientKeyTrustStore = some store)
    {authorization : RecipientKeyBatchAuthorization env} {token : Nat}
    {confirm : RecipientKeyBatchAuthorization env → Except Exn Unit} {uuid : String}
    {record : SourceRecord} {recordId transferId : String} {transport : BlindTransportRecord}
    (hlimit : 1 ≤ maxWireBytes ∧ maxWireBytes ≤ defaultSourceBatchWireBytes)
    (htransfer : boundedNewIdentifier env.host "transfer id" 256 (some transferId) = .ok transferId)
    (hrecord : boundedNewIdentifier env.host "record id" 256 (some recordId) = .ok recordId)
    (htoken : authorization.storeToken = token)
    (hvalidity : verifyCurrentValidity authorization.certificate (draws 0).issuedAt = .ok ())
    (hprepared : agent.prepareAuthorizedRecord lib
      ⟨recordId, transferId, (draws 0).issuedAt, authorization.certificate.publicKey,
        agent.boundKeyId authorization.certificate.keyId⟩ (draws 0).field (some record) =
          .ok transport)
    (hwire : (transport.wireBytes : Int) ≤ maxWireBytes)
    (hconfirm : confirm authorization = .ok ()) :
    agent.prepareRecords lib (.ok authorization) token confirm uuid draws [.ok (some record)]
      [.ok (some recordId)] (some transferId) maxWireBytes = .ok [transport] := by
  have htransfer' : @transferIdOf env uuid (some transferId) = .ok transferId := htransfer
  have hcount : ¬maxSourceBatchRecords ≤ 0 := by decide
  have hmapping : ¬(some record).isNone = true := Bool.false_ne_true
  have hkeyed := @batchRecipient_eq_ok _ agent _ _ _ htoken hvalidity
  have hsum : ¬maxWireBytes < ((0 + transport.wireBytes : Nat) : Int) := by
    rw [Nat.zero_add]
    exact Int.not_lt.mpr hwire
  have hbatch : agent.sealBatch lib transferId (agent.batchRecipient token authorization)
      maxWireBytes draws 0 [] 0 [.ok (some record)] [.ok (some recordId)] = .ok [transport] := by
    unfold sealBatch
    rw [if_neg hcount, if_neg hmapping, hrecord, ok_bind, if_neg List.not_mem_nil, hkeyed]
    simp only [ok_bind]
    rw [hprepared, ok_bind, if_neg hsum]
    rfl
  unfold prepareRecords
  rw [if_neg (not_not.mpr hlimit), htransfer', ok_bind, hstore]
  simp only [ok_bind]
  rw [hbatch, ok_bind, hconfirm]
  rfl

end BlindSourceAgent

/-! ## A first batch -/

namespace SampleAgents

open RecipientKeyTrustStore BlindSourceAgent PayloadCodec

/-- A key agreement, and a cipher that appends its tag. -/
def library : SealingLibrary where
  agreement :=
    { publicKey := fun s => s
      exchange := fun a b => some (List.zipWith (· ^^^ ·) a b)
      exchange_comm := fun a b =>
        congrArg some (List.zipWith_comm_of_comm fun x y => UInt8.xor_comm x y) }
  aead :=
    { encrypt := fun _ _ m _ => some (m ++ List.replicate 16 0)
      decrypt := fun _ _ c _ =>
        if List.replicate 16 0 <:+ c then some (c.take (c.length - 16)) else none
      decrypt_eq_some_iff := by
        intro _ _ c _ m
        constructor
        · intro h
          split at h
          · rename_i hsuffix
            obtain ⟨t, rfl⟩ := hsuffix
            cases h
            simp
          · cases h
        · intro h
          cases h
          simp }
  hkdf := fun secret _ => secret

def signature : List UInt8 := List.replicate 64 9

def signer : SigningKeyPair := ⟨List.replicate 32 7, fun _ => signature, rfl, fun _ => rfl⟩

/-- The library's checks: of the signature of a certificate, and of those of the signer. -/
def ed25519 (certificate : ByteArray) (records : ByteArray → Bool) (key : List UInt8)
    (message : ByteArray) (signed : List UInt8) : Bool :=
  decide (key = SampleRecipient.identityKey ∧ message = certificate ∧
    signed = SampleRecipient.signature) ||
  decide (key = signer.publicBytes ∧ signed = signature ∧ records message = true)

noncomputable def environmentWith (certificate : ByteArray) (records : ByteArray → Bool) :
    RecipientEnvironment :=
  ⟨decimalHost, fun key => key = SampleRecipient.fields.publicKey, ed25519 certificate records⟩

noncomputable def certificateWith (certificate : ByteArray) (records : ByteArray → Bool) :
    RecipientKeyCertificate (environmentWith certificate records) where
  toCertificateFields := SampleRecipient.fields
  keyId := SampleRecipient.keyId
  tenant_bound := SampleRecipient.store.tenant_bound
  destination_bound := SampleRecipient.store.destination_bound
  named := rfl
  valid := SampleRecipient.check_fields

def field : FieldDescriptor := { id := "email", name := "email", dataType := .string }

def schema : SchemaDescriptor := { id := "contacts", fields := [field] }

def rule : MappingRule := { sourceFieldId := "email", targetFieldId := "email" }

noncomputable def plan : MappingPlan where
  id := "plan"
  sourceSchemaId := "contacts"
  targetSchemaId := "contacts"
  sourceFingerprint := schema.fingerprint decimalHost
  targetFingerprint := schema.fingerprint decimalHost
  rules := [rule]
  createdAt := SampleRecipient.start

noncomputable def agentFields : SourceAgentFields where
  tenant := "acme"
  sourceConnectorId := "crm"
  destinationConnectorId := "warehouse"
  sourceSchema := schema
  targetSchema := schema
  plan := plan
  signingKey := some signer
  recipientKeyTrustStore := some SampleRecipient.store

theorem raiseIfInvalid_plan :
    (PlanValidator.validate decimalHost plan schema schema).raiseIfInvalid = .ok () := by
  apply raiseIfInvalid_of_valid
  simp [PlanValidator.validate, PlanValidator.bindingFindings, PlanValidationReport.valid, plan,
    schema, rule, PlanValidator.findingIf, PlanValidator.checkRule, SchemaDescriptor.fieldById?,
    field, PlanValidator.routeFindings, PlanValidator.contractFindings, isKnownTransform,
    transformStage?, validateRoute, isForwarding, sensitivityRouteSafe, Sensitivity.isSealed,
    runtimeTypeSatisfies, PlanValidator.missingFindings, fieldPolicy, FieldPolicy.forSensitivity]

theorem check_agentFields (certificate : ByteArray) (records : ByteArray → Bool) :
    agentFields.check (.ok (certificateWith certificate records)) = .ok () := by
  have htenant : boundedNewIdentifier decimalHost "tenant" 128 (some "acme") = .ok "acme" := by
    decide +kernel
  have hsource : boundedNewIdentifier decimalHost "source connector" 128 (some "crm") =
      .ok "crm" := by
    decide +kernel
  have hdestination : boundedNewIdentifier decimalHost "destination connector" 128
      (some "warehouse") = .ok "warehouse" := by
    decide +kernel
  unfold SourceAgentFields.check
  change (boundedNewIdentifier decimalHost "tenant" 128 (some "acme") >>= _) = _
  rw [htenant, ok_bind]
  change (boundedNewIdentifier decimalHost "source connector" 128 (some "crm") >>= _) = _
  rw [hsource, ok_bind]
  change (boundedNewIdentifier decimalHost "destination connector" 128 (some "warehouse") >>= _) = _
  rw [hdestination, ok_bind]
  change ((PlanValidator.validate decimalHost plan schema schema).raiseIfInvalid >>= _) = _
  rw [raiseIfInvalid_plan]
  rfl

noncomputable def agentWith (certificate : ByteArray) (records : ByteArray → Bool) :
    BlindSourceAgent (environmentWith certificate records) :=
  ⟨agentFields, .ok (certificateWith certificate records), check_agentFields certificate records⟩

def issue : Issue :=
  ⟨"record", "transfer", SampleRecipient.start, SampleRecipient.fields.publicKey,
    SampleRecipient.keyId⟩

theorem isLowerHex_recipientKeyId : isLowerHex 64 SampleRecipient.keyId = true :=
  isLowerHex_hexDigest _

theorem recipientKeyId_ne : SampleRecipient.keyId ≠ "" := by
  have hkey := isLowerHex_recipientKeyId
  intro h
  rw [h] at hkey
  cases hkey

noncomputable def contextFields : TransferContextFields :=
  (agentWith default fun _ => true).contextFields issue none field

theorem check_contextFields : contextFields.check = .ok () := by
  simp [TransferContextFields.check, contextFields, BlindSourceAgent.contextFields, agentWith,
    agentFields, issue, isLowerHex_recipientKeyId, TransferContextFields.intervalOrdered]

noncomputable def context : TransferContext := ⟨contextFields, check_contextFields⟩

theorem validateNewMetadata_context : context.validateNewMetadata decimalHost = .ok () := by
  have hrequired : context.requiredMetadata.find? (fun item =>
      !TransferContext.isPrintableMetadata decimalHost item.2.1 item.2.2) = none := by
    decide +kernel
  have hplan : ¬(context.planId ≠ "" ∧ (256 < context.planId.length ∨
      decimalHost.printable context.planId = false)) := by
    decide +kernel
  have hdigest : isLowerHex 64 context.planDigest = true := decimalHost.sha256Hex_digits _
  have hhex : ¬(context.planDigest ≠ "" ∧ isLowerHex 64 context.planDigest = false) := by
    rw [hdigest]
    simp
  unfold TransferContext.validateNewMetadata
  rw [hrequired]
  dsimp only
  rw [if_neg hplan, if_neg hhex]

def value : PyValue := .str (PyText.ofString "ada")

def record : SourceRecord := [("email", value)]

def plaintext : List UInt8 :=
  utf8Bytes (write (.obj [("kind", .str "json"), ("value", .str "ada")]))

theorem encode_value : PayloadCodec.encode decimalHost value = .ok plaintext := rfl

def draw : RecordDraw :=
  ⟨SampleRecipient.start, fun _ =>
    ⟨List.replicate 32 5, List.replicate 12 3, SampleRecipient.start⟩⟩

def envelopeFields : OpaqueEnvelopeFields :=
  ⟨List.replicate 32 5, List.replicate 12 3, plaintext ++ List.replicate 16 0⟩

theorem check_envelopeFields : envelopeFields.check = .ok () := by decide +kernel

def envelope : OpaqueEnvelope := ⟨envelopeFields, check_envelopeFields⟩

theorem sealForRecipient_context : library.sealForRecipient decimalHost (draw.field 0).ephemeral
    (draw.field 0).nonce (draw.field 0).now plaintext issue.destinationPublicKey context =
      .ok envelope := by
  have htime : context.validateTime (draw.field 0).now = .ok () := rfl
  unfold SealingLibrary.sealForRecipient
  rw [validateNewMetadata_context, ok_bind, htime, ok_bind]
  exact envelope.make_valid

noncomputable def unsigned : BlindTransportRecord where
  recordId := "record"
  fields := [⟨"email", context, envelope⟩]
  valid := @check_single context envelope none rfl recipientKeyId_ne

/-- The signed bytes of the record. -/
noncomputable def payload : ByteArray :=
  BlindTransportRecord.sourceAuthDomain.toUTF8 ++
    (canonical (.obj (unsigned.authenticatedMembers signer.keyId "ed25519"))).toUTF8

theorem check_authentication :
    RecordAuthenticationFields.check { keyId := signer.keyId, signature := signature } =
      .ok () := by
  have hkey : isLowerHex 64 signer.keyId = true := isLowerHex_hexDigest _
  have hlength : signature.length = 64 := rfl
  simp [RecordAuthenticationFields.check, hkey, hlength]

def authentication : RecordAuthentication :=
  ⟨{ keyId := signer.keyId, signature := signature }, check_authentication⟩

/-- The record that the agent prepares. -/
noncomputable def transport : BlindTransportRecord where
  recordId := "record"
  fields := [⟨"email", context, envelope⟩]
  authentication := some authentication
  valid := @check_single context envelope (some authentication) rfl recipientKeyId_ne

theorem signed_unsigned : unsigned.signed decimalHost signer = .ok transport := by
  refine @signed_eq_ok _ _ _ _ authentication payload rfl rfl ?_ rfl rfl rfl
  intro f hf
  rw [List.mem_singleton.mp hf]
  exact validateNewMetadata_context

theorem signingBytes_certificateWith (c c' : ByteArray) (accepted accepted' : ByteArray → Bool) :
    (certificateWith c accepted).signingBytes = (certificateWith c' accepted').signingBytes := rfl

/-- The signed bytes of the certificate. -/
noncomputable def certificatePayload : ByteArray :=
  (certificateWith default fun _ => true).signingBytes

theorem prepareAuthorizedRecord_record (c : ByteArray) (accepted : ByteArray → Bool) :
    (agentWith c accepted).prepareAuthorizedRecord library issue draw.field (some record) =
      .ok transport := by
  have hrule : (agentWith c accepted).sealRule library issue none record (draw.field 0) rule =
      .ok ⟨field.id, context, envelope⟩ :=
    sealRule_eq_ok rfl rfl encode_value sealForRecipient_context
  have hrules : (agentWith c accepted).sealRules library issue none record draw.field 0 [rule] =
      .ok [⟨field.id, context, envelope⟩] := by
    unfold sealRules
    rw [hrule]
    rfl
  exact prepareAuthorizedRecord_eq_ok rfl rfl rfl hrules rfl signed_unsigned

/-- The wire of the record with ordered keys. -/
def sortedWire (planDigest recipientKeyId keyId : String) : Json :=
  .obj [("authentication", .obj [("algorithm", .str "ed25519"), ("key_id", .str keyId),
      ("signature", .str (b64Encode signature))]),
    ("fields", .arr [.obj [("context", .obj [("destination_connector", .str "warehouse"),
        ("field_id", .str "email"), ("issued_at", .str SampleRecipient.start.isoformat),
        ("plan_digest", .str planDigest), ("plan_id", .str "plan"), ("protocol_version", .int 3),
        ("recipient_key_id", .str recipientKeyId), ("record_id", .str "record"),
        ("schema_version", .str "1"), ("source_connector", .str "crm"), ("tenant", .str "acme"),
        ("transfer_id", .str "transfer")]),
      ("envelope", .obj [("ciphertext", .str (b64Encode envelope.ciphertext)),
        ("epk", .str (b64Encode envelope.ephemeralPublicKey)),
        ("nonce", .str (b64Encode envelope.nonce))]),
      ("target_field_id", .str "email")]]),
    ("protocol", .str "opaque-record"), ("record_id", .str "record"), ("version", .int 3)]

set_option maxRecDepth 20000 in
theorem sortKeys_toWire_transport : sortKeys transport.toWire =
    sortedWire (plan.digest decimalHost) SampleRecipient.keyId signer.keyId := rfl

/-- Digests of 64 digits leave the wire of the record short. -/
theorem extent_sortedWire_sample {d k s : String} (hd : extent (.str d) = 66)
    (hk : extent (.str k) = 66) (hs : extent (.str s) = 66) : extent (sortedWire d k s) ≤ 2000 := by
  unfold extent at hd hk hs
  simp only [sortedWire, extent, extentItems, extentMembers, hd, hk, hs]
  decide +kernel

theorem wireBytes_transport : transport.wireBytes ≤ 2000 := by
  have hdigest : extent (.str (plan.digest decimalHost)) = 66 :=
    extent_of_isLowerHex (decimalHost.sha256Hex_digits _)
  have hrecipient := extent_of_isLowerHex isLowerHex_recipientKeyId
  have hsigner : extent (.str signer.keyId) = 66 := extent_of_isLowerHex (isLowerHex_hexDigest _)
  have hsize : transport.wireBytes = byteCount (write (sortKeys transport.toWire)) := by
    unfold BlindTransportRecord.wireBytes BlindTransportRecord.canonicalWire canonical dumps
      byteCount
    rw [← length_utf8Bytes, String.toList_ofList]
  rw [hsize, sortKeys_toWire_transport]
  exact Nat.le_trans (byteCount_write_le _) (extent_sortedWire_sample hdigest hrecipient hsigner)

/-! The agent's trust store has accepted the certificate, and nothing else happens. -/

noncomputable def environment : RecipientEnvironment :=
  environmentWith certificatePayload fun _ => true

noncomputable def agent : BlindSourceAgent environment :=
  agentWith certificatePayload fun _ => true

noncomputable def certificate : RecipientKeyCertificate environment :=
  certificateWith certificatePayload fun _ => true

noncomputable def call : AcceptCall environment :=
  { certificate := certificate, now := SampleRecipient.start }

theorem verifyCertificate_certificate :
    SampleRecipient.store.verifyCertificate certificate = .ok () := by
  have hbytes : certificate.signingBytes = certificatePayload :=
    signingBytes_certificateWith _ _ _ _
  have hsigned : certificate.signature = SampleRecipient.signature := rfl
  have hidentity : certificate.identityKeyId = SampleRecipient.store.identityKeyId := rfl
  have htenant : certificate.tenant = SampleRecipient.store.tenant := rfl
  have hdestination :
      certificate.destinationConnector = SampleRecipient.store.destinationConnector := rfl
  have hkey : SampleRecipient.store.identityPublicKey = SampleRecipient.identityKey := rfl
  have hlength : SampleRecipient.identityKey.length = 32 := rfl
  have hlength' : SampleRecipient.signature.length = 64 := rfl
  have hcheck : environment.ed25519 SampleRecipient.identityKey certificatePayload
      SampleRecipient.signature = true := by
    have hsame : environment.ed25519 = ed25519 certificatePayload fun _ => true := rfl
    rw [hsame, ed25519, decide_eq_true ⟨rfl, rfl, rfl⟩, Bool.true_or]
  rw [verifyCertificate, hidentity, htenant, hdestination, hbytes, hsigned, hkey]
  simp [SourceTrustStore.verifyEd25519, hlength, hlength', hcheck]

/-- The head after the certificate has been accepted. -/
noncomputable def head : TrustHead environment :=
  { advanced {} certificate with fingerprint := some 0 }

noncomputable def file : StateFile :=
  written SampleRecipient.store call (advanced {} certificate) 0

theorem acceptTransition_call :
    SampleRecipient.store.acceptTransition {} call.certificate call.now =
      .ok (some (advanced {} certificate)) := by
  have hvalidity : verifyCurrentValidity certificate SampleRecipient.start = .ok () := by decide
  exact acceptTransition_first verifyCertificate_certificate hvalidity rfl rfl

/-! The agent's store is created on a path without a file, and accepts the certificate. -/

theorem sharedRun_first {env : RecipientEnvironment} {store : RecipientKeyTrustStore}
    {call : AcceptCall env} {next : TrustHead env} (hlocked : call.locked = none)
    (htransition : store.acceptTransition {} call.certificate call.now = .ok (some next))
    (hpublication : call.publication = .published) (hrestated : call.restated = none)
    (hsynced : call.unsynced = false) :
    ∃ revision,
      (store.sharedRun [SharedStep.opened (), .accept () call]).objects () =
          some (⟨{ next with fingerprint := some 0 }, revision, 0⟩ : StoreObject env) ∧
        (store.sharedRun [SharedStep.opened (), .accept () call]).file =
          some (written store call next 0) := by
  have hhead : store.lockedHead call {} none = .ok {} := by
    unfold lockedHead
    rw [hlocked]
    rfl
  have hopened : (store.sharedRun [SharedStep.opened ()]).objects () =
      some (⟨{}, 0, 0⟩ : StoreObject env) := rfl
  have haccept : store.accept call 0 {} none =
      (.ok call.certificate, { next with fingerprint := some 0 }, some (written store call next 0)) :=
    accept_published hhead htransition hpublication hrestated hsynced
  have hobject := sharedStep_accept_object store hopened call
  have hwrote := (sharedStep_wrote hopened (congrArg (fun after => after.2.2) haccept)).2
  rw [← List.singleton_append, sharedRun_concat, hobject]
  refine ⟨0 + store.acceptRevisions call {} none, ?_, hwrote⟩
  exact congrArg (fun h => some (⟨h, 0 + store.acceptRevisions call {} none, 0⟩ :
    StoreObject env)) (congrArg (fun after => after.2.1) haccept)

noncomputable def actions : List (SharedStep Unit environment) := [.opened (), .accept () call]

/-- Another call looks at the file in between. -/
noncomputable def between : List (SharedStep Unit environment) := [.refreshed () none]

noncomputable def object (revision : Nat) : StoreObject environment := ⟨head, revision, 0⟩

theorem sharedRun_actions : ∃ revision,
    (SampleRecipient.store.sharedRun actions).objects () = some (object revision) ∧
      (SampleRecipient.store.sharedRun actions).file = some file :=
  sharedRun_first rfl acceptTransition_call rfl rfl rfl

theorem object_version (revision : Nat) :
    (object revision).head.fingerprint = some file.fingerprint := rfl

theorem object_current (revision : Nat) : (object revision).head.current = some certificate := rfl

theorem sharedRun_between {revision : Nat}
    (hobject : (SampleRecipient.store.sharedRun actions).objects () = some (object revision))
    (hfile : (SampleRecipient.store.sharedRun actions).file = some file) :
    (SampleRecipient.store.sharedRun (actions ++ between)).objects () = some (object revision) ∧
      (SampleRecipient.store.sharedRun (actions ++ between)).file = some file := by
  have hstep := sharedStep_refreshed_object SampleRecipient.store hobject none
  rw [hfile, refreshedObject_same (object_version revision)] at hstep
  unfold between
  rw [sharedRun_concat]
  exact hstep

theorem recordId_ok : boundedNewIdentifier decimalHost "record id" 256 (some "record") =
    .ok "record" := by
  decide +kernel

theorem transferId_ok : boundedNewIdentifier decimalHost "transfer id" 256 (some "transfer") =
    .ok "transfer" := by
  decide +kernel

/-- The batch of the record, on a trust store that did not move. -/
theorem prepareRecords_record (revision : Nat) :
    agent.prepareRecords library
      (SampleRecipient.store.beginBatchAuthorization agent.tenant agent.destinationConnectorId none
        (object revision) (some file))
      (object revision).token
      (SampleRecipient.store.confirmBatchAuthorization none (object revision) (some file))
      "" (fun _ => draw) [.ok (some record)] [.ok (some "record")] (some "transfer") 2000 =
        .ok [transport] := by
  have hbegin := @beginBatchAuthorization_same _ SampleRecipient.store _ _ _
    (object_version revision) (object_current revision)
  have hconfirm := @confirmBatchAuthorization_same _ SampleRecipient.store _ _ _
    (object_version revision) (object_current revision)
  have hvalidity : verifyCurrentValidity certificate SampleRecipient.start = .ok () := by decide
  have hwire : (transport.wireBytes : Int) ≤ 2000 := Int.ofNat_le.mpr wireBytes_transport
  rw [show SampleRecipient.store.beginBatchAuthorization agent.tenant agent.destinationConnectorId
    none (object revision) (some file) = _ from hbegin]
  exact @prepareRecords_eq_ok _ _ _ _ _ SampleRecipient.store rfl _ _ _ _ _ _ _ _ (by decide)
    transferId_ok
    recordId_ok rfl hvalidity (prepareAuthorizedRecord_record _ _) hwire hconfirm

end SampleAgents

open SampleAgents RecipientKeyTrustStore in
/-- A batch of one record. -/
theorem batch_sealed_to_published_sample :
    ∃ certificate, agent.BatchSealed library certificate [.ok (some record)] [.ok (some "record")]
        2000 [transport] ∧
      ∀ part, part <+: between →
        (SampleRecipient.store.sharedRun (actions ++ part)).file =
            (SampleRecipient.store.sharedRun actions).file ∧
          (SampleRecipient.store.sharedRun (actions ++ part)).published.getLast? =
            some certificate := by
  obtain ⟨revision, hobject, hfile⟩ := sharedRun_actions
  obtain ⟨hlater, hkept⟩ := sharedRun_between hobject hfile
  refine @BlindSourceAgent.batch_sealed_to_published environment agent library 2000
    (fun _ => draw) Unit _ SampleRecipient.store rfl actions between () _ _ none none "" _ _
    (some "transfer") _ hobject hlater ?_
  rw [hfile, hkept]
  exact prepareRecords_record revision

end Polymorph

