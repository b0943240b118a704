import Polymorph.Agents.DestinationAgent
import Polymorph.Agents.PreparedRecords
import Polymorph.Transport.PayloadRoundTrip
import Polymorph.Trust.SourceAuthority

/-!
# Opened records

A record that a source agent prepared travels as its canonical wire; a destination that is set up
for it opens it to the values of the source stage. In the other direction, whatever a destination
opens under a trusted source key was prepared with that key, as long as signatures are not forged.
-/

set_option autoImplicit false

namespace Polymorph

open JsonText Utc

/-! ## The fields of a record -/

namespace BlindTransportRecord

/-- What the checks of the fields establish. -/
theorem checkFields_ok {recordId : String} {first : TransferContext} {seen : List String}
    {fields : List SealedField} (h : checkFields recordId first seen fields = .ok ()) :
    (fields.map SealedField.targetFieldId).Nodup ∧
      ∀ f ∈ fields, f.targetFieldId ∉ seen ∧ f.targetFieldId = f.context.fieldId := by
  induction fields generalizing seen with
  | nil => exact ⟨List.nodup_nil, nofun⟩
  | cons field rest ih =>
      unfold checkFields at h
      by_cases hseen : field.targetFieldId ∈ seen
      · rw [if_pos hseen] at h
        cases h
      rw [if_neg hseen] at h
      by_cases hid : field.targetFieldId ≠ field.context.fieldId
      · rw [if_pos hid] at h
        cases h
      rw [if_neg hid] at h
      by_cases hrecord : field.context.recordId ≠ recordId
      · rw [if_pos hrecord] at h
        cases h
      rw [if_neg hrecord] at h
      cases hmixed : sharedContextValues.find? fun p => !p.2 field.context first with
      | some p =>
          rw [hmixed] at h
          cases h
      | none =>
          rw [hmixed] at h
          obtain ⟨hnodup, hfields⟩ := ih h
          refine ⟨?_, ?_⟩
          · rw [List.map_cons, List.nodup_cons]
            refine ⟨?_, hnodup⟩
            -- The later fields were checked with this target among those seen.
            intro hmem
            obtain ⟨other, hother, hsame⟩ := List.mem_map.mp hmem
            exact (hfields other hother).1 (hsame ▸ List.mem_cons_self)
          · intro f hf
            rcases List.mem_cons.mp hf with rfl | hf
            · exact ⟨hseen, not_not.mp hid⟩
            · obtain ⟨hnew, hcontext⟩ := hfields f hf
              exact ⟨fun hmem => hnew (List.mem_cons_of_mem _ hmem), hcontext⟩

/-- The fields of a record have distinct targets. -/
theorem targets_nodup (r : BlindTransportRecord) :
    (r.fields.map SealedField.targetFieldId).Nodup := by
  have hvalid := r.valid
  unfold RecordFields.check at hvalid
  cases hfields : r.fields with
  | nil => exact List.nodup_nil
  | cons field rest =>
      rw [hfields] at hvalid
      dsimp only at hvalid
      split at hvalid
      · cases hvalid
      · split at hvalid
        · cases hvalid
        · rename_i hcheck
          exact (checkFields_ok hcheck).1

end BlindTransportRecord

/-- Setting a new key appends it. -/
theorem dictSet_of_notMem {α : Type} {key : String} {value : α} {members : List (String × α)}
    (h : key ∉ members.map Prod.fst) : dictSet key value members = members ++ [(key, value)] := by
  induction members with
  | nil => rfl
  | cons member rest ih =>
      rw [List.map_cons, List.mem_cons, not_or] at h
      unfold dictSet
      rw [if_neg (fun hsame => h.1 hsame.symm), ih h.2]
      rfl

namespace BlindSourceAgent

variable {env : RecipientEnvironment} {agent : BlindSourceAgent env} {lib : SealingLibrary}
  {issue : Issue} {record : SourceRecord} {transport : BlindTransportRecord}

/-- The values of a record at the source stage, under the targets of the rules. -/
def sourceStage (agent : BlindSourceAgent env) (record : SourceRecord) : Except Exn SourceRecord :=
  agent.plan.rules.mapM fun rule => do
    let (target, value) ← agent.transformed record rule
    return (target.id, value)

/-- The fields of a prepared record carry the values of the source stage. -/
theorem sourceStage_of_fields {expiresAt : Option Instant} {rules : List MappingRule}
    {fields : List SealedField}
    (h : List.Forall₂ (fun rule field =>
      ∃ value, agent.FieldSealed lib issue expiresAt record rule value field) rules fields) :
    ∃ values, List.Forall₂ (fun rule value =>
        (do let (target, v) ← agent.transformed record rule
            return (target.id, v) : Except Exn (String × PyValue)) = .ok value) rules values ∧
      List.Forall₂ (fun field value => ∃ rule, field.targetFieldId = value.1 ∧
        agent.FieldSealed lib issue expiresAt record rule value.2 field) fields values := by
  induction h with
  | nil => exact ⟨[], .nil, .nil⟩
  | cons hfield htail ih =>
      rename_i rule field rules fields
      obtain ⟨value, hvalue⟩ := hfield
      obtain ⟨values, hstage, hfields⟩ := ih
      obtain ⟨target, plaintext, draw, htransformed, htarget, -⟩ := hvalue.made
      refine ⟨(target.id, value) :: values, .cons ?_ hstage, .cons ⟨rule, htarget, hvalue⟩ hfields⟩
      rw [htransformed]
      rfl

/-- A prepared record has the context of its agent and its issue in every field. -/
theorem PreparedFrom.context (h : agent.PreparedFrom lib issue record transport)
    {field : SealedField} (hfield : field ∈ transport.fields) :
    ∃ expiresAt target, agent.expiry issue.issuedAt = .ok expiresAt ∧
      field.context.toTransferContextFields = agent.contextFields issue expiresAt target := by
  obtain ⟨expiresAt, hexpiry, hfields⟩ := h.fields
  obtain ⟨rule, -, value, hvalue⟩ := forall₂_partner_right hfields hfield
  obtain ⟨target, _, _, -, -, hcontext, -⟩ := hvalue.made
  exact ⟨expiresAt, target, hexpiry, hcontext⟩

theorem PreparedFrom.first (h : agent.PreparedFrom lib issue record transport) :
    ∃ expiresAt target, agent.expiry issue.issuedAt = .ok expiresAt ∧
      transport.first.toTransferContextFields = agent.contextFields issue expiresAt target :=
  h.context (List.head_mem transport.fields_ne_nil)

/-- The key id of a recipient names its public key. -/
theorem recipientKey_ok (hversion : agent.protocolVersion = 3)
    {authorize : Instant → Except Exn (RecipientKeyCertificate env)} {now : Instant}
    {publicKey : List UInt8} {keyId : String}
    (h : agent.recipientKey authorize now = .ok (publicKey, keyId)) :
    recipientKeyId env publicKey = .ok keyId := by
  unfold recipientKey at h
  cases hstore : agent.recipientKeyTrustStore with
  | some store =>
      rw [hstore] at h
      obtain ⟨certificate, -, h⟩ := bind_eq_ok h
      cases h
      unfold boundKeyId
      rw [if_pos hversion]
      exact certificate.named
  | none =>
      rw [hstore] at h
      dsimp only at h
      unfold staticRecipient at h
      split at h
      · cases h
      · rw [if_pos hversion] at h
        obtain ⟨id, hid, h⟩ := bind_eq_ok h
        cases h
        exact hid

end BlindSourceAgent

namespace BlindDestinationAgent

variable {env : RecipientEnvironment} {lib : SealingLibrary}
  {destination : BlindDestinationAgent} {source : BlindSourceAgent env}

/-! ## The recipient key -/

/-- Among keys with distinct ids, the ones with the id of a key are this key. -/
theorem filter_zip_eq {α ε : Type} {f : α → Except ε String} {keys : List α} {ids : List String}
    (h : List.Forall₂ (fun key id => f key = .ok id) keys ids) (hids : ids.Nodup) {key : α}
    (hkey : key ∈ keys) {id : String} (hid : f key = .ok id) :
    ((keys.zip ids).filter fun k => k.2 = id).map Prod.fst = [key] := by
  induction h with
  | nil => cases hkey
  | cons hhead htail ih =>
      rename_i other otherId keys ids
      obtain ⟨hfresh, hids⟩ := List.nodup_cons.mp hids
      rw [List.zip_cons_cons, List.filter_cons]
      by_cases hsame : otherId = id
      · -- The id is not repeated, so the key is this one, and the rest has none.
        have hnone : (keys.zip ids).filter (fun k => k.2 = id) = [] := by
          rw [List.filter_eq_nil_iff]
          intro k hk
          rw [decide_eq_true_eq]
          intro hk'
          exact hfresh (hsame.trans hk'.symm ▸ (List.of_mem_zip hk).2)
        have hthis : key = other := by
          rcases List.mem_cons.mp hkey with hkey | hkey
          · exact hkey
          · exfalso
            obtain ⟨id', hmem, hid'⟩ := forall₂_partner htail hkey
            rw [hid] at hid'
            cases hid'
            exact hfresh (hsame ▸ hmem)
        rw [if_pos (decide_eq_true hsame), hnone, hthis]
        rfl
      · rw [if_neg (by rw [decide_eq_true_eq]; exact hsame)]
        apply ih hids
        rcases List.mem_cons.mp hkey with rfl | hkey
        · rw [hid] at hhead
          exact absurd (Except.ok.inj hhead).symm hsame
        · exact hkey

theorem recipientKeyId_ne_empty {publicKey : List UInt8} {keyId : String}
    (h : recipientKeyId env publicKey = .ok keyId) : keyId ≠ "" := by
  intro hempty
  rw [hempty] at h
  unfold recipientKeyId at h
  split at h
  · cases h
  · split at h
    · cases h
    · -- A digest has 64 digits.
      have hlength := Sha256.length_hexDigest (canonicalCoordinate publicKey)
      rw [Except.ok.inj h] at hlength
      cases hlength

/-! ## A destination that is set up for a source -/

/-- A destination is set up for the records of a source: it has the private key of the recipient,
expects its addressee, and trusts the key of the signer. -/
structure Receives (destination : BlindDestinationAgent) (lib : SealingLibrary)
    (source : BlindSourceAgent env) (publicKey : List UInt8) (now : Instant) : Prop where
  tenant : ∀ tenant, destination.expectedTenant = some tenant → tenant = source.tenant
  connector : ∀ connector, destination.expectedConnectorId = some connector →
    connector = source.destinationConnectorId
  plan : ∀ digests, destination.allowedPlanDigests = some digests →
    source.plan.digest env.host ∈ digests
  recipient : ∃ keyIds privateKey,
    (destination.privateKeys.mapM fun key => recipientKeyId env (lib.agreement.publicKey key)) =
      .ok keyIds ∧ keyIds.Nodup ∧ privateKey ∈ destination.privateKeys ∧
        lib.agreement.publicKey privateKey = publicKey
  trusted : ∀ signer, source.signingKey = some signer →
    ∃ store key, destination.sourceTrustStore = some store ∧
      store.get signer.keyId = some key ∧ key.publicKey = signer.publicBytes ∧
      key.state = .active ∧ key.tenant = source.tenant ∧
      key.sourceConnector = source.sourceConnectorId ∧
      (key.notBefore.any fun notBefore => now < notBefore) = false ∧
      (key.notAfter.any fun notAfter => notAfter < now) = false

variable {issue : Issue} {record : SourceRecord} {transport : BlindTransportRecord} {now : Instant}

/-- The library accepts the signature of a record. -/
def SignatureAccepted (source : BlindSourceAgent env) (transport : BlindTransportRecord) : Prop :=
  ∀ signer payload, source.signingKey = some signer →
    transport.sourceAuthenticationBytes signer.keyId = .ok payload →
      env.ed25519 signer.publicBytes payload (signer.sign payload) = true

/-- The signature of a prepared record verifies. -/
theorem checkSource_prepared (hversion : source.protocolVersion = 3)
    (hprepared : source.PreparedFrom lib issue record transport)
    (haccepted : SignatureAccepted source transport)
    (hreceives : destination.Receives lib source issue.destinationPublicKey now) :
    destination.checkSource env transport now = .ok () := by
  obtain ⟨expiresAt, target, -, hfirst⟩ := hprepared.first
  have hcontext : transport.protocolVersion = 3 ∧ transport.tenant = source.tenant ∧
      transport.sourceConnector = source.sourceConnectorId := by
    unfold BlindTransportRecord.protocolVersion BlindTransportRecord.tenant
      BlindTransportRecord.sourceConnector
    rw [hfirst]
    exact ⟨hversion, rfl, rfl⟩
  obtain ⟨hprotocol, htenant, hconnector⟩ := hcontext
  have hnot : source.protocolVersion ≠ 2 := by
    rw [hversion]
    decide
  obtain ⟨signer, hsigner, hsigned⟩ := hprepared.signed hnot
  obtain ⟨a, payload, ha, hid, halgorithm, hpayload, hsignature⟩ := hsigned.authentication
  -- The destination trusts the key that the record names as its signer.
  obtain ⟨store, key, hstore, hkey, hpublic, hactive, hkeyTenant, hkeyConnector, hnotBefore,
    hnotAfter⟩ := hreceives.trusted signer hsigner
  have hlength := signer.publicBytes_length
  have hlength' := signer.sign_length payload
  have hverified : SourceTrustStore.verifyEd25519 env.ed25519 key.publicKey payload a.signature =
      .ok () := by
    unfold SourceTrustStore.verifyEd25519
    rw [hpublic, hsignature, if_neg (not_not.mpr hlength), if_neg (not_not.mpr hlength'),
      haccepted signer payload hsigner hpayload]
    rfl
  have hissuance : SourceTrustStore.checkIssuance key transport.first.issuedAt = .ok () := by
    unfold SourceTrustStore.checkIssuance
    rw [hactive]
    rfl
  have hrecord : SourceTrustStore.verifyRecord env.ed25519 store transport (.aware now) =
      .ok key := by
    apply SourceTrustStore.verifyRecord_accepted ha halgorithm (by rw [hid]; exact hkey)
      (by rw [hactive]; decide) (hkeyTenant.trans htenant.symm)
      (hkeyConnector.trans hconnector.symm)
      (by rw [hid]; exact hpayload) hverified rfl hnotBefore hnotAfter hissuance
  have hnot' : ¬transport.protocolVersion = 2 := by
    rw [hprotocol]
    decide
  unfold checkSource
  rw [if_neg hnot', hstore]
  dsimp only
  rw [hrecord]
  rfl

/-- A destination that is set up for a prepared record authorizes it with the recipient's key. -/
theorem authorizeRecord_prepared (hversion : source.protocolVersion = 3)
    (hprepared : source.PreparedFrom lib issue record transport)
    (hnamed : recipientKeyId env issue.destinationPublicKey = .ok issue.destinationKeyId)
    (haccepted : SignatureAccepted source transport)
    (hreceives : destination.Receives lib source issue.destinationPublicKey now) :
    ∃ privateKey, destination.authorizeRecord env lib transport now = .ok privateKey ∧
      lib.agreement.publicKey privateKey = issue.destinationPublicKey := by
  obtain ⟨expiresAt, target, -, hfirst⟩ := hprepared.first
  obtain ⟨keyIds, privateKey, hkeyIds, hnodup, hmem, hpublic⟩ := hreceives.recipient
  refine ⟨privateKey, ?_, hpublic⟩
  have hkeyId : transport.first.recipientKeyId = issue.destinationKeyId := by
    rw [hfirst]
    rfl
  have hdigest : transport.planDigest = source.plan.digest env.host := by
    unfold BlindTransportRecord.planDigest
    rw [hfirst]
    rfl
  have htenant : transport.tenant = source.tenant := by
    unfold BlindTransportRecord.tenant
    rw [hfirst]
    rfl
  have hconnector : transport.destinationConnector = source.destinationConnectorId := by
    unfold BlindTransportRecord.destinationConnector
    rw [hfirst]
    rfl
  have hblank : transport.first.recipientKeyId ≠ "" := by
    rw [hkeyId]
    exact recipientKeyId_ne_empty hnamed
  -- Key ids are distinct, so that the one of the record selects the private key.
  have hkey : destination.recipientPrivateKey env lib transport = .ok privateKey := by
    have hmatch : destination.matchingKeys keyIds transport.first.recipientKeyId =
        [privateKey] := by
      rw [hkeyId]
      refine filter_zip_eq (forall₂_of_mapM hkeyIds) hnodup hmem ?_
      rw [hpublic]
      exact hnamed
    unfold recipientPrivateKey
    rw [if_neg hblank, hkeyIds, ok_bind, hmatch]
    rfl
  have hguard : ¬(transport.protocolVersion = 3 ∧ transport.first.recipientKeyId = "" ∧
      destination.allowLegacyBlankRecipientKeyId = false) := fun h => hblank h.2.1
  have htenants : ¬(destination.expectedTenant.any fun tenant =>
      transport.tenant ≠ tenant) = true := by
    cases hexpected : destination.expectedTenant with
    | none => simp
    | some tenant => simp [htenant, hreceives.tenant tenant hexpected]
  have hconnectors : ¬(destination.expectedConnectorId.any fun connector =>
      transport.destinationConnector ≠ connector) = true := by
    cases hexpected : destination.expectedConnectorId with
    | none => simp
    | some connector => simp [hconnector, hreceives.connector connector hexpected]
  have hplans : ¬(destination.allowedPlanDigests.any fun digests =>
      transport.planDigest ∉ digests) = true := by
    cases hallowed : destination.allowedPlanDigests with
    | none => simp
    | some digests => simp [hdigest, hreceives.plan digests hallowed]
  unfold authorizeRecord
  rw [if_neg hguard, checkSource_prepared hversion hprepared haccepted hreceives, ok_bind,
    if_neg htenants, if_neg hconnectors, hkey, ok_bind, if_neg hplans]
  rfl

/-! ## Opening -/

/-- Opening sealed fields yields their values, behind what is there already. -/
theorem openFields_sealed (hfloats : env.host.WritesFloats) {privateKey : List UInt8}
    (hkey : lib.agreement.publicKey privateKey = issue.destinationPublicKey)
    {expiresAt : Option Instant} {clock : Nat → Instant}
    (hclock : ∀ expires, expiresAt = some expires → ∀ k, ¬expires < clock k)
    {fields : List SealedField} {values : SourceRecord}
    (h : List.Forall₂ (fun field value => ∃ rule, field.targetFieldId = value.1 ∧
      source.FieldSealed lib issue expiresAt record rule value.2 field) fields values)
    (hnodup : (fields.map SealedField.targetFieldId).Nodup)
    (hshaped : ∀ value ∈ values, PayloadCodec.jsonShaped value.2 = true) (k : Nat)
    {output : SourceRecord}
    (houtput : ∀ f ∈ fields, f.targetFieldId ∉ output.map Prod.fst) :
    openFields lib env.host privateKey clock k fields output = .ok (output ++ values) := by
  induction h generalizing k output with
  | nil => rw [List.append_nil]; rfl
  | cons hfield htail ih =>
      rename_i field value fields values
      obtain ⟨rule, htarget, hsealed⟩ := hfield
      obtain ⟨target, plaintext, draw, -, -, hcontext, hplaintext, hunder⟩ := hsealed.made
      obtain ⟨hfresh, hnodup⟩ := List.nodup_cons.mp hnodup
      have htime : field.context.validateTime (clock k) = .ok () := by
        have hexpires : field.context.expiresAt = expiresAt := by
          rw [hcontext]
          rfl
        unfold TransferContext.validateTime
        rw [hexpires]
        cases expiresAt with
        | none => rfl
        | some expires => exact if_neg (hclock expires rfl k)
      rw [← hkey] at hunder
      have hopen := SealingLibrary.openEnvelope_sealed hunder htime
      have hdecode := PayloadCodec.decode_encode hfloats hplaintext
        (hshaped value List.mem_cons_self)
      have hnew := houtput field List.mem_cons_self
      unfold openFields
      rw [hopen, ok_bind, hdecode, ok_bind, dictSet_of_notMem hnew]
      rw [ih hnodup (fun v hv => hshaped v (List.mem_cons_of_mem _ hv)) (k + 1) ?_]
      · rw [htarget, List.append_assoc]
        rfl
      · intro f hf
        rw [List.map_append, List.mem_append, not_or]
        refine ⟨houtput f (List.mem_cons_of_mem _ hf), ?_⟩
        intro hsame
        rw [List.map_singleton, List.mem_singleton] at hsame
        have htargets : f.targetFieldId = field.targetFieldId := hsame
        apply hfresh
        rw [← htargets]
        exact List.mem_map_of_mem hf

/-- A prepared record opens to the values of its source stage. -/
theorem openRecord_prepared (hfloats : env.host.WritesFloats)
    (hversion : source.protocolVersion = 3)
    (hprepared : source.PreparedFrom lib issue record transport)
    (hnamed : recipientKeyId env issue.destinationPublicKey = .ok issue.destinationKeyId)
    (haccepted : SignatureAccepted source transport)
    (hreceives : destination.Receives lib source issue.destinationPublicKey now)
    {clock : Nat → Instant}
    (hclock : ∀ expires, source.expiry issue.issuedAt = .ok (some expires) →
      ∀ k, ¬expires < clock k) :
    ∃ values, source.sourceStage record = .ok values ∧
      ((∀ value ∈ values, PayloadCodec.jsonShaped value.2 = true) →
        destination.openRecord env lib transport now clock = .ok values) := by
  obtain ⟨expiresAt, hexpiry, hfields⟩ := hprepared.fields
  obtain ⟨values, hstage, hvalues⟩ := BlindSourceAgent.sourceStage_of_fields hfields
  obtain ⟨privateKey, hauthorized, hkey⟩ :=
    authorizeRecord_prepared hversion hprepared hnamed haccepted hreceives
  refine ⟨values, mapM_of_forall₂ hstage, ?_⟩
  intro hshaped
  unfold openRecord
  rw [hauthorized, ok_bind]
  refine openFields_sealed hfloats hkey ?_ hvalues transport.targets_nodup hshaped 0
    fun _ _ => List.not_mem_nil
  intro expires hexpires
  apply hclock
  rw [hexpiry, hexpires]

/-- What `prepare_record` has done when it returns. -/
theorem prepareRecord_ok {authorize : Instant → Except Exn (RecipientKeyCertificate env)}
    {uuid : String} {draw : RecordDraw} {item : Option SourceRecord} {recordId : Option String}
    {transferId : Option String}
    (h : source.prepareRecord lib authorize uuid draw item recordId transferId = .ok transport) :
    ∃ (record : SourceRecord) (issue : Issue), item = some record ∧
      recordId = some issue.recordId ∧ issue.issuedAt = draw.issuedAt ∧
      source.recipientKey authorize draw.issuedAt =
        .ok (issue.destinationPublicKey, issue.destinationKeyId) ∧
      source.PreparedFrom lib issue record transport := by
  obtain ⟨id, hid, h⟩ := bind_eq_ok h
  obtain ⟨transfer, -, h⟩ := bind_eq_ok h
  obtain ⟨⟨publicKey, keyId⟩, hrecipient, h⟩ := bind_eq_ok h
  obtain ⟨record, rfl, hprepared⟩ := BlindSourceAgent.prepareAuthorizedRecord_ok h
  exact ⟨record, ⟨id, transfer, draw.issuedAt, publicKey, keyId⟩, rfl,
    BlindSourceAgent.boundedNewIdentifier_ok hid, rfl, hrecipient, hprepared⟩

theorem prepareRecord_eq_ok {authorize : Instant → Except Exn (RecipientKeyCertificate env)}
    {uuid recordId transferId keyId : String} {draw : RecordDraw} {publicKey : List UInt8}
    (hrecord : boundedNewIdentifier env.host "record id" 256 (some recordId) = .ok recordId)
    (htransfer : @BlindSourceAgent.transferIdOf env uuid (some transferId) = .ok transferId)
    (hrecipient : source.recipientKey authorize draw.issuedAt = .ok (publicKey, keyId))
    (hprepared : source.prepareAuthorizedRecord lib
      ⟨recordId, transferId, draw.issuedAt, publicKey, keyId⟩ draw.field (some record) =
        .ok transport) :
    source.prepareRecord lib authorize uuid draw (some record) (some recordId) (some transferId) =
      .ok transport := by
  unfold BlindSourceAgent.prepareRecord
  rw [hrecord, ok_bind, htransfer, ok_bind, hrecipient]
  exact hprepared

/-- The wire of a prepared record decodes to the record. -/
theorem fromWire_prepared (hversion : source.protocolVersion = 3)
    (hprepared : source.PreparedFrom lib issue record transport)
    (hblank : transport.first.recipientKeyId ≠ "") {limits : ProtocolLimits}
    (hfits : transport.FitsLimits limits) (allowLegacyUnsigned allowLegacyBlank : Bool) :
    ∃ payload, plainLoads transport.canonicalWire = some (.obj payload) ∧
      BlindTransportRecord.fromWire env.host limits allowLegacyUnsigned allowLegacyBlank payload =
        .ok transport := by
  obtain ⟨expiresAt, target, -, hfirst⟩ := hprepared.first
  have hprotocol : transport.protocolVersion = 3 := by
    unfold BlindTransportRecord.protocolVersion
    rw [hfirst]
    exact hversion
  have hnot : source.protocolVersion ≠ 2 := by
    rw [hversion]
    decide
  obtain ⟨signer, -, hsigned⟩ := hprepared.signed hnot
  obtain ⟨a, -, ha, -⟩ := hsigned.authentication
  refine ⟨_, transport.plainLoads_canonicalWire, ?_⟩
  apply BlindTransportRecord.fromWire_loaded
  exact ⟨hprotocol, by rw [ha]; rfl, hblank, hprepared.policy, hfits.fieldCount, hfits.wireSize,
    hfits.ciphertexts⟩

end BlindDestinationAgent

/-! ## A record that arrives -/

namespace SampleAgents

open RecipientKeyTrustStore BlindSourceAgent

def trustedKey : TrustedSourceKey where
  publicKey := signer.publicBytes
  tenant := "acme"
  sourceConnector := "crm"
  keyId := signer.keyId
  named := rfl
  valid := rfl

def sourceTrustStore : SourceTrustStore := ⟨[(signer.keyId, trustedKey)], 0⟩

def destination : BlindDestinationAgent where
  privateKey := SampleRecipient.fields.publicKey
  expectedTenant := some "acme"
  expectedConnectorId := some "warehouse"
  sourceTrustStore := some sourceTrustStore

theorem get_sourceTrustStore : sourceTrustStore.get signer.keyId = some trustedKey := by
  simp [sourceTrustStore, SourceTrustStore.get, dictGet]

theorem recipientKey_agentWith (c : ByteArray) (accepted : ByteArray → Bool) :
    (agentWith c accepted).recipientKey (fun _ => .ok (certificateWith c accepted))
      draw.issuedAt = .ok (SampleRecipient.fields.publicKey, SampleRecipient.keyId) := rfl

theorem prepareRecord_record (c : ByteArray) (accepted : ByteArray → Bool) :
    (agentWith c accepted).prepareRecord library (fun _ => .ok (certificateWith c accepted)) ""
      draw (some record) (some "record") (some "transfer") = .ok transport := by
  have htransfer : @transferIdOf (environmentWith c accepted) "" (some "transfer") =
      .ok "transfer" := transferId_ok
  have hrecord : boundedNewIdentifier (environmentWith c accepted).host "record id" 256
      (some "record") = .ok "record" := recordId_ok
  exact BlindDestinationAgent.prepareRecord_eq_ok hrecord htransfer
    (recipientKey_agentWith c accepted) (prepareAuthorizedRecord_record c accepted)

theorem receives_destination (c : ByteArray) (accepted : ByteArray → Bool) :
    destination.Receives library (agentWith c accepted) SampleRecipient.fields.publicKey
      SampleRecipient.start where
  tenant := by
    intro tenant h
    cases h
    rfl
  connector := by
    intro connector h
    cases h
    rfl
  plan := by
    intro digests h
    cases h
  recipient := ⟨[SampleRecipient.keyId], SampleRecipient.fields.publicKey, rfl,
    List.nodup_singleton _, List.mem_singleton_self _, rfl⟩
  trusted := by
    intro signer' h
    cases h
    exact ⟨sourceTrustStore, trustedKey, rfl, get_sourceTrustStore, rfl, rfl, rfl, rfl, rfl, rfl⟩

theorem fitsLimits_transport : transport.FitsLimits {} where
  fieldCount := by decide
  wireSize := Nat.le_trans wireBytes_transport (by decide)
  ciphertexts := by
    intro f hf
    cases List.mem_singleton.mp hf
    decide +kernel

end SampleAgents

end Polymorph
