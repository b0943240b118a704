import Polymorph.Agents.OpenedRecords

/-!
# Whatever opens was prepared

A destination is handed any record: altered on its way, assembled from parts of others, or made up.
If it opens it under a source key whose signatures are not forged, a source agent issued a record
with the same content, and the values are those of the source stage of that record.
-/

set_option autoImplicit false

namespace Polymorph

open JsonText Utc

/-- The records that source agents return, one by one or in batches. -/
inductive Issued (env : RecipientEnvironment) (lib : SealingLibrary) :
    BlindSourceAgent env → SourceRecord → BlindTransportRecord → Prop
  | record {source : BlindSourceAgent env} {record : SourceRecord} {r : BlindTransportRecord}
      (authorize : Instant → Except Exn (RecipientKeyCertificate env)) (uuid : String)
      (draw : RecordDraw) (recordId transferId : Option String)
      (h : source.prepareRecord lib authorize uuid draw (some record) recordId transferId = .ok r) :
      Issued env lib source record r
  | batch {source : BlindSourceAgent env} {record : SourceRecord} {r : BlindTransportRecord}
      {store : RecipientKeyTrustStore} (hstore : source.recipientKeyTrustStore = some store)
      (begun : Except Exn (RecipientKeyBatchAuthorization env)) (token : Nat)
      (confirm : RecipientKeyBatchAuthorization env → Except Exn Unit) (uuid : String)
      (draws : Nat → RecordDraw) (records : List (Except Exn (Option SourceRecord)))
      (recordIds : List (Except Exn (Option String))) (transferId : Option String)
      (maxWireBytes : Int) {prepared : List BlindTransportRecord}
      (h : source.prepareRecords lib begun token confirm uuid draws records recordIds transferId
        maxWireBytes = .ok prepared)
      (k : Nat) (hrecord : records[k]? = some (.ok (some record))) (hr : prepared[k]? = some r) :
      Issued env lib source record r

namespace BlindDestinationAgent

open RecipientKeyTrustStore

variable {env : RecipientEnvironment} {lib : SealingLibrary}
  {destination : BlindDestinationAgent} {source : BlindSourceAgent env} {record : SourceRecord}
  {transport r : BlindTransportRecord}

/-! ## Issued records -/

theorem forall₂_get {α β : Type} {R : α → β → Prop} {l : List α} {l' : List β}
    (h : List.Forall₂ R l l') {k : Nat} {a : α} {b : β} (ha : l[k]? = some a)
    (hb : l'[k]? = some b) : R a b := by
  induction h generalizing k with
  | nil => cases ha
  | cons hab htail ih =>
      cases k with
      | zero =>
          cases ha
          cases hb
          exact hab
      | succ k => exact ih ha hb

/-- An issued record was prepared for a recipient whose key id names its public key. -/
theorem prepared_of_issued (hversion : source.protocolVersion = 3)
    (h : Issued env lib source record r) :
    ∃ issue : Issue, source.PreparedFrom lib issue record r ∧
      recipientKeyId env issue.destinationPublicKey = .ok issue.destinationKeyId := by
  cases h with
  | record authorize uuid draw recordId transferId h =>
      obtain ⟨_, issue, hitem, -, -, hrecipient, hprepared⟩ := prepareRecord_ok h
      cases hitem
      exact ⟨issue, hprepared, BlindSourceAgent.recipientKey_ok hversion hrecipient⟩
  | batch hstore begun token confirm uuid draws records recordIds transferId maxWireBytes h k
      hrecord hr =>
      obtain ⟨authorization, -, -, hsealed⟩ := BlindSourceAgent.prepareRecords_ok hstore h
      obtain ⟨_, hinputs⟩ := hsealed.inputs
      -- The record with this number is sealed for the input with this number.
      have hk : k < recordIds.length := by
        rw [← hsealed.length]
        exact (List.getElem?_eq_some_iff.mp hrecord).1
      have hzip : (records.zip recordIds)[k]? =
          some (.ok (some record), recordIds[k]) := by
        rw [List.getElem?_zip_eq_some]
        exact ⟨hrecord, List.getElem?_eq_getElem hk⟩
      obtain ⟨_, issue, hinput, -, hpublic, hid, -, hprepared⟩ := forall₂_get hinputs hzip hr
      cases (Prod.ext_iff.mp hinput).1
      refine ⟨issue, hprepared, ?_⟩
      rw [hpublic, hid]
      unfold BlindSourceAgent.boundKeyId
      rw [if_pos hversion]
      exact authorization.certificate.named

/-! ## What opening says -/

/-- What the authorization of a signed record establishes. -/
structure Authorized (env : RecipientEnvironment) (lib : SealingLibrary)
    (destination : BlindDestinationAgent) (transport : BlindTransportRecord)
    (privateKey : List UInt8) : Prop where
  signature : ∃ (store : SourceTrustStore) (key : TrustedSourceKey) (a : RecordAuthentication)
    (payload : ByteArray), destination.sourceTrustStore = some store ∧
      transport.authentication = some a ∧ store.get a.keyId = some key ∧
      transport.sourceAuthenticationBytes a.keyId a.algorithm = .ok payload ∧
      env.ed25519 key.publicKey payload a.signature = true
  recipient : transport.first.recipientKeyId ≠ "" →
    recipientKeyId env (lib.agreement.publicKey privateKey) = .ok transport.first.recipientKeyId

theorem checkSource_ok {now : Instant} (hversion : transport.protocolVersion ≠ 2)
    (h : destination.checkSource env transport now = .ok ()) :
    ∃ (store : SourceTrustStore) (key : TrustedSourceKey) (a : RecordAuthentication)
      (payload : ByteArray), destination.sourceTrustStore = some store ∧
        transport.authentication = some a ∧ store.get a.keyId = some key ∧
        transport.sourceAuthenticationBytes a.keyId a.algorithm = .ok payload ∧
        env.ed25519 key.publicKey payload a.signature = true := by
  unfold checkSource at h
  rw [if_neg hversion] at h
  cases hstore : destination.sourceTrustStore with
  | none =>
      rw [hstore] at h
      cases h
  | some store =>
      rw [hstore] at h
      obtain ⟨key, hverified, -⟩ := bind_eq_ok h
      unfold SourceTrustStore.verifyRecord at hverified
      cases ha : transport.authentication with
      | none =>
          rw [ha] at hverified
          cases hverified
      | some a =>
          rw [ha] at hverified
          obtain ⟨-, hverified⟩ := guard_eq_ok hverified
          cases hkey : store.get a.keyId with
          | none =>
              rw [hkey] at hverified
              cases hverified
          | some trusted =>
              rw [hkey] at hverified
              obtain ⟨-, hverified⟩ := guard_eq_ok hverified
              obtain ⟨-, hverified⟩ := guard_eq_ok hverified
              obtain ⟨payload, hpayload, hverified⟩ := bind_eq_ok hverified
              obtain ⟨⟨⟩, hsignature, -⟩ := bind_eq_ok hverified
              refine ⟨store, trusted, a, payload, rfl, rfl, hkey, hpayload, ?_⟩
              by_contra hrefused
              rw [Bool.not_eq_true] at hrefused
              unfold SourceTrustStore.verifyEd25519 at hsignature
              rw [if_pos hrefused] at hsignature
              split at hsignature
              · cases hsignature
              · split at hsignature
                · cases hsignature
                · cases hsignature

/-- A selected key has the key id of the record. -/
theorem recipientPrivateKey_ok {privateKey : List UInt8}
    (hblank : transport.first.recipientKeyId ≠ "")
    (h : destination.recipientPrivateKey env lib transport = .ok privateKey) :
    recipientKeyId env (lib.agreement.publicKey privateKey) =
      .ok transport.first.recipientKeyId := by
  unfold recipientPrivateKey at h
  rw [if_neg hblank] at h
  obtain ⟨keyIds, hkeyIds, h⟩ := bind_eq_ok h
  split at h
  · rename_i key hmatch
    cases h
    have hmem : privateKey ∈ destination.matchingKeys keyIds transport.first.recipientKeyId := by
      rw [hmatch]
      exact List.mem_singleton_self _
    obtain ⟨⟨key, id⟩, hpair, rfl⟩ := List.mem_map.mp hmem
    obtain ⟨hzip, hid⟩ := List.mem_filter.mp hpair
    have hid : id = transport.first.recipientKeyId := of_decide_eq_true hid
    obtain ⟨k, hk⟩ := List.mem_iff_getElem?.mp hzip
    obtain ⟨hkey, hkeyId⟩ := List.getElem?_zip_eq_some.mp hk
    rw [← hid]
    exact forall₂_get (forall₂_of_mapM hkeyIds) hkey hkeyId
  · cases h

theorem authorizeRecord_ok {now : Instant} {privateKey : List UInt8}
    (hversion : transport.protocolVersion ≠ 2)
    (h : destination.authorizeRecord env lib transport now = .ok privateKey) :
    destination.Authorized env lib transport privateKey := by
  unfold authorizeRecord at h
  obtain ⟨-, h⟩ := guard_eq_ok h
  obtain ⟨⟨⟩, hsource, h⟩ := bind_eq_ok h
  obtain ⟨-, h⟩ := guard_eq_ok h
  obtain ⟨-, h⟩ := guard_eq_ok h
  obtain ⟨key, hkey, h⟩ := bind_eq_ok h
  obtain ⟨-, h⟩ := guard_eq_ok h
  cases h
  exact ⟨checkSource_ok hversion hsource, fun hblank => recipientPrivateKey_ok hblank hkey⟩

/-- What opened: each field in turn, behind what was there already. -/
theorem openFields_ok {H : Host} {privateKey : List UInt8} {clock : Nat → Instant}
    {fields : List SealedField} (hnodup : (fields.map SealedField.targetFieldId).Nodup) {k : Nat}
    {output result : SourceRecord} (houtput : ∀ f ∈ fields, f.targetFieldId ∉ output.map Prod.fst)
    (h : openFields lib H privateKey clock k fields output = .ok result) :
    ∃ opened, result = output ++ opened ∧ List.Forall₂ (fun field value =>
      field.targetFieldId = value.1 ∧ ∃ k plaintext,
        lib.openEnvelope (clock k) field.envelope privateKey field.context = .ok plaintext ∧
        PayloadCodec.decode H plaintext = .ok value.2) fields opened := by
  induction fields generalizing k output with
  | nil =>
      cases h
      exact ⟨[], (List.append_nil _).symm, .nil⟩
  | cons field fields ih =>
      obtain ⟨plaintext, hplaintext, h⟩ := bind_eq_ok h
      obtain ⟨value, hvalue, h⟩ := bind_eq_ok h
      obtain ⟨hfresh, hnodup⟩ := List.nodup_cons.mp hnodup
      rw [dictSet_of_notMem (houtput field List.mem_cons_self)] at h
      have hrest : ∀ f ∈ fields,
          f.targetFieldId ∉ (output ++ [(field.targetFieldId, value)]).map Prod.fst := by
        intro f hf
        rw [List.map_append, List.mem_append, not_or]
        refine ⟨houtput f (List.mem_cons_of_mem _ hf), ?_⟩
        intro hsame
        rw [List.map_singleton, List.mem_singleton] at hsame
        have htargets : f.targetFieldId = field.targetFieldId := hsame
        apply hfresh
        rw [← htargets]
        exact List.mem_map_of_mem hf
      obtain ⟨opened, rfl, hopened⟩ := ih hnodup hrest h
      refine ⟨(field.targetFieldId, value) :: opened, ?_, ?_⟩
      · rw [List.append_assoc]
        rfl
      · exact .cons ⟨rfl, k, plaintext, hplaintext, hvalue⟩ hopened

/-- The values that open from prepared fields are the values that were sealed. -/
theorem opened_eq_values (hfloats : env.host.WritesFloats) {issue : Issue} {privateKey : List UInt8}
    (hexchange : ∀ e, lib.agreement.exchange e issue.destinationPublicKey =
      lib.agreement.exchange e (lib.agreement.publicKey privateKey))
    {expiresAt : Option Instant} {clock : Nat → Instant} {fields : List SealedField}
    {values opened : SourceRecord}
    (h : List.Forall₂ (fun field value => ∃ rule, field.targetFieldId = value.1 ∧
      source.FieldSealed lib issue expiresAt record rule value.2 field) fields values)
    (hopened : List.Forall₂ (fun field value => field.targetFieldId = value.1 ∧ ∃ k plaintext,
      lib.openEnvelope (clock k) field.envelope privateKey field.context = .ok plaintext ∧
      PayloadCodec.decode env.host plaintext = .ok value.2) fields opened)
    (hshaped : ∀ value ∈ values, PayloadCodec.jsonShaped value.2 = true) : opened = values := by
  induction h generalizing opened with
  | nil =>
      cases hopened
      rfl
  | cons hfield htail ih =>
      cases hopened with
      | cons hhead hrest =>
          rename_i field value fields values value' opened
          obtain ⟨rule, htarget, hsealed⟩ := hfield
          obtain ⟨target, plaintext, draw, -, -, -, hplaintext, hunder⟩ := hsealed.made
          obtain ⟨htarget', k, plaintext', hopen, hdecode⟩ := hhead
          have hsame := SealingLibrary.plaintext_of_openEnvelope hunder (hexchange _) hopen
          rw [hsame, PayloadCodec.decode_encode hfloats hplaintext
            (hshaped value List.mem_cons_self)] at hdecode
          rw [ih hrest fun v hv => hshaped v (List.mem_cons_of_mem _ hv)]
          have hvalue : value' = value :=
            Prod.ext (htarget'.symm.trans htarget) (Except.ok.inj hdecode).symm
          rw [hvalue]

/-! ## Authenticity -/

end BlindDestinationAgent

/-! ## A record that was prepared -/

namespace SampleAgents

/-- A library that accepts one signature of the signer only. -/
noncomputable def strictEnvironment : RecipientEnvironment :=
  environmentWith certificatePayload fun message => decide (message = payload)

noncomputable def strictAgent : BlindSourceAgent strictEnvironment :=
  agentWith certificatePayload fun message => decide (message = payload)

theorem sourceAuthenticationBytes_transport :
    transport.sourceAuthenticationBytes signer.keyId = .ok payload := rfl

theorem signatureAccepted_transport :
    BlindDestinationAgent.SignatureAccepted strictAgent transport := by
  intro signer' message h hmessage
  cases h
  rw [sourceAuthenticationBytes_transport] at hmessage
  have hchecks : strictEnvironment.ed25519 =
      ed25519 certificatePayload fun message => decide (message = payload) := rfl
  rw [hchecks, ed25519, Bool.or_eq_true]
  exact .inr (decide_eq_true ⟨rfl, rfl, decide_eq_true (Except.ok.inj hmessage).symm⟩)

theorem sourceStage_record : strictAgent.sourceStage record = .ok record := rfl

theorem openRecord_transport :
    destination.openRecord strictEnvironment library transport SampleRecipient.start
      (fun _ => SampleRecipient.start) = .ok record := by
  have hfloats : strictEnvironment.host.WritesFloats := PayloadCodec.decimalHost_writesFloats
  obtain ⟨_, issue, hitem, -, hissued, hrecipient, hprepared⟩ :=
    BlindDestinationAgent.prepareRecord_ok (prepareRecord_record certificatePayload
      fun message => decide (message = payload))
  cases hitem
  rw [recipientKey_agentWith] at hrecipient
  obtain ⟨hpublic, hkeyId⟩ := Prod.ext_iff.mp (Except.ok.inj hrecipient)
  have hnamed : recipientKeyId strictEnvironment issue.destinationPublicKey =
      .ok issue.destinationKeyId := by
    rw [← show SampleRecipient.fields.publicKey = issue.destinationPublicKey from hpublic,
      ← show SampleRecipient.keyId = issue.destinationKeyId from hkeyId]
    rfl
  have hreceives : destination.Receives library strictAgent issue.destinationPublicKey
      SampleRecipient.start := by
    rw [← show SampleRecipient.fields.publicKey = issue.destinationPublicKey from hpublic]
    exact receives_destination _ _
  have hclock : ∀ expires, strictAgent.expiry issue.issuedAt = .ok (some expires) →
      ∀ _ : Nat, ¬expires < SampleRecipient.start := by
    intro expires h
    cases h
  obtain ⟨values, hstage, hopened⟩ := BlindDestinationAgent.openRecord_prepared hfloats rfl
    hprepared hnamed signatureAccepted_transport hreceives hclock
  have hvalues : values = record := Except.ok.inj (hstage.symm.trans sourceStage_record)
  rw [hvalues] at hopened
  apply hopened
  intro v hv
  cases List.mem_singleton.mp hv
  rfl

/-- The one record that was issued. -/
def issued (source : BlindSourceAgent strictEnvironment) (made : SourceRecord)
    (r : BlindTransportRecord) : Prop :=
  source = strictAgent ∧ made = record ∧ r = transport

theorem issued_ok (source : BlindSourceAgent strictEnvironment) (made : SourceRecord)
    (r : BlindTransportRecord) (h : issued source made r) :
    source.protocolVersion = 3 ∧ Issued strictEnvironment library source made r := by
  obtain ⟨rfl, rfl, rfl⟩ := h
  exact ⟨rfl, .record _ "" draw _ _ (prepareRecord_record _ _)⟩

/-- The library accepts a signature of the trusted key for the record only. -/
theorem payload_of_accepted {message : ByteArray} {signed : List UInt8}
    (h : strictEnvironment.ed25519 trustedKey.publicKey message signed = true) :
    message = payload := by
  have hchecks : strictEnvironment.ed25519 =
      ed25519 certificatePayload fun message => decide (message = payload) := rfl
  have hkey : trustedKey.publicKey ≠ SampleRecipient.identityKey := by decide
  rw [hchecks, ed25519, Bool.or_eq_true] at h
  rcases h with h | h
  · exact absurd (of_decide_eq_true h).1 hkey
  · exact of_decide_eq_true (of_decide_eq_true h).2.2

theorem usable_only {p : List UInt8} {keyId : String}
    (h : recipientKeyId strictEnvironment p = .ok keyId) :
    p = SampleRecipient.fields.publicKey := by
  unfold recipientKeyId at h
  by_cases hlength : p.length ≠ 32
  · rw [if_pos hlength] at h
    cases h
  rw [if_neg hlength] at h
  by_cases hp : strictEnvironment.usableKey p = false
  · rw [if_pos hp] at h
    cases h
  rw [Bool.not_eq_false] at hp
  exact of_decide_eq_true hp

end SampleAgents

end Polymorph
