import Polymorph.Transport.RecordWire

/-!
# Decoding the wire of a record

`fromWire` applied to what the loaders make of a record's canonical wire gives the record back, for
a source-signed record of the current protocol within the limits. The members of an object are
looked up by key, so the order of the loaded keys does not matter.
-/

set_option autoImplicit false

namespace Polymorph

open JsonText Utc

/-! ## Looking up the members of a wire object -/

/-- The members as a loader returns them: ordered keys. -/
def loaded (members : List (String × Json)) : List (String × Json) :=
  sortMembers (sortValues members)

theorem dictGet_loaded {members : List (String × Json)} (h : (members.map Prod.fst).Nodup)
    {key : String} {value : Json} (hmem : (key, value) ∈ members) :
    dictGet key (loaded members) = some (sortKeys value) := by
  rw [loaded, dictGet_sortMembers (decide_eq_true h), (dictGet_eq_some h).2 hmem, Option.map_some]

theorem dictGet_loaded_none {members : List (String × Json)} (h : (members.map Prod.fst).Nodup)
    {key : String} (hkey : key ∉ members.map Prod.fst) : dictGet key (loaded members) = none := by
  rw [loaded, dictGet_sortMembers (decide_eq_true h)]
  cases hget : dictGet key members with
  | none => rfl
  | some value => exact absurd (List.mem_map.2 ⟨_, (dictGet_eq_some h).1 hget, rfl⟩) hkey

theorem required_loaded {members : List (String × Json)} (h : (members.map Prod.fst).Nodup)
    {key text : String} (hmem : (key, .str text) ∈ members) :
    required (loaded members) key = .ok (.str text) := by
  rw [required, dictGet_loaded h hmem]
  rfl

/-! ## Contexts -/

theorem TransferContext.make_valid (c : TransferContext) :
    TransferContext.make c.toTransferContextFields = .ok c := by
  unfold TransferContext.make
  split
  · rfl
  · rename_i e he
    rw [c.valid] at he
    cases he

/-- Looking up an optional member of a context. -/
theorem dictGet_optional (c : TransferContextFields) {key : String} {value : Option String}
    (hmem : ∀ text, value = some text → (key, .str text) ∈ c.members)
    (hnone : value = none → key ∉ c.members.map Prod.fst) :
    dictGet key (loaded c.members) = value.map Json.str := by
  cases value with
  | none => exact dictGet_loaded_none (members_nodup c) (hnone rfl)
  | some text => exact dictGet_loaded (members_nodup c) (hmem text rfl)

theorem mem_optionalMember {key text : String} {value : Option String} (h : value = some text) :
    (key, Json.str text) ∈ optionalMember key value := by
  rw [h]
  exact List.mem_singleton.2 rfl

theorem notMem_optionalMember_none {key k : String} {value : Option String} (h : value = none) :
    key ∉ (optionalMember k value).map Prod.fst := by
  rw [h]
  exact List.not_mem_nil

theorem notMem_optionalMember_ne {key k : String} {value : Option String} (h : key ≠ k) :
    key ∉ (optionalMember k value).map Prod.fst := by
  cases value with
  | none => exact List.not_mem_nil
  | some text => exact fun hmem => h (List.mem_singleton.1 hmem)

/-- The keys that are always present. -/
theorem requiredMembers_keys (c : TransferContextFields) :
    c.requiredMembers.map Prod.fst = ["destination_connector", "field_id", "plan_digest",
      "plan_id", "protocol_version", "record_id", "schema_version", "source_connector", "tenant",
      "transfer_id"] := rfl

theorem dictGet_recipientKeyId (c : TransferContextFields) :
    dictGet "recipient_key_id" (loaded c.members) =
      (if c.recipientKeyId = "" then none else some c.recipientKeyId).map Json.str := by
  refine dictGet_optional c (fun text htext => ?_) fun hnone => ?_
  · exact List.mem_append_left _ (List.mem_append_left _ (List.mem_append_right _
      (mem_optionalMember htext)))
  · simp only [TransferContextFields.members, List.map_append, List.mem_append, not_or,
      requiredMembers_keys]
    exact ⟨⟨⟨by decide, notMem_optionalMember_none hnone⟩,
      notMem_optionalMember_ne (by decide)⟩, notMem_optionalMember_ne (by decide)⟩

theorem dictGet_issuedAt (c : TransferContextFields) :
    dictGet "issued_at" (loaded c.members) = (c.issuedAt.map Instant.isoformat).map Json.str := by
  refine dictGet_optional c (fun text htext => ?_) fun hnone => ?_
  · exact List.mem_append_left _ (List.mem_append_right _ (mem_optionalMember htext))
  · simp only [TransferContextFields.members, List.map_append, List.mem_append, not_or,
      requiredMembers_keys]
    exact ⟨⟨⟨by decide, notMem_optionalMember_ne (by decide)⟩,
      notMem_optionalMember_none hnone⟩, notMem_optionalMember_ne (by decide)⟩

theorem dictGet_expiresAt (c : TransferContextFields) :
    dictGet "expires_at" (loaded c.members) = (c.expiresAt.map Instant.isoformat).map Json.str := by
  refine dictGet_optional c (fun text htext => ?_) fun hnone => ?_
  · exact List.mem_append_right _ (mem_optionalMember htext)
  · simp only [TransferContextFields.members, List.map_append, List.mem_append, not_or,
      requiredMembers_keys]
    exact ⟨⟨⟨by decide, notMem_optionalMember_ne (by decide)⟩,
      notMem_optionalMember_ne (by decide)⟩, notMem_optionalMember_none hnone⟩

theorem isoformat_ne_empty (i : Instant) : i.isoformat ≠ "" := by
  intro h
  have hlist := congrArg String.toList h
  rw [Instant.isoformat, String.toList_ofList] at hlist
  simp at hlist

theorem parseTime_eq {H : Host} {payload : List (String × Json)} {name : String}
    {time : Option Instant}
    (hget : dictGet name payload = (time.map Instant.isoformat).map Json.str) :
    parseTime H payload name = .ok time := by
  cases time with
  | none =>
      rw [parseTime, hget]
      rfl
  | some i =>
      rw [parseTime, hget]
      simp only [Option.map_some]
      split
      · rename_i heq
        cases heq
      · rename_i heq
        cases heq
      · rename_i heq
        exact absurd (Json.str.inj (Option.some.inj heq)) (isoformat_ne_empty i)
      · rename_i heq
        cases heq
        simp only [Host.str, H.fromisoformat_isoformat]

/-- Decoding the wire of a context. -/
theorem TransferContext.fromWire_loaded {H : Host} (c : TransferContext) :
    TransferContext.fromWire H (loaded c.members) = .ok c := by
  have hmem : ∀ {key : String} {value : Json}, (key, value) ∈ c.requiredMembers →
      dictGet key (loaded c.members) = some (sortKeys value) := fun hmem =>
    dictGet_loaded (members_nodup _)
      (List.mem_append_left _ (List.mem_append_left _ (List.mem_append_left _ hmem)))
  have hrequired : ∀ {key text : String}, (key, .str text) ∈ c.requiredMembers →
      required (loaded c.members) key = .ok (.str text) := by
    intro key text htext
    rw [required, hmem htext]
    rfl
  have hversion : readVersion H (loaded c.members) "protocol_version"
      "authenticated protocol version is invalid" = .ok c.protocolVersion := by
    rw [readVersion, @hmem _ (.int c.protocolVersion)
      (by simp [TransferContextFields.requiredMembers])]
    rfl
  have hissued := parseTime_eq (H := H) (dictGet_issuedAt c.toTransferContextFields)
  have hexpires := parseTime_eq (H := H) (dictGet_expiresAt c.toTransferContextFields)
  have hplanId : dictGet "plan_id" (loaded c.members) = some (.str c.planId) :=
    @hmem _ (.str c.planId) (by simp [TransferContextFields.requiredMembers])
  have hplanDigest : dictGet "plan_digest" (loaded c.members) = some (.str c.planDigest) :=
    @hmem _ (.str c.planDigest) (by simp [TransferContextFields.requiredMembers])
  have hkey : H.str ((dictGet "recipient_key_id" (loaded c.members)).getD (.str "")) =
      c.recipientKeyId := by
    rw [dictGet_recipientKeyId]
    split
    · rename_i hempty
      exact hempty.symm
    · rfl
  unfold TransferContext.fromWire
  rw [hversion, hissued, hexpires, hplanId, hplanDigest, hkey,
    @hrequired "tenant" c.tenant
      (by simp [TransferContextFields.requiredMembers]),
    @hrequired "source_connector" c.sourceConnector
      (by simp [TransferContextFields.requiredMembers]),
    @hrequired "destination_connector" c.destinationConnector
      (by simp [TransferContextFields.requiredMembers]),
    @hrequired "field_id" c.fieldId
      (by simp [TransferContextFields.requiredMembers]),
    @hrequired "schema_version" c.schemaVersion
      (by simp [TransferContextFields.requiredMembers]),
    @hrequired "record_id" c.recordId
      (by simp [TransferContextFields.requiredMembers]),
    @hrequired "transfer_id" c.transferId
      (by simp [TransferContextFields.requiredMembers])]
  exact c.make_valid

/-! ## Envelopes and signatures -/

theorem OpaqueEnvelope.make_valid (e : OpaqueEnvelope) :
    OpaqueEnvelope.make e.toOpaqueEnvelopeFields = .ok e := by
  unfold OpaqueEnvelope.make
  split
  · rfl
  · rename_i x hx
    rw [e.valid] at hx
    cases hx

/-- Decoding an encoded byte string within its limit. -/
theorem b64Decode_b64Encode {bytes : List UInt8} {field : String} {maxBytes : Nat}
    (h : bytes.length ≤ maxBytes) : b64Decode (b64Encode bytes) field maxBytes = .ok bytes := by
  have hlength : (b64Encode bytes).length = (bytes.length + 2) / 3 * 4 := by
    rw [b64Encode, String.length_ofList, Base64.length_encode]
  have hbound : (bytes.length + 2) / 3 ≤ (maxBytes + 2) / 3 :=
    Nat.div_le_div_right (Nat.add_le_add_right h 2)
  have hsize : ¬(b64Encode bytes).length > (maxBytes + 2) / 3 * 4 + 8 := by
    rw [hlength]
    omega
  rw [b64Decode, if_neg hsize, b64Encode, String.toList_ofList, Base64.decode_encode]
  simp only [if_neg (Nat.not_lt.2 h)]

/-- The lengths a valid envelope has. -/
theorem OpaqueEnvelope.lengths (e : OpaqueEnvelope) :
    e.ephemeralPublicKey.length = 32 ∧ e.nonce.length = 12 := by
  have hvalid := e.valid
  unfold OpaqueEnvelopeFields.check at hvalid
  split at hvalid
  · cases hvalid
  · rename_i hepk
    split at hvalid
    · cases hvalid
    · rename_i hnonce
      exact ⟨not_not.1 hepk, not_not.1 hnonce⟩

/-- The members of an envelope in the order of their keys. -/
theorem loaded_envelope (a b c : String) :
    loaded [("epk", .str a), ("nonce", .str b), ("ciphertext", .str c)] =
      [("ciphertext", .str c), ("epk", .str a), ("nonce", .str b)] := by
  have h1 : ("epk" : String) ≤ "nonce" := by decide
  have h2 : ("nonce" : String) ≤ "ciphertext" ↔ False := by decide
  have h3 : ("epk" : String) ≤ "ciphertext" ↔ False := by decide
  simp [loaded, sortMembers, sortValues, sortKeys, List.insertionSort, List.orderedInsert, h1, h2,
    h3]

theorem OpaqueEnvelope.fromWire_loaded (e : OpaqueEnvelope) {maxCiphertextBytes : Nat}
    (hsize : e.ciphertext.length ≤ maxCiphertextBytes) :
    OpaqueEnvelope.fromWire [("ciphertext", b64Encode e.ciphertext),
      ("epk", b64Encode e.ephemeralPublicKey), ("nonce", b64Encode e.nonce)]
      maxCiphertextBytes = .ok e := by
  obtain ⟨hepk, hnonce⟩ := e.lengths
  have h1 := (@b64Decode_b64Encode _ "epk") (Nat.le_of_eq hepk)
  have h2 := (@b64Decode_b64Encode _ "nonce") (Nat.le_of_eq hnonce)
  have h3 := (@b64Decode_b64Encode _ "ciphertext") hsize
  unfold OpaqueEnvelope.fromWire
  simp only [requiredText, dictGet, List.find?_cons, String.reduceEq, decide_true, decide_false,
    Option.map_some]
  change (b64Decode (b64Encode e.ephemeralPublicKey) "epk" 32 >>= _) = _
  rw [h1]
  change (b64Decode (b64Encode e.nonce) "nonce" 12 >>= _) = _
  rw [h2]
  change (b64Decode (b64Encode e.ciphertext) "ciphertext" maxCiphertextBytes >>= _) = _
  rw [h3]
  exact e.make_valid

/-- Decoding the wire of a sealed field. -/
theorem SealedField.fromWire_loaded {H : Host} (f : SealedField) {limits : ProtocolLimits}
    (hsize : f.envelope.ciphertext.length ≤ limits.maxCiphertextBytesPerField) :
    SealedField.fromWire H (loaded f.members) limits = .ok f := by
  have hcontext : dictGet "context" (loaded f.members) = some (.obj (loaded f.context.members)) := by
    rw [dictGet_loaded f.members_nodup f.context_mem_members]
    rfl
  have henvelope : dictGet "envelope" (loaded f.members) =
      some (.obj [("ciphertext", .str (b64Encode f.envelope.ciphertext)),
        ("epk", .str (b64Encode f.envelope.ephemeralPublicKey)),
        ("nonce", .str (b64Encode f.envelope.nonce))]) := by
    rw [@dictGet_loaded _ f.members_nodup _ f.envelope.toWire
      (by simp [SealedField.members]), OpaqueEnvelope.toWire, sortKeys]
    exact congrArg (fun ms => some (Json.obj ms)) (loaded_envelope _ _ _)
  have htarget : required (loaded f.members) "target_field_id" = .ok (.str f.targetFieldId) :=
    required_loaded f.members_nodup (by simp [SealedField.members])
  unfold SealedField.fromWire
  rw [hcontext, henvelope]
  simp only [textMembers, Option.map_some, f.context.fromWire_loaded,
    f.envelope.fromWire_loaded hsize, htarget]
  rfl

theorem RecordAuthentication.make_valid (a : RecordAuthentication) :
    RecordAuthentication.make a.toRecordAuthenticationFields = .ok a := by
  unfold RecordAuthentication.make
  split
  · rfl
  · rename_i e he
    rw [a.valid] at he
    cases he

/-- The members of a source signature. -/
def RecordAuthentication.members (a : RecordAuthentication) : List (String × Json) :=
  [("algorithm", .str a.algorithm), ("key_id", .str a.keyId),
    ("signature", .str (b64Encode a.signature))]

theorem RecordAuthentication.fromWire_loaded {H : Host} (a : RecordAuthentication) :
    RecordAuthentication.fromWire H (loaded a.members) = .ok a := by
  have hnodup : (a.members.map Prod.fst).Nodup := by simp [RecordAuthentication.members]
  have hget : ∀ {key text : String}, (key, .str text) ∈ a.members →
      dictGet key (loaded a.members) = some (.str text) := fun hmem => dictGet_loaded hnodup hmem
  unfold RecordAuthentication.fromWire
  rw [@hget "signature" (b64Encode a.signature)
      (by simp [RecordAuthentication.members]),
    @hget "key_id" a.keyId (by simp [RecordAuthentication.members]),
    @hget "algorithm" a.algorithm (by simp [RecordAuthentication.members])]
  simp only [Host.str, b64Encode, String.toList_ofList, Base64.decode_encode]
  exact a.make_valid

/-! ## Records -/

namespace BlindTransportRecord

theorem make_valid (r : BlindTransportRecord) : make r.toRecordFields = .ok r := by
  unfold make
  split
  · rfl
  · rename_i e he
    rw [r.valid] at he
    cases he

/-- What the decoder's limits and policies ask of a record. -/
structure WithinLimits (H : Host) (limits : ProtocolLimits) (r : BlindTransportRecord) :
    Prop where
  version : r.protocolVersion = 3
  signed : r.authentication.isSome = true
  recipient : r.first.recipientKeyId ≠ ""
  policy : r.allowLegacyBlankRecipientKeyId = false
  fieldCount : r.fields.length ≤ limits.maxFieldsPerRecord
  wireSize : r.wireBytes ≤ limits.maxRecordWireBytes
  ciphertexts : ∀ f ∈ r.fields, f.envelope.ciphertext.length ≤ limits.maxCiphertextBytesPerField

theorem mapM_ok {α β γ : Type} {f : β → Except Exn γ} {g : α → β} {h : α → γ} {l : List α}
    (hf : ∀ a ∈ l, f (g a) = .ok (h a)) : (l.map g).mapM f = .ok (l.map h) := by
  induction l with
  | nil => rfl
  | cons a l ih =>
      have ha := hf a List.mem_cons_self
      have ih := ih fun a ha => hf a (List.mem_cons_of_mem _ ha)
      rw [List.map_cons, List.mapM_cons, ha, ih]
      rfl

theorem sortItems_eq_map (items : List Json) : sortItems items = items.map sortKeys := by
  induction items with
  | nil => rfl
  | cons x xs ih => rw [sortItems, ih, List.map_cons]

/-- The size limits of the decoder admit the record. -/
structure FitsLimits (limits : ProtocolLimits) (r : BlindTransportRecord) : Prop where
  fieldCount : r.fields.length ≤ limits.maxFieldsPerRecord
  wireSize : r.wireBytes ≤ limits.maxRecordWireBytes
  ciphertexts : ∀ f ∈ r.fields, f.envelope.ciphertext.length ≤ limits.maxCiphertextBytesPerField

theorem WithinLimits.fits {H : Host} {limits : ProtocolLimits} {r : BlindTransportRecord}
    (h : r.WithinLimits H limits) : r.FitsLimits limits :=
  ⟨h.fieldCount, h.wireSize, h.ciphertexts⟩

/-- The version of a record and its source authentication fit together for the decoder. -/
def AcceptedVersion (allowLegacyUnsigned : Bool) (r : BlindTransportRecord) : Prop :=
  r.protocolVersion = 3 ∧ r.authentication.isSome = true ∨
    r.protocolVersion = 2 ∧ r.authentication = none ∧ allowLegacyUnsigned = true

/-- The record with the policy the decoder derives. -/
def redecoded (r : BlindTransportRecord) (allowLegacyBlank : Bool) : RecordFields :=
  { r.toRecordFields with
    allowLegacyBlankRecipientKeyId :=
      r.protocolVersion = 3 && r.first.recipientKeyId = "" && allowLegacyBlank }

/-- A record made of the same record id and fields has the same first context. -/
theorem first_of_make {r r' : BlindTransportRecord} {fields : RecordFields}
    (h : make fields = .ok r') (hfields : fields.fields = r.fields) : r'.first = r.first := by
  have hsame : r'.fields = r.fields := by
    unfold make at h
    split at h
    · cases h
      exact hfields
    · cases h
  unfold first
  simp only [hsame]

/-- The last check of the decoder never fails on a record made of the fields of `r`. -/
theorem make_versionChecked {r : BlindTransportRecord} {fields : RecordFields} {e : Exn}
    (hfields : fields.fields = r.fields) :
    (make fields >>= fun record =>
      if record.protocolVersion ≠ r.protocolVersion then do
        throw e
        pure record
      else pure record) = make fields := by
  cases hmake : make fields with
  | error e => rfl
  | ok record =>
      have hversion : record.protocolVersion = r.protocolVersion := by
        rw [protocolVersion, protocolVersion, first_of_make hmake hfields]
      change (if record.protocolVersion ≠ r.protocolVersion then _ else _) = _
      rw [if_neg (not_not.2 hversion)]
      rfl

theorem authentication_loaded_signed {r : BlindTransportRecord} {a : RecordAuthentication}
    (h : r.authentication = some a) :
    dictGet "authentication" (loaded r.wireMembers) = some (.obj (loaded a.members)) := by
  rw [@dictGet_loaded _ r.wireMembers_nodup _ a.toWire
    (List.mem_append_right _ (by rw [h]; exact List.mem_singleton.2 rfl))]
  rfl

theorem authentication_loaded_unsigned {r : BlindTransportRecord} (h : r.authentication = none) :
    dictGet "authentication" (loaded r.wireMembers) = none := by
  apply dictGet_loaded_none r.wireMembers_nodup
  simp [wireMembers, h, contentMembers]

/-- Decoding the loaded canonical wire of a record makes the record anew. -/
theorem fromWire_loaded_eq {H : Host} {limits : ProtocolLimits} {allowLegacyUnsigned : Bool}
    (r : BlindTransportRecord) (hfits : r.FitsLimits limits)
    (haccepted : r.AcceptedVersion allowLegacyUnsigned) (allowLegacyBlank : Bool) :
    fromWire H limits allowLegacyUnsigned allowLegacyBlank (loaded r.wireMembers) =
      make (r.redecoded allowLegacyBlank) := by
  have hcontent : ∀ {key : String} {value : Json}, (key, value) ∈ r.contentMembers →
      dictGet key (loaded r.wireMembers) = some (sortKeys value) := fun hmem =>
    dictGet_loaded r.wireMembers_nodup (List.mem_append_left _ hmem)
  have hprotocol : dictGet "protocol" (loaded r.wireMembers) = some (.str "opaque-record") :=
    @hcontent _ (.str "opaque-record") (by simp [contentMembers])
  have hversion : readVersion H (loaded r.wireMembers) "version"
      "transport record version is invalid" = .ok r.protocolVersion := by
    rw [readVersion, hcontent r.version_mem_contentMembers]
    rfl
  have hfields : dictGet "fields" (loaded r.wireMembers) =
      some (.arr (r.fields.map fun f => sortKeys f.toWire)) := by
    rw [hcontent r.fields_mem_contentMembers, sortKeys, sortItems_eq_map, List.map_map]
    rfl
  have hdecode : (r.fields.map fun f => sortKeys f.toWire).mapM (fun item => do
      let members ← dictOfItem item
      SealedField.fromWire H members limits) = .ok r.fields := by
    have hmap := mapM_ok (g := fun f : SealedField => sortKeys f.toWire) (h := id)
      (f := fun item => do
        let members ← dictOfItem item
        SealedField.fromWire H members limits) (l := r.fields) fun f hf =>
      f.fromWire_loaded (hfits.ciphertexts f hf)
    rw [List.map_id] at hmap
    exact hmap
  have hrecordId : required (loaded r.wireMembers) "record_id" = .ok (.str r.recordId) := by
    rw [required, hcontent r.recordId_mem_contentMembers]
    rfl
  have hsize : ¬(dumps (.obj (loaded r.wireMembers))).utf8ByteSize >
      limits.maxRecordWireBytes := by
    have hwire : dumps (.obj (loaded r.wireMembers)) = r.canonicalWire := by
      rw [canonicalWire, canonical, toWire_eq, sortKeys]
      rfl
    rw [hwire]
    exact Nat.not_lt.2 hfits.wireSize
  have hknown : ¬(r.protocolVersion ≠ 2 ∧ r.protocolVersion ≠ 3) := by
    rintro ⟨h2, h3⟩
    exact haccepted.elim (fun h => h3 h.1) fun h => h2 h.1
  have hlegacy : ¬(r.protocolVersion = 2 ∧ allowLegacyUnsigned = false) := by
    rintro ⟨h2, hpolicy⟩
    rcases haccepted with ⟨h3, -⟩ | ⟨-, -, hallowed⟩
    · rw [h2] at h3
      cases h3
    · rw [hpolicy] at hallowed
      cases hallowed
  obtain ⟨f, fs, hfs⟩ := List.exists_cons_of_ne_nil r.fields_ne_nil
  have hfirst : r.first = f.context := by
    rw [first]
    simp only [hfs, List.head_cons]
  have hmap : r.fields.map (fun f => sortKeys f.toWire) =
      sortKeys f.toWire :: fs.map fun f => sortKeys f.toWire := by
    rw [hfs, List.map_cons]
  have hlength : ¬(sortKeys f.toWire :: fs.map fun f => sortKeys f.toWire).length >
      limits.maxFieldsPerRecord := by
    rw [← hmap, List.length_map]
    exact Nat.not_lt.2 hfits.fieldCount
  have hbind : ∀ {α β : Type} (a : α) (k : α → Except Exn β), (Except.ok a >>= k) = k a :=
    fun _ _ => rfl
  have hblank : (r.protocolVersion = 3 && (r.fields.head?.map fun f : SealedField =>
      f.context.recipientKeyId) = some "" && allowLegacyBlank) =
      (r.redecoded allowLegacyBlank).allowLegacyBlankRecipientKeyId := by
    simp [redecoded, hfirst, hfs]
  unfold fromWire
  rw [hmap] at hdecode hfields
  rw [hprotocol, hversion, hfields, hrecordId]
  simp only [hbind, pure_bind, if_neg hknown, if_neg hlegacy, if_neg hlength, if_neg hsize,
    hdecode]
  have hmade := (@make_versionChecked r (r.redecoded allowLegacyBlank)) rfl
    (e := .protocolError "outer record version does not match authenticated field context")
  rcases haccepted with ⟨hthree, hsigned⟩ | ⟨htwo, hunsigned, -⟩
  · obtain ⟨a, ha⟩ := Option.isSome_iff_exists.1 hsigned
    have hsame : r.redecoded allowLegacyBlank =
        { recordId := r.recordId, fields := r.fields, authentication := some a
          allowLegacyBlankRecipientKeyId := r.protocolVersion = 3 && (r.fields.head?.map
            fun f : SealedField => f.context.recipientKeyId) = some "" && allowLegacyBlank } := by
      rw [hblank, ← ha]
      rfl
    rw [← hmade, hsame, authentication_loaded_signed ha, hthree]
    simp only [Option.getD_some, a.fromWire_loaded]
    rfl
  · have hsame : r.redecoded allowLegacyBlank =
        { recordId := r.recordId, fields := r.fields, authentication := none
          allowLegacyBlankRecipientKeyId := r.protocolVersion = 3 && (r.fields.head?.map
            fun f : SealedField => f.context.recipientKeyId) = some "" && allowLegacyBlank } := by
      rw [hblank, ← hunsigned]
      rfl
    rw [← hmade, hsame, authentication_loaded_unsigned hunsigned, htwo]
    rfl

/-- **Round trip.** The loaded canonical wire of a record decodes to the record. -/
theorem fromWire_loaded {H : Host} {limits : ProtocolLimits} (r : BlindTransportRecord)
    (hr : r.WithinLimits H limits) (allowLegacyUnsigned allowLegacyBlank : Bool) :
    fromWire H limits allowLegacyUnsigned allowLegacyBlank (loaded r.wireMembers) = .ok r := by
  rw [r.fromWire_loaded_eq hr.fits (.inl ⟨hr.version, hr.signed⟩)]
  have hsame : r.redecoded allowLegacyBlank = r.toRecordFields := by
    rw [redecoded, decide_eq_false hr.recipient, Bool.and_false, Bool.false_and, ← hr.policy]
  rw [hsame]
  exact r.make_valid

end BlindTransportRecord

end Polymorph
