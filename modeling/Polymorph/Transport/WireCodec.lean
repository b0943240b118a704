import Polymorph.Transport.RoundTrip

/-!
# The wire codec of records

Encoding a source-signed record and decoding it again gives its content back. Whatever object the
decoder accepts, the record it returns is a fixed point: its own canonical wire decodes to it under
the same policies, size limits aside.
-/

set_option autoImplicit false

namespace Polymorph

open JsonText

namespace BlindTransportRecord

variable {H : Host} {limits : ProtocolLimits} {allowLegacyUnsigned allowLegacyBlank : Bool}

theorem make_ok {fields : RecordFields} {r : BlindTransportRecord} (h : make fields = .ok r) :
    r.toRecordFields = fields := by
  unfold make at h
  split at h
  · cases h
    rfl
  · cases h

/-! ## What the decoder accepts -/

/-- The decoder read a signed record of the current version, or an unsigned legacy one. -/
def AuthenticationRead (H : Host) (allowLegacyUnsigned : Bool) (payload : List (String × Json))
    (r : BlindTransportRecord) : Prop :=
  r.protocolVersion = 3 ∧ (∃ members a, dictGet "authentication" payload = some (.obj members) ∧
      RecordAuthentication.fromWire H members = .ok a ∧ r.authentication = some a) ∨
    r.protocolVersion = 2 ∧ r.authentication = none ∧ allowLegacyUnsigned = true ∧
      (dictGet "authentication" payload).getD .null = .null

/-- What the decoder found in the object it returned a record for. -/
structure Decoded (H : Host) (limits : ProtocolLimits) (allowLegacyUnsigned allowLegacyBlank : Bool)
    (payload : List (String × Json)) (r : BlindTransportRecord) : Prop where
  version : readVersion H payload "version" "transport record version is invalid" =
    .ok r.protocolVersion
  fields : ∃ rawFields, dictGet "fields" payload = some (.arr rawFields) ∧
    rawFields.length ≤ limits.maxFieldsPerRecord ∧
    rawFields.mapM (fun item => do
      let members ← dictOfItem item
      SealedField.fromWire H members limits) = .ok r.fields
  size : (dumps (.obj payload)).utf8ByteSize ≤ limits.maxRecordWireBytes
  authentication : AuthenticationRead H allowLegacyUnsigned payload r
  policy : r.redecoded allowLegacyBlank = r.toRecordFields

theorem Decoded.acceptedVersion {payload : List (String × Json)} {r : BlindTransportRecord}
    (h : Decoded H limits allowLegacyUnsigned allowLegacyBlank payload r) :
    r.AcceptedVersion allowLegacyUnsigned := by
  rcases h.authentication with ⟨hversion, members, a, -, -, ha⟩ | ⟨hversion, hnone, hallowed, -⟩
  · exact .inl ⟨hversion, by rw [ha]; rfl⟩
  · exact .inr ⟨hversion, hnone, hallowed⟩

/-- The last steps of the decoder, once fields and authentication are read. -/
theorem made_of_ok {payload : List (String × Json)} {fields : List SealedField}
    {authentication : Option RecordAuthentication} {version : Int} {r : BlindTransportRecord}
    (h : (do
      let recordId ← required payload "record_id"
      let record ← make
        { recordId := H.str recordId, fields := fields, authentication := authentication
          allowLegacyBlankRecipientKeyId := version = 3 &&
            (fields.head?.map fun f => f.context.recipientKeyId) = some "" && allowLegacyBlank }
      if record.protocolVersion ≠ version then do
        throw (.protocolError "outer record version does not match authenticated field context")
        pure record
      else pure record) = Except.ok r) :
    r.protocolVersion = version ∧ r.fields = fields ∧ r.authentication = authentication ∧
      r.redecoded allowLegacyBlank = r.toRecordFields := by
  obtain ⟨recordId, -, h⟩ := bind_eq_ok h
  obtain ⟨record, hmake, h⟩ := bind_eq_ok h
  obtain ⟨hversion, h⟩ := guard_eq_ok h
  obtain rfl : record = r := Except.ok.inj h
  have hfields := make_ok hmake
  have hsame : record.fields = fields := congrArg RecordFields.fields hfields
  have hblank : record.allowLegacyBlankRecipientKeyId = (version = 3 &&
      (fields.head?.map fun f => f.context.recipientKeyId) = some "" && allowLegacyBlank) :=
    congrArg RecordFields.allowLegacyBlankRecipientKeyId hfields
  refine ⟨not_not.1 hversion, hsame, congrArg RecordFields.authentication hfields, ?_⟩
  obtain ⟨f, fs, hfs⟩ := List.exists_cons_of_ne_nil record.fields_ne_nil
  have hfirst : record.first = f.context := by
    rw [first]
    simp only [hfs, List.head_cons]
  have hflag : (record.protocolVersion = 3 && record.first.recipientKeyId = "" &&
      allowLegacyBlank) = record.allowLegacyBlankRecipientKeyId := by
    rw [hblank, not_not.1 hversion, hfirst, ← hsame, hfs]
    simp
  rw [redecoded, hflag]

theorem fromWire_ok {payload : List (String × Json)} {r : BlindTransportRecord}
    (h : fromWire H limits allowLegacyUnsigned allowLegacyBlank payload = .ok r) :
    Decoded H limits allowLegacyUnsigned allowLegacyBlank payload r := by
  unfold fromWire at h
  dsimp only at h
  split at h
  · obtain ⟨version, hversion, h⟩ := bind_eq_ok h
    obtain ⟨hknown, h⟩ := guard_eq_ok h
    obtain ⟨hlegacy, h⟩ := guard_eq_ok h
    split at h
    · rename_i item rest hfields
      obtain ⟨rawFields, hraw, h⟩ := bind_eq_ok h
      obtain rfl := Except.ok.inj hraw
      obtain ⟨hcount, h⟩ := guard_eq_ok h
      obtain ⟨hsize, h⟩ := guard_eq_ok h
      obtain ⟨fields, hdecode, h⟩ := bind_eq_ok h
      -- The checks before the authentication give the same facts for both versions.
      have hdecoded : r.protocolVersion = version → r.fields = fields →
          AuthenticationRead H allowLegacyUnsigned payload r →
          r.redecoded allowLegacyBlank = r.toRecordFields →
          Decoded H limits allowLegacyUnsigned allowLegacyBlank payload r := by
        rintro rfl rfl hauthentication hpolicy
        exact ⟨hversion, ⟨_, hfields, Nat.le_of_not_lt hcount, hdecode⟩, Nat.le_of_not_lt hsize,
          hauthentication, hpolicy⟩
      by_cases hthree : version = 3
      · -- The current version carries an authentication object.
        subst hthree
        cases hmember : (dictGet "authentication" payload).getD .null with
        | obj members =>
            rw [hmember] at h
            obtain ⟨authentication, hauthentication, h⟩ := bind_eq_ok h
            obtain ⟨hmade, hsame, hsigned, hpolicy⟩ := made_of_ok h
            have hget : dictGet "authentication" payload = some (.obj members) := by
              cases hoption : dictGet "authentication" payload with
              | none =>
                  rw [hoption] at hmember
                  cases hmember
              | some value =>
                  rw [hoption] at hmember
                  exact congrArg some hmember
            cases hread : RecordAuthentication.fromWire H members with
            | error e =>
                rw [hread] at hauthentication
                cases hauthentication
            | ok a =>
                rw [hread] at hauthentication
                obtain rfl := Except.ok.inj hauthentication
                exact hdecoded hmade hsame (.inl ⟨hmade, members, a, hget, hread, hsigned⟩) hpolicy
        | _ =>
            rw [hmember] at h
            cases h
      · -- The legacy version carries none.
        have htwo : version = 2 := by
          by_contra hne
          exact hknown ⟨hne, hthree⟩
        subst htwo
        have hallowed : allowLegacyUnsigned = true := by
          by_contra hne
          exact hlegacy ⟨rfl, Bool.eq_false_iff.2 hne⟩
        cases hmember : (dictGet "authentication" payload).getD .null with
        | null =>
            rw [hmember] at h
            obtain ⟨authentication, hauthentication, h⟩ := bind_eq_ok h
            obtain rfl := Except.ok.inj hauthentication
            obtain ⟨hmade, hsame, hunsigned, hpolicy⟩ := made_of_ok h
            exact hdecoded hmade hsame (.inr ⟨hmade, hunsigned, hallowed, hmember⟩) hpolicy
        | _ =>
            rw [hmember] at h
            cases h
    · cases h
  · cases h

/-! ## Decoding the own wire -/

theorem b64Decode_length {bytes decoded : List UInt8} {field : String} {maxBytes : Nat}
    (h : b64Decode (b64Encode bytes) field maxBytes = .ok decoded) : bytes.length ≤ maxBytes := by
  unfold b64Decode at h
  rw [b64Encode, String.toList_ofList, Base64.decode_encode] at h
  split at h
  · cases h
  · dsimp only at h
    split at h
    · cases h
    · rename_i hsize
      exact Nat.le_of_not_lt hsize

/-- A field that decodes from its own wire fits the limit on ciphertexts. -/
theorem ciphertext_fits {f g : SealedField}
    (h : SealedField.fromWire H (loaded f.members) limits = .ok g) :
    f.envelope.ciphertext.length ≤ limits.maxCiphertextBytesPerField := by
  have hcontext : dictGet "context" (loaded f.members) =
      some (.obj (loaded f.context.members)) := by
    rw [dictGet_loaded f.members_nodup f.context_mem_members]
    rfl
  have henvelope : dictGet "envelope" (loaded f.members) =
      some (.obj [("ciphertext", .str (b64Encode f.envelope.ciphertext)),
        ("epk", .str (b64Encode f.envelope.ephemeralPublicKey)),
        ("nonce", .str (b64Encode f.envelope.nonce))]) := by
    rw [@dictGet_loaded _ f.members_nodup _ f.envelope.toWire
      (by simp [SealedField.members]), OpaqueEnvelope.toWire, sortKeys]
    exact congrArg (fun ms => some (Json.obj ms)) (loaded_envelope _ _ _)
  unfold SealedField.fromWire at h
  rw [hcontext, henvelope] at h
  simp only [textMembers, Option.map_some] at h
  obtain ⟨context, -, h⟩ := bind_eq_ok h
  obtain ⟨envelope, henvelope, -⟩ := bind_eq_ok h
  unfold OpaqueEnvelope.fromWire at henvelope
  obtain ⟨epk, -, henvelope⟩ := bind_eq_ok henvelope
  obtain ⟨epk', -, henvelope⟩ := bind_eq_ok henvelope
  obtain ⟨nonce, -, henvelope⟩ := bind_eq_ok henvelope
  obtain ⟨nonce', -, henvelope⟩ := bind_eq_ok henvelope
  obtain ⟨ciphertext, hget, henvelope⟩ := bind_eq_ok henvelope
  obtain ⟨ciphertext', hdecode, -⟩ := bind_eq_ok henvelope
  obtain rfl : b64Encode f.envelope.ciphertext = ciphertext := Except.ok.inj hget
  exact b64Decode_length hdecode

/-- What the decoder accepted a record's own wire for. -/
theorem fits_of_decoded {r r' : BlindTransportRecord}
    (h : Decoded H limits allowLegacyUnsigned allowLegacyBlank (loaded r.wireMembers) r') :
    r.FitsLimits limits ∧ r.AcceptedVersion allowLegacyUnsigned := by
  have hcontent : ∀ {key : String} {value : Json}, (key, value) ∈ r.contentMembers →
      dictGet key (loaded r.wireMembers) = some (sortKeys value) := fun hmem =>
    dictGet_loaded r.wireMembers_nodup (List.mem_append_left _ hmem)
  obtain ⟨rawFields, hraw, hcount, hdecode⟩ := h.fields
  have hown : rawFields = r.fields.map fun f => sortKeys f.toWire := by
    rw [hcontent r.fields_mem_contentMembers, sortKeys, sortItems_eq_map, List.map_map] at hraw
    exact (Json.arr.inj (Option.some.inj hraw)).symm
  subst hown
  have hwire : dumps (.obj (loaded r.wireMembers)) = r.canonicalWire := by
    rw [canonicalWire, canonical, toWire_eq, sortKeys]
    rfl
  have hversion : r'.protocolVersion = r.protocolVersion := by
    have hread := h.version
    rw [readVersion, hcontent r.version_mem_contentMembers] at hread
    exact (Except.ok.inj hread).symm
  refine ⟨⟨by simpa using hcount, by simpa [wireBytes, hwire] using h.size, ?_⟩, ?_⟩
  · intro f hf
    obtain ⟨g, -, hg⟩ := forall₂_partner (forall₂_of_mapM hdecode)
      (List.mem_map.2 ⟨f, hf, rfl⟩ : sortKeys f.toWire ∈ _)
    exact ciphertext_fits hg
  · rcases h.authentication with ⟨hthree, members, a, hget, -, -⟩ | ⟨htwo, -, hallowed, hget⟩
    · refine .inl ⟨hversion ▸ hthree, ?_⟩
      cases ha : r.authentication with
      | none =>
          rw [authentication_loaded_unsigned ha] at hget
          cases hget
      | some a => rfl
    · refine .inr ⟨hversion ▸ htwo, ?_, hallowed⟩
      cases ha : r.authentication with
      | none => rfl
      | some a =>
          rw [authentication_loaded_signed ha] at hget
          cases hget

/-- A record that a decoder reads from the own wire of `r` has the content of `r`. -/
theorem content_of_fromWire_own {r r' : BlindTransportRecord}
    (h : fromWire H limits allowLegacyUnsigned allowLegacyBlank (loaded r.wireMembers) = .ok r') :
    r'.recordId = r.recordId ∧ r'.fields = r.fields ∧ r'.authentication = r.authentication := by
  obtain ⟨hfits, haccepted⟩ := fits_of_decoded (fromWire_ok h)
  rw [r.fromWire_loaded_eq hfits haccepted] at h
  rw [make_ok h]
  exact ⟨rfl, rfl, rfl⟩

theorem contentMembers_eq {r r' : BlindTransportRecord} (hid : r'.recordId = r.recordId)
    (hfields : r'.fields = r.fields) : r'.contentMembers = r.contentMembers := by
  have hfirst : r'.first = r.first := by
    unfold first
    simp only [hfields]
  rw [contentMembers, contentMembers, protocolVersion, protocolVersion, hfirst, hid, hfields]

theorem digest_eq {r r' : BlindTransportRecord} (hid : r'.recordId = r.recordId)
    (hfields : r'.fields = r.fields) : r'.digest H = r.digest H := by
  rw [digest, digest, contentText, contentText, contentWire, contentWire,
    contentMembers_eq hid hfields]

theorem canonicalWire_eq {r r' : BlindTransportRecord} (hid : r'.recordId = r.recordId)
    (hfields : r'.fields = r.fields) (hauthentication : r'.authentication = r.authentication) :
    r'.canonicalWire = r.canonicalWire := by
  rw [canonicalWire, canonicalWire, toWire_eq, toWire_eq, wireMembers, wireMembers,
    contentMembers_eq hid hfields, hauthentication]

/-! ## Round trips -/

/-- A signed record keeps its checks without the policy for blank recipient keys. -/
theorem make_redecoded {r : BlindTransportRecord} (hversion : r.protocolVersion = 3)
    (hrecipient : r.first.recipientKeyId ≠ "") :
    ∃ r', make (r.redecoded allowLegacyBlank) = .ok r' := by
  have hvalid := r.valid
  obtain ⟨f, fs, hfs⟩ := List.exists_cons_of_ne_nil r.fields_ne_nil
  have hfirst : r.first = f.context := by
    rw [first]
    simp only [hfs, List.head_cons]
  have hthree : f.context.protocolVersion = 3 := hfirst ▸ hversion
  have hkey : f.context.recipientKeyId ≠ "" := hfirst ▸ hrecipient
  have hcheck : (r.redecoded allowLegacyBlank).check = .ok () := by
    rw [RecordFields.check, hfs] at hvalid
    rw [RecordFields.check, show (r.redecoded allowLegacyBlank).fields = f :: fs from hfs]
    simpa [hthree, hkey, redecoded] using hvalid
  unfold make
  split
  · exact ⟨_, rfl⟩
  · rename_i e he
    rw [hcheck] at he
    cases he

end BlindTransportRecord

open BlindTransportRecord

/-- **Wire codec round trip.** The canonical wire of a signed record of the current protocol loads
and decodes to a record of the same content, with the same digest and the same wire. Every record
the decoder returns is decoded again from its own canonical wire. -/
theorem wire_codec_round_trip (H : Host) (allowLegacyUnsigned allowLegacyBlank : Bool) :
    (∀ (limits : ProtocolLimits) (r : BlindTransportRecord), r.protocolVersion = 3 →
      r.authentication.isSome = true → r.first.recipientKeyId ≠ "" → r.FitsLimits limits →
      ∃ payload r', plainLoads r.canonicalWire = some (.obj payload) ∧
        fromWire H limits allowLegacyUnsigned allowLegacyBlank payload = .ok r' ∧
        r'.recordId = r.recordId ∧ r'.fields = r.fields ∧
        r'.authentication = r.authentication ∧ r'.digest H = r.digest H ∧
        r'.canonicalWire = r.canonicalWire ∧
        (r.allowLegacyBlankRecipientKeyId = false → r' = r)) ∧
    ∀ (limits : ProtocolLimits) (payload : List (String × Json)) (r : BlindTransportRecord),
      fromWire H limits allowLegacyUnsigned allowLegacyBlank payload = .ok r →
      ∀ limits' : ProtocolLimits, r.FitsLimits limits' →
        ∃ payload', plainLoads r.canonicalWire = some (.obj payload') ∧
          fromWire H limits' allowLegacyUnsigned allowLegacyBlank payload' = .ok r := by
  constructor
  · intro limits r hversion hsigned hrecipient hfits
    obtain ⟨r', hr'⟩ := (@make_redecoded allowLegacyBlank) hversion hrecipient
    have hdecode := @fromWire_loaded_eq H _ allowLegacyUnsigned r
      hfits (.inl ⟨hversion, hsigned⟩) allowLegacyBlank
    have hmade := make_ok hr'
    have hid : r'.recordId = r.recordId := by rw [hmade]; rfl
    have hfields : r'.fields = r.fields := by rw [hmade]; rfl
    have hauthentication : r'.authentication = r.authentication := by rw [hmade]; rfl
    refine ⟨_, r', r.plainLoads_canonicalWire, hdecode.trans hr', hid, hfields, hauthentication,
      digest_eq hid hfields, canonicalWire_eq hid hfields hauthentication, ?_⟩
    intro hpolicy
    have hsame : r.redecoded allowLegacyBlank = r.toRecordFields := by
      rw [redecoded, decide_eq_false hrecipient, Bool.and_false, Bool.false_and, ← hpolicy]
    rw [hsame, r.make_valid] at hr'
    exact (Except.ok.inj hr').symm
  · intro limits payload r h limits' hfits
    have hdecoded := fromWire_ok h
    have hdecode := r.fromWire_loaded_eq (H := H) hfits hdecoded.acceptedVersion allowLegacyBlank
    rw [hdecoded.policy, r.make_valid] at hdecode
    exact ⟨_, r.plainLoads_canonicalWire, hdecode⟩

end Polymorph
