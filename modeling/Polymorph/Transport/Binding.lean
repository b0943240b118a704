import Polymorph.StandardHost
import Polymorph.Transport.RoundTrip

/-!
# What the authenticated bytes bind

The associated data of a context, the bytes a source signs and the bytes the digest hashes. A wire
form can be decoded again, whatever the order of its keys, so the bytes determine the value they
were written from.
-/

set_option autoImplicit false

namespace Polymorph

open JsonText

/-! ## Encodings -/

/-- `TransferContext.aad`. -/
def TransferContext.aadBytes (c : TransferContext) : ByteArray := c.aad.toUTF8

namespace BlindTransportRecord

/-- The domain of source signatures. -/
def sourceAuthDomain : String := "angusu.bridge/opaque-record/source-auth/v3\x00"

/-- The payload a source signs. -/
def authenticatedMembers (r : BlindTransportRecord) (keyId algorithm : String) :
    List (String × Json) :=
  r.contentMembers ++
    [("authentication", .obj [("algorithm", .str algorithm), ("key_id", .str keyId)])]

/-- `source_authentication_bytes`. -/
def sourceAuthenticationBytes (r : BlindTransportRecord) (keyId : String)
    (algorithm : String := "ed25519") : Except Exn ByteArray :=
  if r.protocolVersion ≠ 3 then
    .error (.protocolError "source authentication is supported only for record protocol v3")
  else
    .ok (sourceAuthDomain.toUTF8 ++
      (canonical (.obj (r.authenticatedMembers keyId algorithm))).toUTF8)

/-- The bytes `digest` hashes. -/
def contentBytes (r : BlindTransportRecord) : ByteArray := r.contentText.toUTF8

end BlindTransportRecord

/-! ## Wire forms up to the order of keys -/

theorem TransferContext.eq_of_sortKeys_toWire {c d : TransferContext}
    (h : sortKeys c.toWire = sortKeys d.toWire) : c = d := by
  have hmembers : loaded c.members = loaded d.members := Json.obj.inj h
  have hdecode := c.fromWire_loaded (H := standardHost)
  rw [hmembers, d.fromWire_loaded] at hdecode
  exact (Except.ok.inj hdecode).symm

theorem SealedField.eq_of_sortKeys_toWire {f g : SealedField}
    (h : sortKeys f.toWire = sortKeys g.toWire) : f = g := by
  have hmembers : loaded f.members = loaded g.members := Json.obj.inj h
  -- A limit that admits both ciphertexts.
  let limits : ProtocolLimits :=
    { maxCiphertextBytesPerField :=
        max f.envelope.ciphertext.length g.envelope.ciphertext.length }
  have hf := @fromWire_loaded standardHost f limits (Nat.le_max_left _ _)
  have hg := @fromWire_loaded standardHost g limits (Nat.le_max_right _ _)
  rw [hmembers, hg] at hf
  exact (Except.ok.inj hf).symm

theorem fields_eq_of_sortItems {fs gs : List SealedField}
    (h : sortItems (fs.map SealedField.toWire) = sortItems (gs.map SealedField.toWire)) :
    fs = gs := by
  have hinjective : Function.Injective fun f : SealedField => sortKeys f.toWire :=
    fun _ _ => SealedField.eq_of_sortKeys_toWire
  apply List.map_injective_iff.2 hinjective
  rw [BlindTransportRecord.sortItems_eq_map, BlindTransportRecord.sortItems_eq_map, List.map_map,
    List.map_map] at h
  exact h

namespace BlindTransportRecord

variable {r s : BlindTransportRecord}

/-- Objects that contain the content of two records agree on the record id and the fields. -/
theorem content_eq_of_sortKeys {ms ns : List (String × Json)} (hms : (ms.map Prod.fst).Nodup)
    (hns : (ns.map Prod.fst).Nodup) (hr : r.contentMembers ⊆ ms) (hs : s.contentMembers ⊆ ns)
    (h : sortKeys (.obj ms) = sortKeys (.obj ns)) :
    r.recordId = s.recordId ∧ r.fields = s.fields := by
  constructor
  · exact text_eq hms hns h (hr r.recordId_mem_contentMembers) (hs s.recordId_mem_contentMembers)
  · have hfields := member_eq hms hns h (hr r.fields_mem_contentMembers)
      (hs s.fields_mem_contentMembers)
    exact fields_eq_of_sortItems (Json.arr.inj hfields)

theorem authenticatedMembers_nodup (r : BlindTransportRecord) (keyId algorithm : String) :
    ((r.authenticatedMembers keyId algorithm).map Prod.fst).Nodup := by
  simp [authenticatedMembers, contentMembers]

theorem isWire_authenticatedMembers (r : BlindTransportRecord) (keyId algorithm : String) :
    IsWire (.obj (r.authenticatedMembers keyId algorithm)) := by
  refine isWire_obj (r.authenticatedMembers_nodup keyId algorithm) fun p hp => ?_
  rcases List.mem_append.1 hp with hp | hp
  · exact r.isWire_contentMembers p hp
  · rw [List.mem_singleton.1 hp]
    exact isWire_obj (by simp) (by simp [isWire_str])

theorem sourceAuthenticationBytes_ok {keyId algorithm : String} {bytes : ByteArray}
    (h : r.sourceAuthenticationBytes keyId algorithm = .ok bytes) :
    bytes = sourceAuthDomain.toUTF8 ++
      (canonical (.obj (r.authenticatedMembers keyId algorithm))).toUTF8 := by
  unfold sourceAuthenticationBytes at h
  split at h
  · cases h
  · exact (Except.ok.inj h).symm

/-- The signed bytes determine the key, the algorithm and the content. -/
theorem sourceAuthenticationBytes_inj {k l a b : String} {bytes : ByteArray}
    (hr : r.sourceAuthenticationBytes k a = .ok bytes)
    (hs : s.sourceAuthenticationBytes l b = .ok bytes) :
    k = l ∧ a = b ∧ r.recordId = s.recordId ∧ r.fields = s.fields := by
  have hbytes := (sourceAuthenticationBytes_ok hr).symm.trans (sourceAuthenticationBytes_ok hs)
  have htext : canonical (.obj (r.authenticatedMembers k a)) =
      canonical (.obj (s.authenticatedMembers l b)) :=
    String.toByteArray_inj.1 ((ByteArray.append_right_inj _).1 hbytes)
  have hsorted := sortKeys_eq_of_canonical_eq (r.isWire_authenticatedMembers k a).1
    (s.isWire_authenticatedMembers l b).1 htext
  have hnodup := r.authenticatedMembers_nodup k a
  have hnodup' := s.authenticatedMembers_nodup l b
  have hauthentication := member_eq hnodup hnodup' hsorted
    (List.mem_append_right _ (List.mem_singleton.2 rfl))
    (List.mem_append_right _ (List.mem_singleton.2 rfl))
  refine ⟨@text_eq _ _ (by simp) (by simp) hauthentication "key_id" _ _ (by simp) (by simp),
    @text_eq _ _ (by simp) (by simp) hauthentication "algorithm" _ _ (by simp) (by simp), ?_⟩
  exact content_eq_of_sortKeys hnodup hnodup' (List.subset_append_left _ _)
    (List.subset_append_left _ _) hsorted

theorem contentBytes_inj (h : r.contentBytes = s.contentBytes) :
    r.recordId = s.recordId ∧ r.fields = s.fields := by
  have hsorted := sortKeys_eq_of_canonical_eq r.isWire_contentWire.1 s.isWire_contentWire.1
    (String.toByteArray_inj.1 h)
  exact content_eq_of_sortKeys r.contentMembers_nodup s.contentMembers_nodup (List.Subset.refl _)
    (List.Subset.refl _) hsorted

end BlindTransportRecord

theorem TransferContext.aadBytes_inj {c d : TransferContext} (h : c.aadBytes = d.aadBytes) :
    c = d := by
  apply TransferContext.eq_of_sortKeys_toWire
  exact sortKeys_eq_of_canonical_eq c.isWire_toWire.1 d.isWire_toWire.1
    (String.toByteArray_inj.1 h)

/-- **Authenticated bytes bind everything.** The associated data determine the context. The bytes a
source signs determine its key, the record id and the fields, each with target, context and
envelope. So do the bytes the digest hashes. -/
theorem authenticated_bytes_bind :
    (∀ c d : TransferContext, c.aadBytes = d.aadBytes → c = d) ∧
    (∀ (r s : BlindTransportRecord) (k l : String), r.protocolVersion = 3 →
      s.protocolVersion = 3 →
      r.sourceAuthenticationBytes k = s.sourceAuthenticationBytes l →
      k = l ∧ r.recordId = s.recordId ∧ r.fields = s.fields) ∧
    ∀ r s : BlindTransportRecord, r.contentBytes = s.contentBytes →
      r.recordId = s.recordId ∧ r.fields = s.fields := by
  refine ⟨fun _ _ => TransferContext.aadBytes_inj, ?_,
    fun _ _ => BlindTransportRecord.contentBytes_inj⟩
  intro r s k l hr hs h
  have hsigned : ∃ bytes, s.sourceAuthenticationBytes l = .ok bytes := by
    unfold BlindTransportRecord.sourceAuthenticationBytes
    rw [if_neg (not_not.2 hs)]
    exact ⟨_, rfl⟩
  obtain ⟨bytes, hbytes⟩ := hsigned
  obtain ⟨hkey, -, hcontent⟩ :=
    BlindTransportRecord.sourceAuthenticationBytes_inj (h.trans hbytes) hbytes
  exact ⟨hkey, hcontent⟩

end Polymorph
