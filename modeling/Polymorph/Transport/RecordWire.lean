import Polymorph.Text.WireObjects
import Polymorph.Transport.Record

/-!
# The wire text of a record

Every wire form is an object without repeated keys and without real numbers, so both loaders read
the canonical wire back as the value with ordered keys. The content text, which the digest covers,
therefore determines the identity of a record.
-/

set_option autoImplicit false

namespace Polymorph

open JsonText

/-! ## Wire forms -/

/-- The members of a context under the keys that are always present. -/
def TransferContextFields.requiredMembers (c : TransferContextFields) : List (String × Json) :=
  [("destination_connector", .str c.destinationConnector), ("field_id", .str c.fieldId),
    ("plan_digest", .str c.planDigest), ("plan_id", .str c.planId),
    ("protocol_version", .int c.protocolVersion), ("record_id", .str c.recordId),
    ("schema_version", .str c.schemaVersion), ("source_connector", .str c.sourceConnector),
    ("tenant", .str c.tenant), ("transfer_id", .str c.transferId)]

/-- All members of a context. -/
def TransferContextFields.members (c : TransferContextFields) : List (String × Json) :=
  c.requiredMembers ++
    optionalMember "recipient_key_id"
      (if c.recipientKeyId = "" then none else some c.recipientKeyId) ++
    optionalMember "issued_at" (c.issuedAt.map Utc.Instant.isoformat) ++
    optionalMember "expires_at" (c.expiresAt.map Utc.Instant.isoformat)

theorem aadPayload_eq (c : TransferContextFields) : c.aadPayload = .obj c.members := rfl

theorem optionalMember_keys (key : String) (value : Option String) :
    (optionalMember key value).map Prod.fst = [] ∨
      (optionalMember key value).map Prod.fst = [key] := by
  cases value with
  | none => exact .inl rfl
  | some value => exact .inr rfl

theorem members_nodup (c : TransferContextFields) : (c.members.map Prod.fst).Nodup := by
  have hrequired : c.requiredMembers.map Prod.fst = ["destination_connector", "field_id",
      "plan_digest", "plan_id", "protocol_version", "record_id", "schema_version",
      "source_connector", "tenant", "transfer_id"] := rfl
  rw [TransferContextFields.members, List.map_append, List.map_append, List.map_append, hrequired]
  rcases optionalMember_keys "recipient_key_id"
      (if c.recipientKeyId = "" then none else some c.recipientKeyId) with h1 | h1 <;>
    rcases optionalMember_keys "issued_at" (c.issuedAt.map Utc.Instant.isoformat) with h2 | h2 <;>
    rcases optionalMember_keys "expires_at" (c.expiresAt.map Utc.Instant.isoformat) with h3 | h3 <;>
    rw [h1, h2, h3] <;> decide

theorem isWire_optionalMember {key : String} {value : Option String} :
    ∀ p ∈ optionalMember key value, IsWire p.2 := by
  cases value with
  | none =>
      intro p hp
      cases hp
  | some value =>
      intro p hp
      rw [List.mem_singleton.1 hp]
      exact isWire_str value

theorem TransferContext.isWire_toWire (c : TransferContext) : IsWire c.toWire := by
  refine isWire_obj (members_nodup c.toTransferContextFields) fun p hp => ?_
  simp only [List.mem_append] at hp
  rcases hp with ((hp | hp) | hp) | hp
  · simp only [List.mem_cons, List.not_mem_nil, or_false] at hp
    rcases hp with rfl | rfl | rfl | rfl | rfl | rfl | rfl | rfl | rfl | rfl <;>
      first
        | exact isWire_str _
        | exact isWire_int _
  · exact isWire_optionalMember p hp
  · exact isWire_optionalMember p hp
  · exact isWire_optionalMember p hp

theorem OpaqueEnvelope.isWire_toWire (e : OpaqueEnvelope) : IsWire e.toWire := by
  refine isWire_obj (by simp) fun p hp => ?_
  simp only [List.mem_cons, List.not_mem_nil, or_false] at hp
  rcases hp with rfl | rfl | rfl <;> exact isWire_str _

theorem RecordAuthentication.isWire_toWire (a : RecordAuthentication) : IsWire a.toWire := by
  refine isWire_obj (by simp) fun p hp => ?_
  simp only [List.mem_cons, List.not_mem_nil, or_false] at hp
  rcases hp with rfl | rfl | rfl <;> exact isWire_str _

/-- The members of a sealed field. -/
def SealedField.members (f : SealedField) : List (String × Json) :=
  [("target_field_id", .str f.targetFieldId), ("context", f.context.toWire),
    ("envelope", f.envelope.toWire)]

theorem SealedField.members_nodup (f : SealedField) : (f.members.map Prod.fst).Nodup := by
  simp [SealedField.members]

theorem SealedField.context_mem_members (f : SealedField) :
    ("context", f.context.toWire) ∈ f.members := by
  simp [SealedField.members]

theorem SealedField.isWire_toWire (f : SealedField) : IsWire f.toWire := by
  refine isWire_obj f.members_nodup fun p hp => ?_
  simp only [List.mem_cons, List.not_mem_nil, or_false] at hp
  rcases hp with rfl | rfl | rfl
  · exact isWire_str _
  · exact f.context.isWire_toWire
  · exact f.envelope.isWire_toWire

namespace BlindTransportRecord

theorem contentMembers_nodup (r : BlindTransportRecord) :
    (r.contentMembers.map Prod.fst).Nodup := by
  simp [contentMembers]

theorem isWire_contentMembers (r : BlindTransportRecord) :
    ∀ p ∈ r.contentMembers, IsWire p.2 := by
  intro p hp
  simp only [contentMembers, List.mem_cons, List.not_mem_nil, or_false] at hp
  rcases hp with rfl | rfl | rfl | rfl
  · exact isWire_str _
  · exact isWire_int _
  · exact isWire_str _
  · refine isWire_arr fun j hj => ?_
    obtain ⟨f, -, rfl⟩ := List.mem_map.1 hj
    exact f.isWire_toWire

theorem isWire_contentWire (r : BlindTransportRecord) : IsWire r.contentWire :=
  isWire_obj r.contentMembers_nodup r.isWire_contentMembers

/-- The members of the whole wire object. -/
def wireMembers (r : BlindTransportRecord) : List (String × Json) :=
  r.contentMembers ++
    (r.authentication.map fun a => ("authentication", RecordAuthentication.toWire a)).toList

theorem toWire_eq (r : BlindTransportRecord) : r.toWire = .obj r.wireMembers := by
  unfold toWire wireMembers
  split
  · rename_i h
    rw [h, Option.map_none, Option.toList_none, List.append_nil]
  · rename_i a h
    rw [h, Option.map_some, Option.toList_some]

theorem wireMembers_nodup (r : BlindTransportRecord) :
    (r.wireMembers.map Prod.fst).Nodup := by
  cases h : r.authentication with
  | none => simp [wireMembers, h, contentMembers]
  | some a => simp [wireMembers, h, contentMembers]

theorem isWire_toWire (r : BlindTransportRecord) : IsWire r.toWire := by
  rw [toWire_eq]
  refine isWire_obj r.wireMembers_nodup fun p hp => ?_
  rcases List.mem_append.1 hp with hp | hp
  · exact r.isWire_contentMembers p hp
  · obtain ⟨a, -, rfl⟩ := Option.map_eq_some_iff.1 (Option.mem_toList.1 hp)
    exact a.isWire_toWire

/-- Both loaders read the wire of a record as the same value. -/
theorem strictLoads_canonicalWire (r : BlindTransportRecord) :
    strictLoads r.canonicalWire = plainLoads r.canonicalWire := by
  obtain ⟨hintegral, hstrict⟩ := r.isWire_toWire
  rw [canonicalWire, strictLoads_canonical hintegral hstrict,
    plainLoads_canonical hintegral hstrict]

theorem plainLoads_canonicalWire (r : BlindTransportRecord) :
    plainLoads r.canonicalWire = some (.obj (sortMembers (sortValues r.wireMembers))) := by
  obtain ⟨hintegral, hstrict⟩ := r.isWire_toWire
  rw [canonicalWire, plainLoads_canonical hintegral hstrict, toWire_eq, sortKeys]

theorem canonicalWire_ne_empty (r : BlindTransportRecord) : r.canonicalWire ≠ "" := by
  intro h
  have hloads := r.plainLoads_canonicalWire
  rw [h] at hloads
  cases hloads

/-! ## What the content determines -/

theorem fields_mem_contentMembers (r : BlindTransportRecord) :
    ("fields", .arr (r.fields.map SealedField.toWire)) ∈ r.contentMembers := by
  simp [contentMembers]

theorem recordId_mem_contentMembers (r : BlindTransportRecord) :
    ("record_id", .str r.recordId) ∈ r.contentMembers := by
  simp [contentMembers]

theorem version_mem_contentMembers (r : BlindTransportRecord) :
    ("version", .int r.protocolVersion) ∈ r.contentMembers := by
  simp [contentMembers]

/-- The content determines the context of the first field, up to the order of its keys. -/
theorem first_eq_of_contentText_eq {r r' : BlindTransportRecord}
    (h : r.contentText = r'.contentText) :
    sortKeys r.first.toWire = sortKeys r'.first.toWire := by
  have hcontent := sortKeys_eq_of_canonical_eq r.isWire_contentWire.1 r'.isWire_contentWire.1 h
  have hfields := member_eq r.contentMembers_nodup r'.contentMembers_nodup hcontent
    r.fields_mem_contentMembers r'.fields_mem_contentMembers
  have hhead : ∀ fields : List SealedField, ∀ hne : fields ≠ [],
      sortItems (fields.map SealedField.toWire) =
        sortKeys (fields.head hne).toWire :: sortItems (fields.tail.map SealedField.toWire) := by
    intro fields hne
    cases fields with
    | nil => exact absurd rfl hne
    | cons f fs => rfl
  rw [sortKeys, sortKeys, hhead _ r.fields_ne_nil, hhead _ r'.fields_ne_nil] at hfields
  have hfield := (List.cons.inj (Json.arr.inj hfields)).1
  exact member_eq (SealedField.members_nodup _) (SealedField.members_nodup _) hfield
    (SealedField.context_mem_members _) (SealedField.context_mem_members _)

theorem recordId_eq_of_contentText_eq {r r' : BlindTransportRecord}
    (h : r.contentText = r'.contentText) : r.recordId = r'.recordId := by
  have hcontent := sortKeys_eq_of_canonical_eq r.isWire_contentWire.1 r'.isWire_contentWire.1 h
  exact text_eq r.contentMembers_nodup r'.contentMembers_nodup hcontent
    r.recordId_mem_contentMembers r'.recordId_mem_contentMembers

/-- A text of the shared context that the content determines. -/
theorem context_eq_of_contentText_eq {r r' : BlindTransportRecord}
    (h : r.contentText = r'.contentText) (key : String) (text : TransferContext → String)
    (hmem : ∀ c : TransferContext, (key, .str (text c)) ∈ c.requiredMembers) :
    text r.first = text r'.first := by
  have hmember : ∀ c : TransferContext, (key, .str (text c)) ∈ c.members := fun c =>
    List.mem_append_left _ (List.mem_append_left _ (List.mem_append_left _ (hmem c)))
  exact text_eq (Polymorph.members_nodup _) (Polymorph.members_nodup _)
    (first_eq_of_contentText_eq h) (hmember r.first) (hmember r'.first)

theorem tenant_eq_of_contentText_eq {r r' : BlindTransportRecord}
    (h : r.contentText = r'.contentText) : r.tenant = r'.tenant :=
  context_eq_of_contentText_eq h "tenant" (fun c => c.tenant)
    fun _ => by simp [TransferContextFields.requiredMembers]

theorem destinationConnector_eq_of_contentText_eq {r r' : BlindTransportRecord}
    (h : r.contentText = r'.contentText) : r.destinationConnector = r'.destinationConnector :=
  context_eq_of_contentText_eq h "destination_connector" (fun c => c.destinationConnector)
    fun _ => by simp [TransferContextFields.requiredMembers]

theorem transferId_eq_of_contentText_eq {r r' : BlindTransportRecord}
    (h : r.contentText = r'.contentText) : r.transferId = r'.transferId :=
  context_eq_of_contentText_eq h "transfer_id" (fun c => c.transferId)
    fun _ => by simp [TransferContextFields.requiredMembers]

/-- The wire determines the content: it only adds the authentication. -/
theorem contentText_eq_of_canonicalWire_eq {r r' : BlindTransportRecord}
    (h : r.canonicalWire = r'.canonicalWire) : r.contentText = r'.contentText := by
  have hwire := sortKeys_eq_of_canonical_eq r.isWire_toWire.1 r'.isWire_toWire.1 h
  rw [toWire_eq, toWire_eq] at hwire
  have hmember : ∀ {key : String} {v v' : Json}, (key, v) ∈ r.contentMembers →
      (key, v') ∈ r'.contentMembers → sortKeys v = sortKeys v' := fun hv hv' =>
    member_eq r.wireMembers_nodup r'.wireMembers_nodup hwire (List.mem_append_left _ hv)
      (List.mem_append_left _ hv')
  have hversion := hmember r.version_mem_contentMembers r'.version_mem_contentMembers
  have hrecordId := hmember r.recordId_mem_contentMembers r'.recordId_mem_contentMembers
  have hfields := hmember r.fields_mem_contentMembers r'.fields_mem_contentMembers
  rw [contentText, contentText, canonical, canonical, contentWire, contentWire, sortKeys, sortKeys,
    contentMembers, contentMembers]
  simp only [sortValues, hversion, hrecordId, hfields]

end BlindTransportRecord

end Polymorph
