import Polymorph.Transport.Context

/-!
# Blind transport records

`BlindTransportRecord` carries the checks of its constructor. Its canonical wire text and its
digest are functions of the value: the digest covers the content without the source
authentication. `fromWire` decodes a loaded JSON object.
-/

set_option autoImplicit false

namespace Polymorph

open JsonText

/-- One sealed field. -/
structure SealedField where
  targetFieldId : String
  context : TransferContext
  envelope : OpaqueEnvelope
deriving DecidableEq

/-- `SealedField.to_wire`. -/
def SealedField.toWire (f : SealedField) : Json :=
  .obj [("target_field_id", .str f.targetFieldId), ("context", f.context.toWire),
    ("envelope", f.envelope.toWire)]

/-- Limits of the record protocol. -/
structure ProtocolLimits where
  maxFieldsPerRecord : Nat := 4096
  maxCiphertextBytesPerField : Nat := 16 * 1024 * 1024
  maxRecordWireBytes : Nat := 64 * 1024 * 1024

/-- The text members of an object whose values are all texts. -/
def textMembers : List (String × Json) → Option (List (String × String))
  | [] => some []
  | (k, .str s) :: rest => (textMembers rest).map ((k, s) :: ·)
  | _ :: _ => none

/-- `SealedField.from_wire`. -/
def SealedField.fromWire (H : Host) (payload : List (String × Json)) (limits : ProtocolLimits) :
    Except Exn SealedField :=
  match dictGet "context" payload with
  | some (.obj rawContext) =>
      match dictGet "envelope" payload with
      | some (.obj members) =>
          match textMembers members with
          | some rawEnvelope => do
              let context ← TransferContext.fromWire H rawContext
              let envelope ←
                OpaqueEnvelope.fromWire rawEnvelope limits.maxCiphertextBytesPerField
              let target ← required payload "target_field_id"
              pure ⟨H.str target, context, envelope⟩
          | none => .error (.protocolError "sealed field envelope must contain string fields")
      | _ => .error (.protocolError "sealed field envelope must contain string fields")
  | _ => .error (.protocolError "sealed field context must be an object with string keys")

/-- Constructor arguments of a record. -/
structure RecordFields where
  recordId : String
  fields : List SealedField
  authentication : Option RecordAuthentication := none
  allowLegacyBlankRecipientKeyId : Bool := false
deriving DecidableEq

/-- The context values every field of one record shares, with whether two contexts agree. -/
def sharedContextValues : List (String × (TransferContext → TransferContext → Bool)) :=
  [("tenant", fun a b => a.tenant = b.tenant),
    ("source_connector", fun a b => a.sourceConnector = b.sourceConnector),
    ("destination_connector", fun a b => a.destinationConnector = b.destinationConnector),
    ("transfer_id", fun a b => a.transferId = b.transferId),
    ("plan_id", fun a b => a.planId = b.planId),
    ("plan_digest", fun a b => a.planDigest = b.planDigest),
    ("schema_version", fun a b => a.schemaVersion = b.schemaVersion),
    ("protocol_version", fun a b => a.protocolVersion = b.protocolVersion),
    ("recipient_key_id", fun a b => a.recipientKeyId = b.recipientKeyId),
    ("issued_at", fun a b => a.issuedAt = b.issuedAt),
    ("expires_at", fun a b => a.expiresAt = b.expiresAt)]

/-- The per-field checks; `seen` holds the field ids before this one. -/
def checkFields (recordId : String) (first : TransferContext) :
    List String → List SealedField → Except Exn Unit
  | _, [] => .ok ()
  | seen, item :: rest =>
      if item.targetFieldId ∈ seen then
        .error (.protocolError "blind transport record contains a duplicate target field")
      else if item.targetFieldId ≠ item.context.fieldId then
        .error (.protocolError "sealed field id does not match authenticated field id")
      else if item.context.recordId ≠ recordId then
        .error (.protocolError "record id does not match authenticated context")
      else
        match sharedContextValues.find? fun p => !p.2 item.context first with
        | some (name, _) =>
            .error (.protocolError s!"mixed {name} values in one blind transport record")
        | none => checkFields recordId first (item.targetFieldId :: seen) rest

/-- `BlindTransportRecord.__post_init__`. -/
def RecordFields.check (r : RecordFields) : Except Exn Unit :=
  match r.fields with
  | [] => .error (.protocolError "blind transport record must contain at least one field")
  | item :: rest =>
      let first := item.context
      if first.protocolVersion ≠ 2 ∧ first.protocolVersion ≠ 3 then
        .error (.protocolError "unsupported transport record version")
      else
        match checkFields r.recordId first [] (item :: rest) with
        | .error e => .error e
        | .ok () =>
            if first.protocolVersion = 2 ∧ r.authentication ≠ none then
              .error (.protocolError
                "legacy transport records may not carry v3 source authentication")
            else if first.protocolVersion = 2 ∧ first.recipientKeyId ≠ "" then
              .error (.protocolError
                "legacy v2 transport records may not carry a recipient key id")
            else if first.protocolVersion = 2 ∧ r.allowLegacyBlankRecipientKeyId then
              .error (.protocolError "legacy recipient-key-id policy applies only to v3 records")
            else if first.protocolVersion = 3 ∧ first.recipientKeyId = "" ∧
                r.allowLegacyBlankRecipientKeyId = false then
              .error (.protocolError "v3 transport record has no authenticated recipient key id")
            else .ok ()

/-- An accepted record. -/
structure BlindTransportRecord extends RecordFields where
  valid : toRecordFields.check = .ok ()
deriving DecidableEq

namespace BlindTransportRecord

/-- The constructor. -/
def make (r : RecordFields) : Except Exn BlindTransportRecord :=
  match h : r.check with
  | .ok () => .ok ⟨r, h⟩
  | .error e => .error e

theorem fields_ne_nil (r : BlindTransportRecord) : r.fields ≠ [] := by
  intro h
  have hvalid := r.valid
  rw [RecordFields.check, h] at hvalid
  cases hvalid

/-- The context of the first field. -/
def first (r : BlindTransportRecord) : TransferContext := (r.fields.head r.fields_ne_nil).context

def transferId (r : BlindTransportRecord) : String := r.first.transferId

def tenant (r : BlindTransportRecord) : String := r.first.tenant

def sourceConnector (r : BlindTransportRecord) : String := r.first.sourceConnector

def destinationConnector (r : BlindTransportRecord) : String := r.first.destinationConnector

def planId (r : BlindTransportRecord) : String := r.first.planId

def planDigest (r : BlindTransportRecord) : String := r.first.planDigest

def protocolVersion (r : BlindTransportRecord) : Int := r.first.protocolVersion

/-- Members of `_content_wire`. -/
def contentMembers (r : BlindTransportRecord) : List (String × Json) :=
  [("protocol", .str "opaque-record"), ("version", .int r.protocolVersion),
    ("record_id", .str r.recordId), ("fields", .arr (r.fields.map SealedField.toWire))]

/-- `_content_wire`. -/
def contentWire (r : BlindTransportRecord) : Json := .obj r.contentMembers

/-- `to_wire`. -/
def toWire (r : BlindTransportRecord) : Json :=
  match r.authentication with
  | none => .obj r.contentMembers
  | some authentication => .obj (r.contentMembers ++ [("authentication", authentication.toWire)])

/-- `canonical_wire_bytes`, as the text whose UTF-8 encoding it is. -/
def canonicalWire (r : BlindTransportRecord) : String := canonical r.toWire

/-- `len(canonical_wire_bytes())`. -/
def wireBytes (r : BlindTransportRecord) : Nat := r.canonicalWire.utf8ByteSize

/-- Canonical text of the content, which the digest covers. -/
def contentText (r : BlindTransportRecord) : String := canonical r.contentWire

/-- `digest`. -/
def digest (H : Host) (r : BlindTransportRecord) : String := H.sha256Hex r.contentText

section FromWire

variable (H : Host)

/-- One entry of a sequence given to `dict`: a pair, or a text or object of two items. The key is
`none` when it is not a text. -/
def pairOf : Json → Except Exn (Option String × Json)
  | .arr [.str k, v] => .ok (some k, v)
  | .arr [.arr _, _] => .error (.typeError "unhashable type: 'list'")
  | .arr [.obj _, _] => .error (.typeError "unhashable type: 'dict'")
  | .arr [_, v] => .ok (none, v)
  | .arr _ => .error (.valueError "dictionary update sequence element has a wrong length")
  | .str s =>
      match s.toList with
      | [a, b] => .ok (some (String.singleton a), .str (String.singleton b))
      | _ => .error (.valueError "dictionary update sequence element has a wrong length")
  | .obj [(a, _), (b, _)] => .ok (some a, .str b)
  | .obj _ => .error (.valueError "dictionary update sequence element has a wrong length")
  | _ => .error (.typeError "cannot convert dictionary update sequence element to a sequence")

/-- `dict(item)` of a JSON value, restricted to the keys that are texts. -/
def dictOfItem : Json → Except Exn (List (String × Json))
  | .obj members => .ok members
  | .arr items => do
      let pairs ← items.mapM pairOf
      pure (dictOf (pairs.filterMap fun p => p.1.map (·, p.2)))
  | .str "" => .ok []
  | .str _ => .error (.valueError "dictionary update sequence element has a wrong length")
  | _ => .error (.typeError "object is not iterable")

/-- `BlindTransportRecord.from_wire`. -/
def fromWire (limits : ProtocolLimits) (allowLegacyUnsigned allowLegacyBlank : Bool)
    (payload : List (String × Json)) : Except Exn BlindTransportRecord := do
  match dictGet "protocol" payload with
  | some (.str "opaque-record") => pure ()
  | _ => throw (.protocolError "unsupported transport record protocol")
  let version ← readVersion H payload "version" "transport record version is invalid"
  if version ≠ 2 ∧ version ≠ 3 then
    throw (.protocolError "unsupported transport record version")
  if version = 2 ∧ allowLegacyUnsigned = false then
    throw (.protocolError "unsigned v2 transport records require explicit legacy policy")
  let rawFields ←
    match dictGet "fields" payload with
    | some (.arr (item :: rest)) => pure (item :: rest)
    | _ => throw (.protocolError "transport record fields must be a non-empty list")
  if rawFields.length > limits.maxFieldsPerRecord then
    throw (.protocolError "transport record exceeds field count limit")
  if (dumps (.obj payload)).utf8ByteSize > limits.maxRecordWireBytes then
    throw (.protocolError "transport record exceeds wire size limit")
  let fields ← rawFields.mapM fun item => do
    let members ← dictOfItem item
    SealedField.fromWire H members limits
  let authentication ←
    match version, (dictGet "authentication" payload).getD .null with
    | 3, .obj members => some <$> RecordAuthentication.fromWire H members
    | 3, _ => throw (.protocolError "v3 transport record has no source authentication")
    | _, .null => pure none
    | _, _ => throw (.protocolError "legacy transport record contains unexpected authentication")
  let recordId ← required payload "record_id"
  let blank := (fields.head?.map fun f => f.context.recipientKeyId) = some ""
  let record ← make
    { recordId := H.str recordId, fields := fields, authentication := authentication
      allowLegacyBlankRecipientKeyId := version = 3 && blank && allowLegacyBlank }
  if record.protocolVersion ≠ version then
    throw (.protocolError "outer record version does not match authenticated field context")
  pure record

end FromWire

end BlindTransportRecord

end Polymorph
