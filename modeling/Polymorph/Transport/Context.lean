import Polymorph.Errors
import Polymorph.Host
import Polymorph.Text.Base64

/-!
# Authenticated contexts and envelopes

`TransferContext`, `OpaqueEnvelope` and `RecordAuthentication` with their wire forms. Each value
carries the checks of its constructor, so that only accepted values exist; `make` is the
constructor, which raises at the first check that fails.
-/

set_option autoImplicit false

namespace Polymorph

open JsonText Utc

/-! ## Transfer context -/

/-- The fields of a transfer context; timestamps are normalised to UTC. -/
structure TransferContextFields where
  tenant : String
  sourceConnector : String
  destinationConnector : String
  fieldId : String
  schemaVersion : String
  recordId : String
  transferId : String
  planId : String := ""
  planDigest : String := ""
  protocolVersion : Int := 3
  recipientKeyId : String := ""
  issuedAt : Option Instant := none
  expiresAt : Option Instant := none
deriving DecidableEq

/-- The validity interval, when both ends are given, is not inverted. -/
def TransferContextFields.intervalOrdered (c : TransferContextFields) : Bool :=
  match c.issuedAt, c.expiresAt with
  | some issued, some expires => !decide (expires < issued)
  | _, _ => true

/-- `TransferContext.__post_init__`. -/
def TransferContextFields.check (c : TransferContextFields) : Except Exn Unit :=
  if c.protocolVersion = 2 ∧ c.recipientKeyId ≠ "" then
    .error (.protocolError "v2 transfer contexts may not carry a recipient key id")
  else if c.recipientKeyId ≠ "" ∧ isLowerHex 64 c.recipientKeyId = false then
    .error (.protocolError "recipient key id must be a lowercase SHA-256 digest")
  else if c.intervalOrdered = false then
    .error (.protocolError "authenticated transfer validity interval is inverted")
  else .ok ()

/-- An accepted transfer context. -/
structure TransferContext extends TransferContextFields where
  valid : toTransferContextFields.check = .ok ()
deriving DecidableEq

/-- The constructor. -/
def TransferContext.make (c : TransferContextFields) : Except Exn TransferContext :=
  match h : c.check with
  | .ok () => .ok ⟨c, h⟩
  | .error e => .error e

/-- An optional member. -/
def optionalMember (key : String) : Option String → List (String × Json)
  | some value => [(key, .str value)]
  | none => []

/-- `TransferContext.aad_payload`. -/
def TransferContextFields.aadPayload (c : TransferContextFields) : Json :=
  .obj ([("destination_connector", .str c.destinationConnector), ("field_id", .str c.fieldId),
    ("plan_digest", .str c.planDigest), ("plan_id", .str c.planId),
    ("protocol_version", .int c.protocolVersion), ("record_id", .str c.recordId),
    ("schema_version", .str c.schemaVersion), ("source_connector", .str c.sourceConnector),
    ("tenant", .str c.tenant), ("transfer_id", .str c.transferId)] ++
    optionalMember "recipient_key_id"
      (if c.recipientKeyId = "" then none else some c.recipientKeyId) ++
    optionalMember "issued_at" (c.issuedAt.map Instant.isoformat) ++
    optionalMember "expires_at" (c.expiresAt.map Instant.isoformat))

/-- `TransferContext.to_wire`. -/
def TransferContext.toWire (c : TransferContext) : Json := c.aadPayload

/-- `TransferContext.aad`: canonical text of the authenticated data. -/
def TransferContext.aad (c : TransferContext) : String := canonical c.aadPayload

/-- `TransferContext.validate_time` at a time. -/
def TransferContext.validateTime (context : TransferContext) (current : Instant) :
    Except Exn Unit :=
  match context.expiresAt with
  | none => .ok ()
  | some expires =>
      if expires < current then
        .error (.transferExpired "authenticated transfer has expired")
      else .ok ()

section FromWire

variable (H : Host)

/-- `payload[key]`. -/
def required (payload : List (String × Json)) (key : String) : Except Exn Json :=
  match dictGet key payload with
  | some value => .ok value
  | none => .error (.keyError key)

/-- A version member: an integer or the text of one, never a boolean. -/
def readVersion (payload : List (String × Json)) (key message : String) : Except Exn Int :=
  match (dictGet key payload).getD (.int 0) with
  | .int z => .ok z
  | .str text =>
      match H.intOfStr text with
      | some z => .ok z
      | none => .error (.protocolError message)
  | _ => .error (.protocolError message)

/-- An optional timestamp member; null and the empty text mean none. -/
def parseTime (payload : List (String × Json)) (name : String) :
    Except Exn (Option Instant) :=
  match dictGet name payload with
  | none => .ok none
  | some .null => .ok none
  | some (.str "") => .ok none
  | some raw =>
      match H.fromisoformat (H.str raw) with
      | some (.aware instant) => .ok (some instant)
      | some .naive => .error (.protocolError "authenticated timestamps must include a timezone")
      | none => .error (.protocolError s!"authenticated {name} timestamp is invalid")

/-- `TransferContext.from_wire`. -/
def TransferContext.fromWire (payload : List (String × Json)) : Except Exn TransferContext := do
  let protocolVersion ←
    readVersion H payload "protocol_version" "authenticated protocol version is invalid"
  let tenant ← required payload "tenant"
  let sourceConnector ← required payload "source_connector"
  let destinationConnector ← required payload "destination_connector"
  let fieldId ← required payload "field_id"
  let schemaVersion ← required payload "schema_version"
  let recordId ← required payload "record_id"
  let transferId ← required payload "transfer_id"
  let issuedAt ← parseTime H payload "issued_at"
  let expiresAt ← parseTime H payload "expires_at"
  TransferContext.make
    { tenant := H.str tenant, sourceConnector := H.str sourceConnector
      destinationConnector := H.str destinationConnector, fieldId := H.str fieldId
      schemaVersion := H.str schemaVersion, recordId := H.str recordId
      transferId := H.str transferId
      planId := H.str ((dictGet "plan_id" payload).getD (.str ""))
      planDigest := H.str ((dictGet "plan_digest" payload).getD (.str ""))
      protocolVersion := protocolVersion
      recipientKeyId := H.str ((dictGet "recipient_key_id" payload).getD (.str ""))
      issuedAt := issuedAt, expiresAt := expiresAt }

end FromWire

/-! ## Envelope -/

/-- The parts of an envelope. -/
structure OpaqueEnvelopeFields where
  ephemeralPublicKey : List UInt8
  nonce : List UInt8
  ciphertext : List UInt8
deriving DecidableEq

/-- `OpaqueEnvelope.__post_init__`. -/
def OpaqueEnvelopeFields.check (e : OpaqueEnvelopeFields) : Except Exn Unit :=
  if e.ephemeralPublicKey.length ≠ 32 then
    .error (.protocolError "ephemeral X25519 public key must be 32 bytes")
  else if e.nonce.length ≠ 12 then
    .error (.protocolError "ChaCha20-Poly1305 nonce must be 12 bytes")
  else if e.ciphertext.length < 16 then
    .error (.protocolError "ciphertext is shorter than the authentication tag")
  else .ok ()

/-- An accepted envelope. -/
structure OpaqueEnvelope extends OpaqueEnvelopeFields where
  valid : toOpaqueEnvelopeFields.check = .ok ()
deriving DecidableEq

/-- The constructor. -/
def OpaqueEnvelope.make (e : OpaqueEnvelopeFields) : Except Exn OpaqueEnvelope :=
  match h : e.check with
  | .ok () => .ok ⟨e, h⟩
  | .error x => .error x

/-- `_b64_encode`. -/
def b64Encode (value : List UInt8) : String := String.ofList (Base64.encode value)

/-- `_b64_decode`. -/
def b64Decode (value field : String) (maxBytes : Nat) : Except Exn (List UInt8) :=
  if value.length > (maxBytes + 2) / 3 * 4 + 8 then
    .error (.protocolError s!"{field} exceeds protocol size limit")
  else
    match Base64.decode value.toList with
    | none => .error (.protocolError s!"{field} is not valid base64url")
    | some decoded =>
        if decoded.length > maxBytes then
          .error (.protocolError s!"{field} exceeds protocol size limit")
        else .ok decoded

/-- `OpaqueEnvelope.to_wire`. -/
def OpaqueEnvelope.toWire (e : OpaqueEnvelope) : Json :=
  .obj [("epk", .str (b64Encode e.ephemeralPublicKey)), ("nonce", .str (b64Encode e.nonce)),
    ("ciphertext", .str (b64Encode e.ciphertext))]

/-- `payload[key]` of a dictionary of strings. -/
def requiredText (payload : List (String × String)) (key : String) : Except Exn String :=
  match dictGet key payload with
  | some value => .ok value
  | none => .error (.keyError key)

/-- `OpaqueEnvelope.from_wire`. -/
def OpaqueEnvelope.fromWire (payload : List (String × String)) (maxCiphertextBytes : Nat) :
    Except Exn OpaqueEnvelope := do
  let epk ← requiredText payload "epk"
  let epk ← b64Decode epk "epk" 32
  let nonce ← requiredText payload "nonce"
  let nonce ← b64Decode nonce "nonce" 12
  let ciphertext ← requiredText payload "ciphertext"
  let ciphertext ← b64Decode ciphertext "ciphertext" maxCiphertextBytes
  OpaqueEnvelope.make { ephemeralPublicKey := epk, nonce := nonce, ciphertext := ciphertext }

/-! ## Source authentication -/

/-- The parts of a source signature. -/
structure RecordAuthenticationFields where
  keyId : String
  signature : List UInt8
  algorithm : String := "ed25519"
deriving DecidableEq

/-- `RecordAuthentication.__post_init__`. -/
def RecordAuthenticationFields.check (a : RecordAuthenticationFields) : Except Exn Unit :=
  if a.algorithm ≠ "ed25519" then
    .error (.protocolError "unsupported source signature algorithm")
  else if isLowerHex 64 a.keyId = false then
    .error (.protocolError "source signing key id must be a lowercase SHA-256 digest")
  else if a.signature.length ≠ 64 then
    .error (.protocolError "Ed25519 source signature must be 64 bytes")
  else .ok ()

/-- An accepted source signature. -/
structure RecordAuthentication extends RecordAuthenticationFields where
  valid : toRecordAuthenticationFields.check = .ok ()
deriving DecidableEq

/-- The constructor. -/
def RecordAuthentication.make (a : RecordAuthenticationFields) :
    Except Exn RecordAuthentication :=
  match h : a.check with
  | .ok () => .ok ⟨a, h⟩
  | .error e => .error e

/-- `RecordAuthentication.to_wire`. -/
def RecordAuthentication.toWire (a : RecordAuthentication) : Json :=
  .obj [("algorithm", .str a.algorithm), ("key_id", .str a.keyId),
    ("signature", .str (b64Encode a.signature))]

/-- `RecordAuthentication.from_wire`. -/
def RecordAuthentication.fromWire (H : Host) (payload : List (String × Json)) :
    Except Exn RecordAuthentication :=
  match dictGet "signature" payload, dictGet "key_id" payload with
  | some signature, some keyId =>
      match Base64.decode (H.str signature).toList with
      | none => .error (.protocolError "source signature is not valid base64url")
      | some decoded =>
          RecordAuthentication.make
            { keyId := H.str keyId, signature := decoded
              algorithm := H.str ((dictGet "algorithm" payload).getD (.str "")) }
  | _, _ => .error (.protocolError "source signature is not valid base64url")

end Polymorph
