import Polymorph.Binary.Fields
import Polymorph.Review.Artifact
import Polymorph.StandardHost
import Polymorph.Trust.SourceTrust

/-!
# Recipient key certificates

The certificate of a rotating X25519 recipient key, its wire form, and reading it. The X25519 check
of a public key and the Ed25519 check of a signature are parameters.
-/

set_option autoImplicit false

namespace Polymorph

open JsonText Utc

/-- What certificates are checked with. -/
structure RecipientEnvironment where
  host : Host
  /-- `validate_recipient_public_key` of 32 bytes -/
  usableKey : List UInt8 → Bool
  /-- the library's check of a signature -/
  ed25519 : List UInt8 → ByteArray → List UInt8 → Bool

/-! ## Key ids -/

/-- `_binding` accepts the text. -/
def isBinding (value : String) : Bool :=
  value ≠ "" && value.utf8ByteSize ≤ 256 &&
    value.toList.all fun c => 32 ≤ c.toNat && c.toNat ≠ 127

/-- The exception of `_binding` for a text it refuses. -/
def bindingError (value label : String) : Exn :=
  if value = "" ∨ 256 < value.utf8ByteSize then
    .valueError ("recipient key " ++ label ++ " must contain 1 to 256 bytes")
  else .valueError ("recipient key " ++ label ++ " contains a control character")

/-- `n.to_bytes(width, "little")` of a number that fits. -/
def littleEndianBytes : Nat → Nat → List UInt8
  | 0, _ => []
  | width + 1, n => UInt8.ofNat (n % 256) :: littleEndianBytes width (n / 256)

/-- The bytes of the coordinate of a public key, without the unused bit and below the prime. -/
def canonicalCoordinate (raw : List UInt8) : List UInt8 :=
  let masked := raw.set 31 (raw.getD 31 0 &&& 0x7f)
  littleEndianBytes 32 (Bytes.littleEndian masked % (2 ^ 255 - 19))

/-- `recipient_key_id` -/
def recipientKeyId (env : RecipientEnvironment) (publicKey : List UInt8) : Except Exn String :=
  if publicKey.length ≠ 32 then
    .error (.protocolError "X25519 recipient public key must be 32 bytes")
  else if env.usableKey publicKey = false then
    .error (.protocolError "recipient X25519 public key is unusable or low-order")
  else .ok (Sha256.hexDigest (canonicalCoordinate publicKey))

/-! ## Certificates -/

/-- The arguments of a certificate; timestamps are normalised to UTC. -/
structure CertificateFields where
  tenant : String
  destinationConnector : String
  publicKey : List UInt8
  generation : Int
  previousKeyId : Option String
  issuedAt : Instant
  notBefore : Instant
  notAfter : Instant
  identityKeyId : String
  signature : List UInt8
  algorithm : String := "ed25519"
deriving DecidableEq

/-- `_MAX_GENERATION` -/
def maxGeneration : Int := 2 ^ 63 - 1

/-- `__post_init__` after the key id. -/
def CertificateFields.check (c : CertificateFields) (keyId : String) : Except Exn Unit :=
  if ¬(1 ≤ c.generation ∧ c.generation ≤ maxGeneration) then
    .error (.protocolError "recipient key generation is invalid")
  else if c.generation = 1 ∧ c.previousKeyId ≠ none then
    .error (.protocolError "initial recipient key certificate cannot have a predecessor")
  else if 1 < c.generation ∧ c.previousKeyId = none then
    .error (.protocolError "rotated recipient key certificate requires a predecessor")
  else if c.previousKeyId.any fun id => !isLowerHex 64 id then
    .error (.protocolError "recipient predecessor key id must be a lowercase SHA-256 digest")
  else if c.previousKeyId = some keyId then
    .error (.protocolError "recipient key rotation must change the public key")
  else if ¬c.notBefore < c.notAfter then
    .error (.protocolError "recipient key certificate validity interval is empty or inverted")
  else if c.notAfter < c.issuedAt then
    .error (.protocolError "recipient key certificate was issued after its expiry")
  else if isLowerHex 64 c.identityKeyId = false then
    .error (.protocolError "recipient identity key id must be a lowercase SHA-256 digest")
  else if c.algorithm ≠ "ed25519" then
    .error (.protocolError "recipient key certificate signature algorithm is unsupported")
  else if c.signature.length ≠ 64 then
    .error (.protocolError "recipient key certificate signature must be 64 bytes")
  else .ok ()

/-- A certificate that its constructor accepts. -/
structure RecipientKeyCertificate (env : RecipientEnvironment) extends CertificateFields where
  /-- `_canonical_key_id` -/
  keyId : String
  tenant_bound : isBinding tenant = true
  destination_bound : isBinding destinationConnector = true
  named : recipientKeyId env publicKey = .ok keyId
  valid : toCertificateFields.check keyId = .ok ()

namespace RecipientKeyCertificate

variable {env : RecipientEnvironment}

/-- `RecipientKeyCertificate(...)` -/
def make (c : CertificateFields) : Except Exn (RecipientKeyCertificate env) :=
  if htenant : isBinding c.tenant = true then
    if hdestination : isBinding c.destinationConnector = true then
      match hname : recipientKeyId env c.publicKey with
      | .error e => .error e
      | .ok keyId =>
          match hvalid : c.check keyId with
          | .error e => .error e
          | .ok () => .ok ⟨c, keyId, htenant, hdestination, hname, hvalid⟩
    else .error (bindingError c.destinationConnector "destination connector")
  else .error (bindingError c.tenant "tenant")

/-! ## The wire form -/

/-- `_unsigned_wire` -/
def unsignedWire (c : RecipientKeyCertificate env) : List (String × Json) :=
  [("algorithm", .str c.algorithm), ("destination_connector", .str c.destinationConnector),
    ("generation", .int c.generation), ("identity_key_id", .str c.identityKeyId),
    ("issued_at", .str c.issuedAt.isoformat), ("key_id", .str c.keyId),
    ("not_after", .str c.notAfter.isoformat), ("not_before", .str c.notBefore.isoformat),
    ("previous_key_id", c.previousKeyId.elim .null .str),
    ("public_key", .str (String.ofList (Base64.encode c.publicKey))), ("tenant", .str c.tenant)]

/-- `signing_bytes` -/
def signingBytes (c : RecipientKeyCertificate env) : ByteArray :=
  "angusu.bridge/recipient-key-certificate/v1\x00".toUTF8 ++
    (compact.text (sortKeys (.obj c.unsignedWire))).toUTF8

/-- `_CERTIFICATE_FORMAT` -/
def certificateFormat : String := "angusu.bridge/recipient-key-certificate"

/-- `to_wire` -/
def toWire (c : RecipientKeyCertificate env) : List (String × Json) :=
  [("format", .str certificateFormat), ("version", .int 1)] ++ c.unsignedWire ++
    [("signature", .str (String.ofList (Base64.encode c.signature)))]

/-! ## Reading -/

/-- The value is the number `n` and no boolean. -/
def isNumber (n : Int) : Json → Bool
  | .int z => z = n
  | _ => false

/-- `set(payload) == set(keys)` -/
def hasExactly (keys : List String) (payload : List (String × Json)) : Bool :=
  payload.all (fun p => keys.contains p.1) && keys.all fun key => (dictGet key payload).isSome

/-- The properties of a certificate. -/
def required : List String :=
  ["algorithm", "destination_connector", "format", "generation", "identity_key_id", "issued_at",
    "key_id", "not_after", "not_before", "previous_key_id", "public_key", "signature", "tenant",
    "version"]

/-- `_unb64` -/
def unb64 (value : Json) (expected : Nat) (label : String) : Except Exn (List UInt8) :=
  let refused (what : String) : Except Exn (List UInt8) :=
    .error (.protocolError ("recipient key certificate " ++ label ++ what))
  match value with
  | .str text =>
      if (expected + 2) / 3 * 4 + 4 < text.length then refused " exceeds its size limit"
      else
        match Base64.decode text.toList with
        | none => refused " is not valid base64url"
        | some decoded =>
            if decoded.length ≠ expected then refused " has an invalid length" else .ok decoded
  | _ => refused " must be a string"

/-- `_parse_time` -/
def parseTime (H : Host) (value : Json) (label : String) : Except Exn Instant :=
  match value with
  | .str text =>
      match H.fromisoformat text with
      | some (.aware instant) => .ok instant
      | _ => .error (.protocolError ("recipient key certificate " ++ label ++ " is invalid"))
  | _ => .error (.protocolError ("recipient key certificate " ++ label ++ " must be a timestamp"))

/-- A property that has to be a text. -/
def textOf (key : String) (payload : List (String × Json)) : Except Exn String :=
  match payloadGet key payload with
  | .str text => .ok text
  | _ => .error (.protocolError ("recipient key certificate " ++ key ++ " must be a string"))

/-- The generation of a payload. -/
def generationOf : Json → Except Exn Int
  | .int z => .ok z
  | _ => .error (.protocolError "recipient key generation is invalid")

/-- The predecessor of a payload. -/
def previousOf : Json → Except Exn (Option String)
  | .null => .ok none
  | .str text => .ok (some text)
  | _ => .error (.protocolError "recipient predecessor key id must be a string or null")

/-- `except (OverflowError, ValueError)` around the constructor. -/
def validated {α : Type} : Except Exn α → Except Exn α
  | .error (.overflowError _) | .error (.valueError _) =>
      .error (.protocolError "recipient key certificate field validation failed")
  | result => result

/-- `from_wire` of an object. -/
def fromMembers (payload : List (String × Json)) : Except Exn (RecipientKeyCertificate env) := do
  if !hasExactly required payload then
    throw (.protocolError "recipient key certificate has unexpected or missing fields")
  if !isText certificateFormat (payloadGet "format" payload) ||
      !isNumber 1 (payloadGet "version" payload) then
    throw (.protocolError "recipient key certificate format is unsupported")
  let generation ← generationOf (payloadGet "generation" payload)
  let previousKeyId ← previousOf (payloadGet "previous_key_id" payload)
  let publicKey ← unb64 (payloadGet "public_key" payload) 32 "public key"
  let tenant ← textOf "tenant" payload
  let destinationConnector ← textOf "destination_connector" payload
  let identityKeyId ← textOf "identity_key_id" payload
  let algorithm ← textOf "algorithm" payload
  let keyId ← textOf "key_id" payload
  let issuedAt ← parseTime env.host (payloadGet "issued_at" payload) "issuance time"
  let notBefore ← parseTime env.host (payloadGet "not_before" payload) "not-before time"
  let notAfter ← parseTime env.host (payloadGet "not_after" payload) "expiry time"
  let signature ← unb64 (payloadGet "signature" payload) 64 "signature"
  let certificate ← validated (make ⟨tenant, destinationConnector, publicKey, generation,
    previousKeyId, issuedAt, notBefore, notAfter, identityKeyId, signature, algorithm⟩)
  if keyId ≠ certificate.keyId then
    throw (.protocolError "recipient key certificate key id does not match its public key")
  return certificate

/-- `from_wire` -/
def fromWire : Json → Except Exn (RecipientKeyCertificate env)
  | .obj payload => fromMembers payload
  | _ => .error (.protocolError "recipient key certificate must be an object")

/-! ## Reading a written certificate -/

theorem make_self (c : RecipientKeyCertificate env) : make c.toCertificateFields = .ok c := by
  unfold make
  rw [dif_pos c.tenant_bound, dif_pos c.destination_bound]
  split
  · rename_i e he
    have hname := c.named
    rw [he] at hname
    cases hname
  · rename_i keyId hkey
    have hname := c.named
    rw [hkey] at hname
    cases hname
    split
    · rename_i e he
      have hvalid := c.valid
      rw [he] at hvalid
      cases hvalid
    · rfl

/-- A key id is a digest. -/
theorem isLowerHex_keyId (c : RecipientKeyCertificate env) : isLowerHex 64 c.keyId = true := by
  have hname := c.named
  unfold recipientKeyId at hname
  split at hname
  · cases hname
  · split at hname
    · cases hname
    · rw [← Except.ok.inj hname]
      exact isLowerHex_hexDigest _

theorem length_publicKey (c : RecipientKeyCertificate env) : c.publicKey.length = 32 := by
  have hname := c.named
  unfold recipientKeyId at hname
  split at hname
  · cases hname
  · rename_i hlength
    exact not_not.mp hlength

/-- What the checks of the constructor leave of the number and the signature. -/
theorem bounds (c : RecipientKeyCertificate env) :
    (1 ≤ c.generation ∧ c.generation ≤ maxGeneration) ∧ c.signature.length = 64 ∧
      c.algorithm = "ed25519" ∧ isLowerHex 64 c.identityKeyId = true ∧
      ∀ id, c.previousKeyId = some id → isLowerHex 64 id = true := by
  have hvalid := c.valid
  unfold CertificateFields.check at hvalid
  split at hvalid
  · cases hvalid
  rename_i hgeneration
  split at hvalid
  · cases hvalid
  split at hvalid
  · cases hvalid
  split at hvalid
  · cases hvalid
  rename_i hprevious
  split at hvalid
  · cases hvalid
  split at hvalid
  · cases hvalid
  split at hvalid
  · cases hvalid
  split at hvalid
  · cases hvalid
  rename_i hidentity
  split at hvalid
  · cases hvalid
  rename_i halgorithm
  split at hvalid
  · cases hvalid
  rename_i hsignature
  refine ⟨not_not.mp hgeneration, not_not.mp hsignature, not_not.mp halgorithm,
    Bool.eq_true_of_not_eq_false hidentity, ?_⟩
  intro id hid
  rw [hid, Option.any_some, Bool.not_eq_true, Bool.not_eq_false'] at hprevious
  exact hprevious

/-- Bytes of the expected length are read back from their base64 text. -/
theorem unb64_encode {bytes : List UInt8} {expected : Nat} (h : bytes.length = expected)
    (label : String) :
    unb64 (.str (String.ofList (Base64.encode bytes))) expected label = .ok bytes := by
  have hlength : (String.ofList (Base64.encode bytes)).length ≤ (expected + 2) / 3 * 4 + 4 := by
    rw [String.length_ofList, Base64.length_encode, h]
    omega
  unfold unb64
  simp only [if_neg (Nat.not_lt.mpr hlength), String.toList_ofList, Base64.decode_encode, h,
    ne_eq, not_true_eq_false, if_false]

theorem parseTime_isoformat (H : Host) (i : Instant) (label : String) :
    parseTime H (.str i.isoformat) label = .ok i := by
  unfold parseTime
  simp only [H.fromisoformat_isoformat]

theorem previousOf_elim (id : Option String) : previousOf (id.elim .null .str) = .ok id := by
  cases id with
  | none => rfl
  | some text => rfl

/-- `to_wire` with ordered keys. -/
def sortedWire (c : RecipientKeyCertificate env) : List (String × Json) :=
  [("algorithm", .str c.algorithm), ("destination_connector", .str c.destinationConnector),
    ("format", .str certificateFormat), ("generation", .int c.generation),
    ("identity_key_id", .str c.identityKeyId), ("issued_at", .str c.issuedAt.isoformat),
    ("key_id", .str c.keyId), ("not_after", .str c.notAfter.isoformat),
    ("not_before", .str c.notBefore.isoformat),
    ("previous_key_id", c.previousKeyId.elim .null .str),
    ("public_key", .str (String.ofList (Base64.encode c.publicKey))),
    ("signature", .str (String.ofList (Base64.encode c.signature))), ("tenant", .str c.tenant),
    ("version", .int 1)]

theorem sortKeys_previous (id : Option String) :
    sortKeys (id.elim .null .str) = id.elim .null .str := by
  cases id with
  | none => rfl
  | some text => rfl

theorem sortKeys_toWire (c : RecipientKeyCertificate env) :
    sortKeys (.obj c.toWire) = .obj c.sortedWire := by
  have hvalues : sortValues c.toWire = c.toWire := by
    simp only [toWire, unsignedWire, List.cons_append, List.nil_append, sortValues, sortKeys,
      sortKeys_previous]
  rw [sortKeys, hvalues]
  simp [toWire, unsignedWire, sortedWire, sortMembers, List.insertionSort, List.orderedInsert]

/-- **Round trip** of the wire form. -/
theorem fromWire_sortedWire (c : RecipientKeyCertificate env) :
    fromWire (.obj c.sortedWire) = .ok c := by
  have hkeys : hasExactly required c.sortedWire = true := rfl
  have hformat : isText certificateFormat (payloadGet "format" c.sortedWire) = true := rfl
  have hversion : isNumber 1 (payloadGet "version" c.sortedWire) = true := rfl
  have hgeneration : generationOf (payloadGet "generation" c.sortedWire) = .ok c.generation := rfl
  have hprevious : previousOf (payloadGet "previous_key_id" c.sortedWire) = .ok c.previousKeyId :=
    previousOf_elim c.previousKeyId
  have hpublic : unb64 (payloadGet "public_key" c.sortedWire) 32 "public key" = .ok c.publicKey :=
    unb64_encode c.length_publicKey _
  have hsignature : unb64 (payloadGet "signature" c.sortedWire) 64 "signature" = .ok c.signature :=
    unb64_encode c.bounds.2.1 _
  have htenant : textOf "tenant" c.sortedWire = .ok c.tenant := rfl
  have hdestination : textOf "destination_connector" c.sortedWire = .ok c.destinationConnector :=
    rfl
  have hidentity : textOf "identity_key_id" c.sortedWire = .ok c.identityKeyId := rfl
  have halgorithm : textOf "algorithm" c.sortedWire = .ok c.algorithm := rfl
  have hkey : textOf "key_id" c.sortedWire = .ok c.keyId := rfl
  have hissued : parseTime env.host (payloadGet "issued_at" c.sortedWire) "issuance time" =
      .ok c.issuedAt := parseTime_isoformat _ _ _
  have hbefore : parseTime env.host (payloadGet "not_before" c.sortedWire) "not-before time" =
      .ok c.notBefore := parseTime_isoformat _ _ _
  have hafter : parseTime env.host (payloadGet "not_after" c.sortedWire) "expiry time" =
      .ok c.notAfter := parseTime_isoformat _ _ _
  have hmake : validated (make c.toCertificateFields) = .ok c := by
    rw [make_self]
    rfl
  rw [fromWire, fromMembers, hkeys, hformat, hversion, hgeneration, hprevious, hpublic, htenant,
    hdestination, hidentity, halgorithm, hkey, hissued, hbefore, hafter, hsignature]
  simp only [Bool.not_true, Bool.or_self, Bool.false_eq_true, if_false, ok_bind]
  rw [hmake, ok_bind, if_neg (not_not.mpr rfl)]
  rfl

end RecipientKeyCertificate

end Polymorph
