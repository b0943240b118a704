import Polymorph.Crypto.HybridSealing
import Polymorph.Text.Loading
import Polymorph.Transport.Context

/-!
# Sealing fields

`seal_for_recipient` and `open_envelope` over the key agreement, the key derivation and the cipher
of the library. What is drawn at random, and the time, are arguments.
-/

set_option autoImplicit false

namespace Polymorph

open JsonText Utc

/-- X25519, HKDF-SHA256 and ChaCha20-Poly1305. A private key is its raw bytes; the exchange fails
where `X25519PublicKey.from_public_bytes` or `exchange` raises `ValueError`. -/
structure SealingLibrary where
  agreement : Sealing.Agreement (List UInt8) (List UInt8) (List UInt8)
  aead : Sealing.Aead (List UInt8) (List UInt8) (List UInt8) (List UInt8) (List UInt8)
  /-- 32 bytes of `HKDF(…, info=info).derive(secret)` -/
  hkdf : (secret info : List UInt8) → List UInt8

namespace TransferContext

variable (H : Host)

/-- The metadata of `validate_new_metadata` that is required, with its labels and bounds. -/
def requiredMetadata (c : TransferContext) : List (String × String × Nat) :=
  [("tenant", c.tenant, 128), ("source connector", c.sourceConnector, 128),
    ("destination connector", c.destinationConnector, 128), ("field id", c.fieldId, 256),
    ("schema version", c.schemaVersion, 128), ("record id", c.recordId, 256),
    ("transfer id", c.transferId, 256)]

/-- A text that is not blank, of at most `maximum` printable characters. -/
def isPrintableMetadata (value : String) (maximum : Nat) : Bool :=
  H.strip value ≠ "" && value.length ≤ maximum && H.printable value

/-- `validate_new_metadata` -/
def validateNewMetadata (c : TransferContext) : Except Exn Unit :=
  match c.requiredMetadata.find? fun item => !isPrintableMetadata H item.2.1 item.2.2 with
  | some (label, _) =>
      .error (.protocolError ("new transfer " ++ label ++ " must be bounded printable metadata"))
  | none =>
      if c.planId ≠ "" ∧ (256 < c.planId.length ∨ H.printable c.planId = false) then
        .error (.protocolError "new transfer plan id must be bounded printable metadata")
      else if c.planDigest ≠ "" ∧ isLowerHex 64 c.planDigest = false then
        .error (.protocolError "new transfer plan digest must be a lowercase SHA-256 digest")
      else .ok ()

/-- `aad`, as bytes. -/
def aadOctets (c : TransferContext) : List UInt8 := utf8Bytes c.aad.toList

end TransferContext

namespace SealingLibrary

variable (lib : SealingLibrary)

/-- `_PROTOCOL_NAMESPACE + b"/v" + version + b"\x00" + aad` -/
def keyInfo (protocolVersion : Int) (aad : List UInt8) : List UInt8 :=
  utf8Bytes ("angusu.bridge/opaque-envelope/v" ++ toString protocolVersion).toList ++ 0 :: aad

/-- `_derive_key` after the check of the version. -/
def deriveKey (protocolVersion : Int) (shared aad : List UInt8) : List UInt8 :=
  lib.hkdf shared (keyInfo protocolVersion aad)

/-- The version that `_derive_key` accepts. -/
def isSealingVersion (protocolVersion : Int) : Bool := protocolVersion = 2 || protocolVersion = 3

/-- `seal_for_recipient`, with the ephemeral key, the nonce and the time. -/
def sealForRecipient (H : Host) (ephemeral nonce : List UInt8) (now : Instant)
    (plaintext recipientPublicKey : List UInt8) (context : TransferContext) :
    Except Exn OpaqueEnvelope := do
  context.validateNewMetadata H
  context.validateTime now
  if recipientPublicKey.length ≠ 32 then
    throw (.protocolError "recipient X25519 public key must be 32 bytes")
  if lib.agreement.exchange ephemeral recipientPublicKey = none then
    throw (.protocolError "recipient X25519 public key is unusable or low-order")
  if isSealingVersion context.protocolVersion = false then
    throw (.protocolError "unsupported opaque-envelope protocol version")
  match Sealing.sealFor lib.agreement lib.aead (lib.deriveKey context.protocolVersion) ephemeral
      nonce recipientPublicKey context.aadOctets plaintext with
  | none => throw (.overflowError "Data or associated data too long. Max 2**31 - 1 bytes")
  | some box => OpaqueEnvelope.make ⟨box.ephemeral, box.nonce, box.ciphertext⟩

/-- `open_envelope` -/
def openEnvelope (now : Instant) (envelope : OpaqueEnvelope) (privateKey : List UInt8)
    (context : TransferContext) : Except Exn (List UInt8) := do
  context.validateTime now
  if lib.agreement.exchange privateKey envelope.ephemeralPublicKey = none then
    throw (.integrityError "opaque envelope authentication failed")
  if isSealingVersion context.protocolVersion = false then
    throw (.protocolError "unsupported opaque-envelope protocol version")
  match Sealing.openBox lib.agreement lib.aead (lib.deriveKey context.protocolVersion) privateKey
      context.aadOctets
      ⟨envelope.ephemeralPublicKey, envelope.nonce, envelope.ciphertext⟩ with
  | none => throw (.integrityError "opaque envelope authentication failed")
  | some plaintext => return plaintext

variable {lib} {H : Host} {ephemeral nonce plaintext recipientPublicKey : List UInt8}
  {now : Instant} {context : TransferContext} {envelope : OpaqueEnvelope}

/-- What `seal_for_recipient` has checked and made when it returns. -/
structure SealedUnder (lib : SealingLibrary) (H : Host) (ephemeral nonce : List UInt8)
    (now : Instant) (plaintext recipientPublicKey : List UInt8) (context : TransferContext)
    (envelope : OpaqueEnvelope) : Prop where
  metadata : context.validateNewMetadata H = .ok ()
  time : context.validateTime now = .ok ()
  version : isSealingVersion context.protocolVersion = true
  sealedBox : Sealing.sealFor lib.agreement lib.aead (lib.deriveKey context.protocolVersion)
    ephemeral nonce recipientPublicKey context.aadOctets plaintext =
      some ⟨envelope.ephemeralPublicKey, envelope.nonce, envelope.ciphertext⟩

theorem sealedUnder_of_ok
    (h : lib.sealForRecipient H ephemeral nonce now plaintext recipientPublicKey context =
      .ok envelope) :
    SealedUnder lib H ephemeral nonce now plaintext recipientPublicKey context envelope := by
  unfold sealForRecipient at h
  obtain ⟨⟨⟩, hmetadata, h⟩ := bind_eq_ok h
  obtain ⟨⟨⟩, htime, h⟩ := bind_eq_ok h
  obtain ⟨-, h⟩ := guard_eq_ok h
  obtain ⟨-, h⟩ := guard_eq_ok h
  obtain ⟨hversion, h⟩ := guard_eq_ok h
  split at h
  · cases h
  · rename_i box hbox
    refine ⟨hmetadata, htime, Bool.eq_true_of_not_eq_false hversion, ?_⟩
    rw [hbox]
    -- The constructor keeps the parts of the box.
    unfold OpaqueEnvelope.make at h
    split at h
    · cases h
      rfl
    · cases h

/-- **The recipient opens what was sealed**, as long as the transfer has not expired. -/
theorem openEnvelope_sealed {privateKey : List UInt8} {later : Instant}
    (h : SealedUnder lib H ephemeral nonce now plaintext (lib.agreement.publicKey privateKey)
      context envelope)
    (htime : context.validateTime later = .ok ()) :
    lib.openEnvelope later envelope privateKey context = .ok plaintext := by
  obtain ⟨hephemeral, -, shared, hshared, -⟩ :=
    (Sealing.sealFor_eq_some_iff _ _ _).mp h.sealedBox
  have hopen := Sealing.openBox_sealFor _ _ _ h.sealedBox
  have hexchange : lib.agreement.exchange privateKey envelope.ephemeralPublicKey ≠ none := by
    change envelope.ephemeralPublicKey = _ at hephemeral
    rw [hephemeral, ← lib.agreement.exchange_comm, hshared]
    exact Option.some_ne_none _
  unfold openEnvelope
  rw [htime, ok_bind, if_neg hexchange, h.version, hopen]
  rfl

/-- A sealed envelope opens to nothing but its plaintext. -/
theorem plaintext_of_openEnvelope {privateKey plaintext' : List UInt8} {later : Instant}
    (h : SealedUnder lib H ephemeral nonce now plaintext recipientPublicKey context envelope)
    (hsame : lib.agreement.exchange ephemeral recipientPublicKey =
      lib.agreement.exchange ephemeral (lib.agreement.publicKey privateKey))
    (hopen : lib.openEnvelope later envelope privateKey context = .ok plaintext') :
    plaintext' = plaintext := by
  unfold openEnvelope at hopen
  obtain ⟨⟨⟩, -, hopen⟩ := bind_eq_ok hopen
  obtain ⟨-, hopen⟩ := guard_eq_ok hopen
  obtain ⟨-, hopen⟩ := guard_eq_ok hopen
  split at hopen
  · cases hopen
  · rename_i m hbox
    cases hopen
    exact Sealing.openBox_unique _ _ _ h.sealedBox hsame hbox

/-- What opens was sealed under the associated data of its context. -/
theorem encrypt_of_openEnvelope {privateKey : List UInt8}
    (h : lib.openEnvelope now envelope privateKey context = .ok plaintext) :
    ∃ shared, lib.agreement.exchange privateKey envelope.ephemeralPublicKey = some shared ∧
      lib.aead.encrypt
        (lib.deriveKey context.protocolVersion shared context.aadOctets)
        envelope.nonce plaintext context.aadOctets =
          some envelope.ciphertext := by
  unfold openEnvelope at h
  obtain ⟨⟨⟩, -, h⟩ := bind_eq_ok h
  obtain ⟨-, h⟩ := guard_eq_ok h
  obtain ⟨-, h⟩ := guard_eq_ok h
  split at h
  · cases h
  · rename_i m hopen
    cases h
    exact Sealing.encrypt_of_openBox _ _ _ hopen

end SealingLibrary

end Polymorph
