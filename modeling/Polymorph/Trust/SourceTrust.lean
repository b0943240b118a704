import Polymorph.Concurrency.Transaction
import Polymorph.Transport.Binding

/-!
# The registry of source keys

`SourceTrustStore`: the verification keys of the sources with their lifecycle, the calls that
change it, and the verification of a record against it. The signature check of the library is a
parameter.
-/

set_option autoImplicit false

namespace Polymorph

open JsonText Transaction Utc

/-- `_utc` -/
def utc : Reading → Except Exn Instant
  | .naive => .error (.valueError "source key validity timestamps must be timezone-aware")
  | .aware instant => .ok instant

/-- `signing_key_id` -/
def signingKeyId (publicKey : List UInt8) : Except Exn String :=
  if publicKey.length ≠ 32 then
    .error (.protocolError "Ed25519 public key must be 32 bytes")
  else .ok (Sha256.hexDigest publicKey)

inductive SourceKeyState where
  | active
  | verifyOnly
  | revoked
deriving DecidableEq

/-- The arguments of a trusted key; timestamps are normalised to UTC. -/
structure TrustedSourceKeyFields where
  publicKey : List UInt8
  tenant : String
  sourceConnector : String
  state : SourceKeyState := .active
  notBefore : Option Instant := none
  notAfter : Option Instant := none
  keyId : String := ""
  signingCutoff : Option Instant := none
deriving DecidableEq

/-- The validity interval, when both ends are given, is not inverted. -/
def TrustedSourceKeyFields.intervalOrdered (k : TrustedSourceKeyFields) : Bool :=
  match k.notBefore, k.notAfter with
  | some notBefore, some notAfter => !decide (notAfter < notBefore)
  | _, _ => true

/-- `TrustedSourceKey.__post_init__` after the key id. -/
def TrustedSourceKeyFields.check (k : TrustedSourceKeyFields) : Except Exn Unit :=
  if k.tenant = "" ∨ k.sourceConnector = "" then
    .error (.valueError "trusted source keys require tenant and connector bindings")
  else if k.intervalOrdered = false then
    .error (.valueError "source key validity interval is inverted")
  else if k.state = .active ∧ k.signingCutoff ≠ none then
    .error (.valueError "active source key cannot have a signing cutoff")
  else if k.state = .verifyOnly ∧ k.signingCutoff = none then
    .error (.valueError "verification-only source key requires a signing cutoff")
  else if k.state = .verifyOnly ∧ k.notAfter = none then
    .error (.valueError "verification-only source key requires an expiry deadline")
  else .ok ()

/-- A trusted key. -/
structure TrustedSourceKey extends TrustedSourceKeyFields where
  named : signingKeyId publicKey = .ok keyId
  valid : toTrustedSourceKeyFields.check = .ok ()
deriving DecidableEq

/-- The constructor. -/
def TrustedSourceKey.make (k : TrustedSourceKeyFields) : Except Exn TrustedSourceKey :=
  match hname : signingKeyId k.publicKey with
  | .error e => .error e
  | .ok expected =>
      if k.keyId ≠ "" ∧ k.keyId ≠ expected then
        .error (.valueError "source key id does not match its public key")
      else
        match h : { k with keyId := expected }.check with
        | .ok () => .ok ⟨{ k with keyId := expected }, hname, h⟩
        | .error e => .error e

/-- The registry: `_keys` and the number of open verification sessions. -/
structure SourceTrustStore where
  keys : List (String × TrustedSourceKey) := []
  verificationDepth : Nat := 0

/-- A call on the registry. -/
abbrev SourceTrustM := EStateM Exn SourceTrustStore

namespace SourceTrustStore

/-- `_keys.get(key_id)` -/
def get (store : SourceTrustStore) (keyId : String) : Option TrustedSourceKey :=
  dictGet keyId store.keys

/-- `_keys[key_id] = key` -/
def put (store : SourceTrustStore) (keyId : String) (key : TrustedSourceKey) : SourceTrustStore :=
  { store with keys := dictSet keyId key store.keys }

/-- `_ensure_mutation_allowed` -/
def ensureMutationAllowed : SourceTrustM Unit := do
  let store ← MonadState.get
  if store.verificationDepth ≠ 0 then
    throw (.other
      "RuntimeError: source trust registry cannot mutate inside a verification session")

/-- `add` -/
def add (key : TrustedSourceKey) : SourceTrustM Unit := do
  ensureMutationAllowed
  let store ← MonadState.get
  match store.get key.keyId with
  | some current =>
      if current ≠ key then
        throw (.valueError "source key id is already registered with different policy")
      set (store.put key.keyId key)
  | none => set (store.put key.keyId key)

/-- The cutoff and the deadline of a key in its new state. -/
def transition (current : TrustedSourceKey) (state : SourceKeyState) (changedAt : Option Reading)
    (clock : Instant) (verificationGrace : Int) :
    Except Exn (Option Instant × Option Instant) :=
  match state with
  | .verifyOnly => do
      if verificationGrace ≤ 0 then
        throw (.valueError "source key rotation grace must be positive")
      let cutoff ←
        match current.signingCutoff with
        | some cutoff => pure cutoff
        | none => utc (changedAt.getD (.aware clock))
      match cutoff.add verificationGrace with
      | none => throw (.overflowError "date value out of range")
      | some deadline =>
          match current.notAfter with
          | none => pure (some cutoff, some deadline)
          | some notAfter =>
              pure (some cutoff, some (if deadline < notAfter then deadline else notAfter))
  | .active => pure (none, current.notAfter)
  | .revoked => pure (current.signingCutoff, current.notAfter)

/-- `set_state`; `clock` is the time, read when no `changed_at` is given. -/
def setState (keyId : String) (state : SourceKeyState) (changedAt : Option Reading)
    (clock : Instant) (verificationGrace : Int) : SourceTrustM Unit := do
  ensureMutationAllowed
  let store ← MonadState.get
  match store.get keyId with
  | none => throw (.keyError "source verification key is not registered")
  | some current => do
      if current.state = .revoked ∧ state ≠ .revoked then
        throw (.valueError "revoked source keys cannot be reactivated")
      let (cutoff, deadline) ←
        (transition current state changedAt clock verificationGrace : Except Exn _)
      let changed ← (TrustedSourceKey.make
        { publicKey := current.publicKey, tenant := current.tenant
          sourceConnector := current.sourceConnector, state := state
          notBefore := current.notBefore, notAfter := deadline
          keyId := current.keyId, signingCutoff := cutoff } : Except Exn _)
      set (store.put keyId changed)

/-- `_DEFAULT_ROTATION_GRACE` in microseconds. -/
def defaultRotationGrace : Int := 24 * 60 * 60 * 1000000

/-- `revoke` -/
def revoke (keyId : String) (clock : Instant) : SourceTrustM Unit :=
  setState keyId .revoked none clock defaultRotationGrace

/-- `rotate` -/
def rotate (previousKeyId : String) (replacement : TrustedSourceKey)
    (changedAt : Option Reading) (clock : Instant) (verificationGrace : Int) :
    SourceTrustM Unit := do
  ensureMutationAllowed
  let store ← MonadState.get
  match store.get previousKeyId with
  | none => throw (.keyError "source verification key is not registered")
  | some current => do
      if replacement.keyId = previousKeyId then
        throw (.valueError "replacement source key must be a different key")
      if replacement.tenant ≠ current.tenant ∨
          replacement.sourceConnector ≠ current.sourceConnector then
        throw (.valueError "rotated source key must preserve tenant and connector binding")
      if replacement.state ≠ .active then
        throw (.valueError "replacement source key must be active")
      if (store.get replacement.keyId).any fun registered => registered ≠ replacement then
        throw (.valueError "replacement source key is registered with different policy")
      setState previousKeyId .verifyOnly changedAt clock verificationGrace
      add replacement

/-! ## Verification -/

section Verification

variable (ed25519 : List UInt8 → ByteArray → List UInt8 → Bool)

/-- `verify_ed25519`; `ed25519` is the library's check of a signature. -/
def verifyEd25519 (publicKey : List UInt8) (payload : ByteArray) (signature : List UInt8) :
    Except Exn Unit :=
  if publicKey.length ≠ 32 then
    .error (.protocolError "Ed25519 public key must be 32 bytes")
  else if signature.length ≠ 64 then
    .error (.integrityError "Ed25519 signature must be 64 bytes")
  else if ed25519 publicKey payload signature = false then
    .error (.integrityError "signature verification failed")
  else .ok ()

/-- The issuance of a record against the cutoff of a key. -/
def checkIssuance (key : TrustedSourceKey) (issuedAt : Option Instant) : Except Exn Unit :=
  if key.state = .verifyOnly then
    match issuedAt, key.signingCutoff with
    | some issued, some cutoff =>
        if cutoff < issued then
          .error (.integrityError "transport record was issued after source key rotation")
        else .ok ()
    | _, _ =>
        .error (.integrityError "verification-only source key requires signed issuance time")
  else .ok ()

/-- `_verify_record_locked` -/
def verifyRecord (store : SourceTrustStore) (record : BlindTransportRecord) (now : Reading) :
    Except Exn TrustedSourceKey := do
  match record.authentication with
  | none => throw (.integrityError "transport record has no source authentication")
  | some authentication => do
      if authentication.algorithm ≠ "ed25519" then
        throw (.integrityError "transport record uses an unsupported source signature")
      match store.get authentication.keyId with
      | none => throw (.integrityError "transport record source key is not trusted")
      | some key => do
          if key.state = .revoked then
            throw (.integrityError "transport record source key is revoked")
          if key.tenant ≠ record.tenant ∨ key.sourceConnector ≠ record.sourceConnector then
            throw (.integrityError
              "transport source identity does not match its trusted key binding")
          let payload ← record.sourceAuthenticationBytes authentication.keyId
            authentication.algorithm
          verifyEd25519 ed25519 key.publicKey payload authentication.signature
          let current ← utc now
          if key.notBefore.any fun notBefore => current < notBefore then
            throw (.integrityError "transport record source key is not active yet")
          if key.notAfter.any fun notAfter => notAfter < current then
            throw (.integrityError "transport record source key has expired")
          checkIssuance key record.first.issuedAt
          pure key

end Verification

end SourceTrustStore

/-! ## Histories -/

/-- A call on the registry, or the start or the end of a verification session. -/
inductive SourceTrustCall where
  | add (key : TrustedSourceKey)
  | setState (keyId : String) (state : SourceKeyState) (changedAt : Option Reading)
      (clock : Instant) (verificationGrace : Int)
  | revoke (keyId : String) (clock : Instant)
  | rotate (previousKeyId : String) (replacement : TrustedSourceKey)
      (changedAt : Option Reading) (clock : Instant) (verificationGrace : Int)
  | enterSession
  | exitSession

namespace SourceTrustStore

/-- The registry that a call leaves, whether it returns or raises. -/
def left (call : SourceTrustM Unit) (store : SourceTrustStore) : SourceTrustStore :=
  match call store with
  | .ok _ store' => store'
  | .error _ store' => store'

def exec : SourceTrustCall → SourceTrustStore → SourceTrustStore
  | .add key => left (add key)
  | .setState keyId state changedAt clock verificationGrace =>
      left (setState keyId state changedAt clock verificationGrace)
  | .revoke keyId clock => left (revoke keyId clock)
  | .rotate previousKeyId replacement changedAt clock verificationGrace =>
      left (rotate previousKeyId replacement changedAt clock verificationGrace)
  | .enterSession => fun store => { store with verificationDepth := store.verificationDepth + 1 }
  | .exitSession => fun store => { store with verificationDepth := store.verificationDepth - 1 }

/-- The calls in order. -/
def run (calls : List SourceTrustCall) (store : SourceTrustStore) : SourceTrustStore :=
  calls.foldl (fun store call => exec call store) store

end SourceTrustStore

end Polymorph
