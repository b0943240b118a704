import Mathlib.Data.Finset.Sort
import Polymorph.Inspection.Identify
import Polymorph.Trust.RecipientCertificate

/-!
# The trust store of recipient keys

`RecipientKeyTrustStore` with a state path: the pinned identity, the trusted head with the history
of key ids, the state file, and `accept`. A call holds the lock of the path, so it sees one version
of the file; what its environment raises is part of the call. Between the calls the file may be
replaced or removed.
-/

set_option autoImplicit false

namespace Polymorph

open JsonText Utc

/-- `_MAX_STATE_BYTES` -/
def maxStateBytes : Nat := 64 * 1024

/-- `_MAX_USED_KEY_IDS` -/
def maxUsedKeyIds : Nat := 512

/-- A store, as its constructor leaves it but for the head. -/
structure RecipientKeyTrustStore where
  identityPublicKey : List UInt8
  identityKeyId : String
  tenant : String
  destinationConnector : String
  named : signingKeyId identityPublicKey = .ok identityKeyId
  tenant_bound : isBinding tenant = true
  destination_bound : isBinding destinationConnector = true

/-- One version of the state file; `_file_fingerprint` tells versions apart. -/
structure StateFile where
  content : List UInt8
  fingerprint : Nat

/-- `_current`, `_used_key_ids` and `_state_fingerprint`. -/
structure TrustHead (env : RecipientEnvironment) where
  current : Option (RecipientKeyCertificate env) := none
  usedKeyIds : Finset String := ∅
  fingerprint : Option Nat := none

namespace RecipientKeyTrustStore

variable {env : RecipientEnvironment} (store : RecipientKeyTrustStore)

/-! ## Verification -/

/-- `_verify_current_validity` -/
def verifyCurrentValidity (certificate : RecipientKeyCertificate env) (now : Instant) :
    Except Exn Unit :=
  if now < certificate.notBefore then
    .error (.integrityError "recipient key certificate is not active yet")
  else if certificate.notAfter < now then
    .error (.integrityError "recipient key certificate has expired")
  else .ok ()

/-- `_verify_certificate` without the test of current validity. -/
def verifyCertificate (certificate : RecipientKeyCertificate env) : Except Exn Unit :=
  if certificate.identityKeyId ≠ store.identityKeyId then
    .error (.integrityError "recipient key certificate identity is not trusted")
  else if certificate.tenant ≠ store.tenant ∨
      certificate.destinationConnector ≠ store.destinationConnector then
    .error (.integrityError "recipient key certificate route binding is not trusted")
  else
    SourceTrustStore.verifyEd25519 env.ed25519 store.identityPublicKey certificate.signingBytes
      certificate.signature

/-! ## The state on disk -/

/-- `_STATE_FORMAT` -/
def stateFormat : String := "angusu.bridge/recipient-key-trust-state"

/-- `sorted(self._used_key_ids)` -/
def historyWire (usedKeyIds : Finset String) : List Json :=
  (usedKeyIds.sort (· ≤ ·)).map Json.str

/-- `_state_wire` -/
def stateWire (certificate : RecipientKeyCertificate env) (usedKeyIds : Finset String) :
    List (String × Json) :=
  [("current_certificate", .obj certificate.toWire),
    ("destination_connector", .str store.destinationConnector), ("format", .str stateFormat),
    ("identity_key_id", .str store.identityKeyId), ("tenant", .str store.tenant),
    ("used_key_ids", .arr (historyWire usedKeyIds)), ("version", .int 2)]

/-- The text that `accept` writes. -/
def stateText (certificate : RecipientKeyCertificate env) (usedKeyIds : Finset String) : String :=
  compact.text (sortKeys (.obj (store.stateWire certificate usedKeyIds))) ++ "\n"

/-- The properties of a state. -/
def required : List String :=
  ["current_certificate", "destination_connector", "format", "identity_key_id", "tenant",
    "used_key_ids", "version"]

/-- `json.loads(text, object_pairs_hook=_reject_duplicate_keys)`. A text beyond the recursion limit
is refused later, since no property of a state has such a value. -/
def loadText (text : String) : Except Exn Json :=
  match loads text with
  | none => .error (.protocolError "recipient key trust state is invalid JSON")
  | some payload =>
      if shortIntegers payload = false then
        .error (.valueError "Exceeds the limit for integer string conversion")
      else if uniqueKeys payload = false then
        .error (.protocolError "recipient key JSON contains a duplicate object key")
      else .ok payload

/-- The loop over the history. -/
def readHistory : List Json → Finset String → Except Exn (Finset String)
  | [], usedKeyIds => .ok usedKeyIds
  | .str value :: rest, usedKeyIds =>
      if isLowerHex 64 value = false then
        .error (.protocolError
          "recipient trust-state used-key id must be a lowercase SHA-256 digest")
      else if value ∈ usedKeyIds then
        .error (.protocolError "recipient key trust state repeats a used-key id")
      else readHistory rest (insert value usedKeyIds)
  | _ :: _, _ =>
      .error (.protocolError "recipient key trust state used-key id must be a string")

/-- The history of a payload. -/
def historyOf : Json → Except Exn (Finset String)
  | .arr items =>
      if maxUsedKeyIds < items.length then
        .error (.protocolError "recipient key trust state used-key history is invalid")
      else readHistory items ∅
  | _ => .error (.protocolError "recipient key trust state used-key history is invalid")

/-- A property of a state that has to be a text. -/
def stateTextOf (key : String) (payload : List (String × Json)) : Except Exn String :=
  match payloadGet key payload with
  | .str text => .ok text
  | _ => .error (.protocolError ("recipient key trust state " ++ key ++ " must be a string"))

/-- `_read_state` after the JSON parser, of an object. -/
def readMembers (payload : List (String × Json)) :
    Except Exn (RecipientKeyCertificate env × Finset String) := do
  if !RecipientKeyCertificate.hasExactly required payload then
    throw (.protocolError "recipient key trust state has unexpected or missing fields")
  if !isText stateFormat (payloadGet "format" payload) ||
      !RecipientKeyCertificate.isNumber 2 (payloadGet "version" payload) then
    throw (.protocolError "recipient key trust state format is unsupported")
  let identityKeyId ← stateTextOf "identity_key_id" payload
  let tenant ← stateTextOf "tenant" payload
  let destinationConnector ← stateTextOf "destination_connector" payload
  if identityKeyId ≠ store.identityKeyId ∨ tenant ≠ store.tenant ∨
      destinationConnector ≠ store.destinationConnector then
    throw (.integrityError "recipient key trust state does not match its pinned identity")
  let certificate ← RecipientKeyCertificate.fromWire (payloadGet "current_certificate" payload)
  store.verifyCertificate certificate
  let usedKeyIds ← historyOf (payloadGet "used_key_ids" payload)
  if certificate.keyId ∉ usedKeyIds then
    throw (.integrityError "recipient key trust state omits its current key from history")
  return (certificate, usedKeyIds)

/-- `_read_state` of a file with this content. -/
def readState (content : List UInt8) :
    Except Exn (RecipientKeyCertificate env × Finset String) :=
  if maxStateBytes < content.length then
    .error (.protocolError "recipient key trust state exceeds its size limit")
  else
    match ContentInspector.decodeUtf8Sig content with
    | none => .error (.protocolError "recipient key trust state is invalid JSON")
    | some text => do
        match ← loadText text with
        | .obj payload => store.readMembers payload
        | _ => throw (.protocolError "recipient key trust state has unexpected or missing fields")

/-- The head of a version of the file. -/
def headOf (file : StateFile) : Except Exn (TrustHead env) := do
  let (certificate, usedKeyIds) ← store.readState file.content
  return ⟨some certificate, usedKeyIds, some file.fingerprint⟩

/-- The constructor: the head of a new store on the path. -/
def openState (file : Option StateFile) : Except Exn (TrustHead env) :=
  match file with
  | none => .ok {}
  | some file => store.headOf file

/-- `_reload_state_if_changed` -/
def reloadStateIfChanged (head : TrustHead env) (file : StateFile) : Except Exn (TrustHead env) :=
  if head.fingerprint = some file.fingerprint then .ok head else store.headOf file

/-! ## Accepting a certificate -/

/-- `_accept_transition`: the next head, or `none` for the certificate that is trusted already. -/
def acceptTransition (head : TrustHead env) (certificate : RecipientKeyCertificate env)
    (now : Instant) : Except Exn (Option (TrustHead env)) := do
  store.verifyCertificate certificate
  verifyCurrentValidity certificate now
  let next : TrustHead env :=
    { head with
      current := some certificate
      usedKeyIds := insert certificate.keyId head.usedKeyIds }
  match head.current with
  | none =>
      if certificate.generation ≠ 1 ∨ certificate.previousKeyId ≠ none then
        throw (.integrityError "recipient key trust bootstrap must start at generation 1")
      if head.usedKeyIds ≠ ∅ then
        throw (.integrityError "recipient key trust history exists without a current key")
      return some next
  | some current =>
      if certificate.toCertificateFields = current.toCertificateFields then return none
      if certificate.generation ≤ current.generation then
        throw (.integrityError "recipient key certificate is a rollback or conflicting fork")
      if certificate.generation ≠ current.generation + 1 then
        throw (.integrityError "recipient key rotation skipped a generation")
      if certificate.previousKeyId ≠ some current.keyId then
        throw (.integrityError "recipient key rotation does not continue the trusted chain")
      if certificate.issuedAt < current.issuedAt then
        throw (.integrityError "recipient key rotation issuance time moved backwards")
      if certificate.keyId ∈ head.usedKeyIds then
        throw (.integrityError "recipient key rotation reuses retired key material")
      if maxUsedKeyIds ≤ head.usedKeyIds.card then
        throw (.integrityError "recipient key rotation history capacity is exhausted")
      return some next

/-- How `atomic_write_text` ends: it publishes the text, or it raises `OSError` before or after the
file has been replaced. -/
inductive Publication where
  | published
  | failed (replaced : Bool)

/-- A call of `accept` with what its environment does. -/
structure AcceptCall (env : RecipientEnvironment) where
  certificate : RecipientKeyCertificate env
  now : Instant
  /-- what the checks of the path and the lock raise -/
  locked : Option Exn := none
  publication : Publication := .published
  /-- what `_state_path_fingerprint` raises after the publication -/
  restated : Option Exn := none
  /-- `_sync_parent_directory` raises `OSError`. -/
  unsynced : Bool := false

/-- The head that a call decides on, under the lock. -/
def lockedHead (call : AcceptCall env) (head : TrustHead env) (file : Option StateFile) :
    Except Exn (TrustHead env) :=
  match call.locked with
  | some e => .error e
  | none =>
      match file with
      | some file => store.reloadStateIfChanged head file
      | none =>
          if head.current.isSome then
            .error (.integrityError "recipient key trust state disappeared")
          else .ok head

/-- The end of `accept`. -/
def synced (call : AcceptCall env) : Except Exn (RecipientKeyCertificate env) :=
  if call.unsynced then
    .error (.integrityError ("recipient key trust-state durability is uncertain after replacement; " ++
      "inspect the persisted head before retrying"))
  else .ok call.certificate

/-- `accept`: the result, and the head and the file afterwards. `fingerprint` is that of the file
which the call may publish. -/
def accept (call : AcceptCall env) (fingerprint : Nat) (head : TrustHead env)
    (file : Option StateFile) :
    Except Exn (RecipientKeyCertificate env) × TrustHead env × Option StateFile :=
  match store.lockedHead call head file with
  | .error e => (.error e, head, file)
  | .ok locked =>
      match store.acceptTransition locked call.certificate call.now with
      | .error e => (.error e, locked, file)
      | .ok none => (synced call, locked, file)
      | .ok (some next) =>
          let text := store.stateText call.certificate next.usedKeyIds
          let written : StateFile := ⟨utf8Bytes text.toList, fingerprint⟩
          match call.publication with
          | .failed replaced =>
              (.error (.integrityError ("recipient key trust-state update outcome is uncertain; " ++
                "inspect the persisted head before retrying")),
                { locked with fingerprint := none }, if replaced then some written else file)
          | .published =>
              match call.restated with
              | some e => (.error e, next, some written)
              | none =>
                  (synced call, { next with fingerprint := some fingerprint }, some written)

/-- `_refresh_current_locked`, behind `current` and the authorizations of a batch: the head
afterwards. -/
def refresh (head : TrustHead env) (file : Option StateFile) : TrustHead env :=
  match file with
  | none => head
  | some file =>
      match store.reloadStateIfChanged head file with
      | .error _ => head
      | .ok head => head

/-! ## Runs -/

/-- A store, its path, and the number of versions of the file so far. -/
structure TrustWorld (env : RecipientEnvironment) where
  head : TrustHead env
  file : Option StateFile
  versions : Nat

/-- What happens between two states: a call on the store, or another process replacing or removing
the file. -/
inductive TrustStep (env : RecipientEnvironment) where
  | accept (call : AcceptCall env)
  | refresh
  | replaced (content : List UInt8)
  | removed

/-- One step; a version of the file has a fingerprint of its own. -/
def step (world : TrustWorld env) : TrustStep env → TrustWorld env
  | .accept call =>
      let after := store.accept call world.versions world.head world.file
      ⟨after.2.1, after.2.2, world.versions + 1⟩
  | .refresh => { world with head := store.refresh world.head world.file }
  | .replaced content =>
      { world with file := some ⟨content, world.versions⟩, versions := world.versions + 1 }
  | .removed => { world with file := none }

/-- The states of a store on a path: opened on some file, then any steps. -/
inductive Reachable : TrustWorld env → Prop
  | opened {file : Option StateFile} {head : TrustHead env} {versions : Nat}
      (hversions : ∀ f, file = some f → f.fingerprint < versions)
      (hopen : store.openState file = .ok head) : Reachable ⟨head, file, versions⟩
  | step {world : TrustWorld env} (h : Reachable world) (action : TrustStep env) :
      Reachable (store.step world action)

end RecipientKeyTrustStore

end Polymorph
