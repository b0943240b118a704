import Polymorph.Connectors.JsonFile
import Polymorph.Model.Transforms

/-!
# Recipient key files

Reading an encrypted X25519 key file. `json.loads` and the primitives of the cryptography package
are parameters with their documented exceptions; the hook that `json.loads` calls is the one of
the source.
-/

set_option autoImplicit false

namespace Polymorph

open JsonText

/-! ## The libraries -/

/-- What `json.loads` raises. -/
inductive JsonFault where
  /-- `JSONDecodeError` -/
  | decodeError
  /-- `RecursionError` on excessive nesting -/
  | recursionError
  /-- `ValueError` on an integer literal beyond the digit limit of the interpreter -/
  | longInteger
  /-- the exception of the hook -/
  | hook (e : Exn)

/-- `object_pairs_hook`: the dictionary of the members of an object. -/
abbrev ObjectHook := List (PyText × PyValue) → Except Exn Members

/-- `json.loads(text, object_pairs_hook=hook)` -/
structure HookedLoads where
  run : ObjectHook → String → Except JsonFault PyValue
  /-- An exception of the hook is one that the hook raised on some object. -/
  hook_raised : ∀ hook text e, run hook text = .error (.hook e) → ∃ pairs, hook pairs = .error e

/-- What the cryptography package raises. -/
inductive CryptoFault where
  | unsupportedAlgorithm
  | invalidTag
  | valueError (message : String)

/-- The exception as a caller sees it that does not catch it. -/
def CryptoFault.exn : CryptoFault → Exn
  | .unsupportedAlgorithm => .other "UnsupportedAlgorithm"
  | .invalidTag => .other "InvalidTag"
  | .valueError message => .valueError message

/-- The primitives of the cryptography package. -/
structure KeyCryptography where
  /-- `X25519PrivateKey` -/
  PrivateKey : Type
  /-- `Argon2id(salt, 32, iterations, lanes, memory_cost, ad).derive(passphrase)` -/
  argon2id (salt : List UInt8) (iterations lanes memoryCost : Int) (ad passphrase : List UInt8) :
    Except CryptoFault (List UInt8)
  /-- Valid arguments raise nothing but `UnsupportedAlgorithm`. -/
  argon2id_faults : ∀ salt iterations lanes memoryCost ad passphrase fault, 8 ≤ salt.length →
    1 ≤ iterations → 1 ≤ lanes → 8 * lanes ≤ memoryCost →
    argon2id salt iterations lanes memoryCost ad passphrase = .error fault →
    fault = .unsupportedAlgorithm
  argon2id_length : ∀ salt iterations lanes memoryCost ad passphrase key,
    argon2id salt iterations lanes memoryCost ad passphrase = .ok key → key.length = 32
  /-- `ChaCha20Poly1305(key).decrypt(nonce, ciphertext, aad)` -/
  decrypt (key nonce ciphertext aad : List UInt8) : Except CryptoFault (List UInt8)
  /-- With a key and a nonce of the right sizes only `InvalidTag` is raised. -/
  decrypt_faults : ∀ key nonce ciphertext aad fault, key.length = 32 → nonce.length = 12 →
    decrypt key nonce ciphertext aad = .error fault → fault = .invalidTag
  /-- A ciphertext is as long as its plaintext and a tag of 16 bytes. -/
  decrypt_length : ∀ key nonce ciphertext aad plaintext,
    decrypt key nonce ciphertext aad = .ok plaintext → plaintext.length + 16 = ciphertext.length
  /-- `X25519PrivateKey.from_private_bytes` -/
  fromPrivateBytes : List UInt8 → Except CryptoFault PrivateKey
  /-- Every 32 bytes are a private key. -/
  fromPrivateBytes_ok : ∀ raw, raw.length = 32 → ∃ key, fromPrivateBytes raw = .ok key
  /-- `private.public_key().public_bytes(Raw, Raw)` -/
  publicBytes : PrivateKey → List UInt8

/-! ## Fields -/

/-- A passphrase, a text or bytes. -/
inductive Passphrase where
  | text (value : String)
  | bytes (value : List UInt8)

/-- The bytes of a passphrase. -/
def Passphrase.encoded : Passphrase → List UInt8
  | .text value => utf8Bytes value.toList
  | .bytes value => value

/-- `_passphrase_bytes` -/
def passphraseBytes (passphrase : Passphrase) : Except Exn (List UInt8) :=
  if passphrase.encoded.length < 12 then
    .error (.valueError "key-file passphrase must contain at least 12 UTF-8 bytes")
  else .ok passphrase.encoded

/-- The parameters of Argon2id that a key file may have. -/
structure KeyFileParameters where
  memoryCostKib : Int
  iterations : Int
  lanes : Int
  memoryCost_supported : 8 * 1024 ≤ memoryCostKib ∧ memoryCostKib ≤ 128 * 1024
  iterations_supported : 1 ≤ iterations ∧ iterations ≤ 6
  lanes_supported : 1 ≤ lanes ∧ lanes ≤ 8

/-- `KeyFileParameters(...)` -/
def KeyFileParameters.make (memoryCostKib iterations lanes : Int) :
    Except Exn KeyFileParameters :=
  if hmemory : 8 * 1024 ≤ memoryCostKib ∧ memoryCostKib ≤ 128 * 1024 then
    if hiterations : 1 ≤ iterations ∧ iterations ≤ 6 then
      if hlanes : 1 ≤ lanes ∧ lanes ≤ 8 then
        .ok ⟨memoryCostKib, iterations, lanes, hmemory, hiterations, hlanes⟩
      else .error (.valueError "Argon2id lanes are outside supported range")
    else .error (.valueError "Argon2id iteration count is outside supported range")
  else .error (.valueError "Argon2id memory cost is outside supported range")

namespace RecipientKeyFile

/-- `_KEY_FILE_FORMAT` -/
def keyFileFormat : String := "angusu.bridge/recipient-key"

/-- `_MAX_KEY_FILE_BYTES` -/
def maxKeyFileBytes : Nat := 64 * 1024

/-- `_object_without_duplicate_keys`; `output` holds the members kept so far. -/
def objectWithoutDuplicateKeys (output : Members) : List (PyText × PyValue) → Except Exn Members
  | [] => .ok output
  | (key, value) :: pairs =>
      if key ∈ output.filterMap fun m => JsonFileConnector.textKey? m.1 then
        .error (.protocolError "recipient key file contains a duplicate object key")
      else objectWithoutDuplicateKeys (output ++ [(.str key, value)]) pairs

/-- The hook. -/
def hook : ObjectHook := objectWithoutDuplicateKeys []

/-- `value == text` -/
def isText (text : String) : PyValue → Bool
  | .str t => t = PyText.ofString text
  | _ => false

/-- `value == 1` -/
def isOne : PyValue → Bool
  | .int z => z = 1
  | .bool b => b
  | .float x => x = ⟨0x3ff0000000000000⟩
  | _ => false

/-- `members.get(key)` -/
def member? (key : String) (members : Members) : Option PyValue :=
  (members.find? fun m => isText key m.1).map Prod.snd

/-- `members[key]` -/
def member (key : String) (members : Members) : Except Exn PyValue :=
  match member? key members with
  | some value => .ok value
  | none => .error (.keyError key)

/-- `_json_integer` -/
def jsonInteger (value : PyValue) (label : String) : Except Exn Int :=
  match value with
  | .int z => .ok z
  | _ => .error (.protocolError ("recipient key file " ++ label ++ " must be an integer"))

/-- `base64.b64decode(value.encode("ascii"), altchars=b"-_", validate=True)` -/
def base64Bytes (value : PyText) : Option (List UInt8) := value.chars?.bind Base64.decode

/-- `_unb64`; its `except` clause takes every exception. -/
def unb64 (value : PyText) (expected : Nat) : Except Exn (List UInt8) :=
  match base64Bytes value with
  | none => .error (.protocolError "encrypted key file contains invalid base64url")
  | some data =>
      if data.length ≠ expected then
        .error (.protocolError "encrypted key file contains an invalid field length")
      else .ok data

/-! ## Key derivation -/

/-- `_aad` -/
def aad (publicKey : List UInt8) (params : KeyFileParameters) : List UInt8 :=
  let payload := Json.obj [("format", .str keyFileFormat), ("version", .int 1),
    ("public_key", .str (String.ofList (Base64.encode publicKey))),
    ("kdf", .obj [("name", .str "argon2id"), ("memory_cost_kib", .int params.memoryCostKib),
      ("iterations", .int params.iterations), ("lanes", .int params.lanes)])]
  utf8Bytes (asciiCompact.text (sortKeys payload)).toList

variable (H : Host) (loads : HookedLoads) (crypto : KeyCryptography)

/-- `_derive` -/
def derive (passphrase salt : List UInt8) (params : KeyFileParameters) :
    Except Exn (List UInt8) :=
  match crypto.argon2id salt params.iterations params.lanes params.memoryCostKib
    (utf8Bytes keyFileFormat.toList) passphrase with
  | .ok key => .ok key
  | .error .unsupportedAlgorithm => .error (.polymorphError
      "Argon2id is unavailable in this cryptography/OpenSSL build")
  | .error fault => .error fault.exn

/-- The decryption in `load`. -/
def decrypt (key nonce ciphertext aad : List UInt8) : Except Exn (List UInt8) :=
  match crypto.decrypt key nonce ciphertext aad with
  | .ok plaintext => .ok plaintext
  | .error .invalidTag =>
      .error (.integrityError "recipient key file authentication failed")
  | .error fault => .error fault.exn

/-- `X25519PrivateKey.from_private_bytes` -/
def fromPrivateBytes (raw : List UInt8) : Except Exn crypto.PrivateKey :=
  (crypto.fromPrivateBytes raw).mapError CryptoFault.exn

/-! ## Loading -/

/-- `json.loads(text, object_pairs_hook=_object_without_duplicate_keys)` in the `try` of
`_load_payload`, whose `except` clause has `JSONDecodeError` but not its base class. -/
def parse (text : String) : Except Exn PyValue :=
  match loads.run hook text with
  | .ok payload => .ok payload
  | .error .decodeError =>
      .error (.protocolError "recipient key file is unreadable or invalid")
  | .error .recursionError => .error .recursionError
  | .error .longInteger =>
      .error (.valueError "Exceeds the limit for integer string conversion")
  | .error (.hook e) => .error e

/-- The test of the format and the version. -/
def hasFormat (members : Members) : Bool :=
  isText keyFileFormat ((member? "format" members).getD .none) &&
    isOne ((member? "version" members).getD .none)

/-- The checks of the root. -/
def rootMembers : PyValue → Except Exn Members
  | .dict members =>
      if hasFormat members then .ok members
      else .error (.protocolError "recipient key file format is unsupported")
  | _ => .error (.protocolError "recipient key file root must be an object")

/-- `_load_payload` of a file with this content. The keys of a JSON object are texts, which
`str(key)` leaves as they are. -/
def loadPayload (content : List UInt8) : Except Exn Members :=
  if maxKeyFileBytes < content.length then
    .error (.protocolError "recipient key file exceeds configured size limit")
  else
    match ContentInspector.decodeUtf8Sig content with
    | none => .error (.protocolError "recipient key file is unreadable or invalid")
    | some text => do rootMembers (← parse loads text)

/-- `except (KeyError, TypeError, ValueError)` with the `ProtocolError` it raises. -/
def asProtocolError {α : Type} (message : String) : Except Exn α → Except Exn α
  | .error (.keyError _) | .error (.typeError _) | .error (.valueError _) =>
      .error (.protocolError message)
  | result => result

/-- `public_key` -/
def publicKey (content : List UInt8) : Except Exn (List UInt8) := do
  let payload ← loadPayload loads content
  match member? "public_key" payload with
  | none => throw (.protocolError "recipient key file has no public key")
  | some encoded => unb64 (strText H encoded) 32

/-- The two objects of a key file. -/
def objects (payload : Members) : Except Exn (Members × Members) :=
  asProtocolError "recipient key file structure is invalid" do
    let kdf ← member "kdf" payload
    let cipher ← member "cipher" payload
    match kdf, cipher with
    | .dict kdf, .dict cipher => .ok (kdf, cipher)
    | _, _ => .error (.typeError "")

/-- The parameters, the salt, the nonce and the ciphertext. -/
structure Sealed where
  params : KeyFileParameters
  salt : List UInt8
  nonce : List UInt8
  ciphertext : List UInt8

/-- The fields of the two objects. -/
def sealedFields (kdf cipher : Members) : Except Exn Sealed :=
  asProtocolError "recipient key file parameters are invalid" do
    let memoryCost ← jsonInteger (← member "memory_cost_kib" kdf) "memory cost"
    let iterations ← jsonInteger (← member "iterations" kdf) "iteration count"
    let lanes ← jsonInteger (← member "lanes" kdf) "lane count"
    let params ← KeyFileParameters.make memoryCost iterations lanes
    let salt ← unb64 (strText H (← member "salt" kdf)) 16
    let nonce ← unb64 (strText H (← member "nonce" cipher)) 12
    let ciphertext ← unb64 (strText H (← member "ciphertext" cipher)) 48
    return ⟨params, salt, nonce, ciphertext⟩

/-- The end of `load`: the private key of a sealed one. -/
def openSealed (passphrase : Passphrase) (publicRaw : List UInt8) (s : Sealed) :
    Except Exn crypto.PrivateKey := do
  let password ← passphraseBytes passphrase
  let key ← derive crypto password s.salt s.params
  let privateRaw ← decrypt crypto key s.nonce s.ciphertext (aad publicRaw s.params)
  let privateKey ← fromPrivateBytes crypto privateRaw
  if crypto.publicBytes privateKey ≠ publicRaw then
    throw (.integrityError "recipient key file public/private key mismatch")
  return privateKey

/-- `load`. The public key is read before the first `try` of this function. -/
def load (content : List UInt8) (passphrase : Passphrase) : Except Exn crypto.PrivateKey := do
  let payload ← loadPayload loads content
  let publicRaw ← unb64 (strText H (← member "public_key" payload)) 32
  let (kdf, cipher) ← objects payload
  if !isText "argon2id" ((member? "name" kdf).getD .none) ||
      !isText "chacha20-poly1305" ((member? "name" cipher).getD .none) then
    throw (.protocolError "recipient key file algorithms are unsupported")
  let s ← sealedFields H kdf cipher
  openSealed crypto passphrase publicRaw s

end RecipientKeyFile

end Polymorph
