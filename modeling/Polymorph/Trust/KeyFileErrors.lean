import Polymorph.Trust.KeyFile
import Polymorph.Inspection.TextProbe
import Polymorph.StandardHost

/-!
# Exceptions of a key file

Which exceptions reading a key file lets out. Two of them come from `json.loads` and pass the
`except` clause of `_load_payload`; a third one is the `KeyError` of `load` for a file without a
public key. Every other one is a `PolymorphError`.
-/

set_option autoImplicit false

namespace Polymorph

open JsonText

/-- `isinstance(e, PolymorphError)` -/
def Exn.isPolymorphError : Exn → Bool
  | .polymorphError _ => true
  | .policyViolation _ => true
  | .mappingAmbiguous _ => true
  | .connectorError _ => true
  | .connectorWriteError _ _ => true
  | .partialConnectorWriteError _ _ _ => true
  | .integrityError _ => true
  | .protocolError _ => true
  | .replayDetected _ => true
  | .transferExpired _ => true
  | _ => false

/-- The exception is a `PolymorphError`. -/
abbrev IsTyped (e : Exn) : Prop := e.isPolymorphError = true

namespace RecipientKeyFile

/-! ## Fields -/

theorem raises_unb64 (value : PyText) (expected : Nat) :
    Raises IsTyped (unb64 value expected) := by
  unfold unb64
  split
  · exact raises_error rfl
  · refine raises_ite (fun _ => ?_) fun _ => ?_
    · exact raises_error rfl
    · exact raises_ok _

theorem length_of_unb64 {value : PyText} {expected : Nat} {data : List UInt8}
    (h : unb64 value expected = .ok data) : data.length = expected := by
  unfold unb64 at h
  split at h
  · cases h
  · split at h
    · cases h
    · rename_i hlength
      cases h
      exact not_not.mp hlength

theorem raises_objectWithoutDuplicateKeys (pairs : List (PyText × PyValue)) (output : Members) :
    Raises IsTyped (objectWithoutDuplicateKeys output pairs) := by
  induction pairs generalizing output with
  | nil => exact raises_ok _
  | cons pair pairs ih =>
      refine raises_ite (fun _ => ?_) fun _ => ?_
      · exact raises_error rfl
      · exact ih _

theorem raises_jsonInteger (value : PyValue) (label : String) :
    Raises IsTyped (jsonInteger value label) := by
  cases value with
  | int z => exact raises_ok z
  | _ => exact raises_error rfl

/-! ## The `except` clauses of `load` -/

/-- What the second and the third `try` of `load` raise inside. -/
def IsCaught (e : Exn) : Prop :=
  IsTyped e ∨ (∃ key, e = .keyError key) ∨ (∃ m, e = .typeError m) ∨ ∃ m, e = .valueError m

theorem isCaught_of_isTyped (e : Exn) (h : IsTyped e) : IsCaught e := .inl h

theorem raises_asProtocolError {α : Type} {message : String} {x : Except Exn α}
    (h : Raises IsCaught x) : Raises IsTyped (asProtocolError message x) := by
  cases x with
  | ok a => exact raises_ok a
  | error e =>
      rcases h e rfl with htyped | ⟨key, rfl⟩ | ⟨m, rfl⟩ | ⟨m, rfl⟩
      · cases e with
        | keyError _ => exact raises_error rfl
        | typeError _ => exact raises_error rfl
        | valueError _ => exact raises_error rfl
        | _ => exact raises_error htyped
      · exact raises_error rfl
      · exact raises_error rfl
      · exact raises_error rfl

/-- What an `except` clause returns has come out of its `try`. -/
theorem asProtocolError_ok {α : Type} {message : String} {x : Except Exn α} {a : α}
    (h : asProtocolError message x = .ok a) : x = .ok a := by
  cases x with
  | ok b => exact h
  | error e => cases e <;> cases h

theorem raises_member (key : String) (members : Members) :
    Raises IsCaught (member key members) := by
  unfold member
  split
  · exact raises_ok _
  · exact raises_error (.inr (.inl ⟨_, rfl⟩))

theorem raises_make (memoryCostKib iterations lanes : Int) :
    Raises IsCaught (KeyFileParameters.make memoryCostKib iterations lanes) := by
  have hvalue : ∀ m, IsCaught (.valueError m) := fun m => .inr (.inr (.inr ⟨m, rfl⟩))
  unfold KeyFileParameters.make
  split
  · split
    · split
      · exact raises_ok _
      · exact raises_error (hvalue _)
    · exact raises_error (hvalue _)
  · exact raises_error (hvalue _)

theorem raises_objects (payload : Members) : Raises IsTyped (objects payload) := by
  apply raises_asProtocolError
  apply (raises_member _ _).bind
  intro kdf _
  apply (raises_member _ _).bind
  intro cipher _
  split
  · exact raises_ok _
  · exact raises_error (.inr (.inr (.inl ⟨_, rfl⟩)))

section Reading

variable {H : Host} {loads : HookedLoads} {crypto : KeyCryptography}

theorem raises_sealedFields (kdf cipher : Members) :
    Raises IsTyped (sealedFields H kdf cipher) := by
  have htyped : ∀ value n, Raises IsCaught (unb64 value n) :=
    fun value n => (raises_unb64 value n).mono isCaught_of_isTyped
  have hinteger : ∀ value label, Raises IsCaught (jsonInteger value label) :=
    fun value label => (raises_jsonInteger value label).mono isCaught_of_isTyped
  apply raises_asProtocolError
  refine (raises_member _ _).bind fun memoryValue _ => ?_
  refine (hinteger _ _).bind fun memoryCost _ => ?_
  refine (raises_member _ _).bind fun iterationsValue _ => ?_
  refine (hinteger _ _).bind fun iterations _ => ?_
  refine (raises_member _ _).bind fun lanesValue _ => ?_
  refine (hinteger _ _).bind fun lanes _ => ?_
  refine (raises_make _ _ _).bind fun params _ => ?_
  refine (raises_member _ _).bind fun saltValue _ => ?_
  refine (htyped _ _).bind fun salt _ => ?_
  refine (raises_member _ _).bind fun nonceValue _ => ?_
  refine (htyped _ _).bind fun nonce _ => ?_
  refine (raises_member _ _).bind fun ciphertextValue _ => ?_
  refine (htyped _ _).bind fun ciphertext _ => ?_
  exact raises_pure _

/-- The sizes that the fields of a file have. -/
theorem sizes_of_sealedFields {kdf cipher : Members} {s : Sealed}
    (h : sealedFields H kdf cipher = .ok s) :
    s.salt.length = 16 ∧ s.nonce.length = 12 ∧ s.ciphertext.length = 48 := by
  have hinside := asProtocolError_ok h
  obtain ⟨_, -, hinside⟩ := bind_eq_ok hinside
  obtain ⟨_, -, hinside⟩ := bind_eq_ok hinside
  obtain ⟨_, -, hinside⟩ := bind_eq_ok hinside
  obtain ⟨_, -, hinside⟩ := bind_eq_ok hinside
  obtain ⟨_, -, hinside⟩ := bind_eq_ok hinside
  obtain ⟨_, -, hinside⟩ := bind_eq_ok hinside
  obtain ⟨params, -, hinside⟩ := bind_eq_ok hinside
  obtain ⟨_, -, hinside⟩ := bind_eq_ok hinside
  obtain ⟨salt, hsalt, hinside⟩ := bind_eq_ok hinside
  obtain ⟨_, -, hinside⟩ := bind_eq_ok hinside
  obtain ⟨nonce, hnonce, hinside⟩ := bind_eq_ok hinside
  obtain ⟨_, -, hinside⟩ := bind_eq_ok hinside
  obtain ⟨ciphertext, hciphertext, hinside⟩ := bind_eq_ok hinside
  cases hinside
  exact ⟨length_of_unb64 hsalt, length_of_unb64 hnonce, length_of_unb64 hciphertext⟩

/-! ## The private key -/

theorem raises_derive {passphrase salt : List UInt8} (hsalt : salt.length = 16)
    (params : KeyFileParameters) : Raises IsTyped (derive crypto passphrase salt params) := by
  unfold derive
  split
  · exact raises_ok _
  · exact raises_error rfl
  · rename_i fault hfault heq
    obtain ⟨hmemory, -⟩ := params.memoryCost_supported
    obtain ⟨hiterations, -⟩ := params.iterations_supported
    obtain ⟨hlanes, hlanes'⟩ := params.lanes_supported
    exact absurd (crypto.argon2id_faults _ _ _ _ _ _ _ (by omega) hiterations hlanes (by omega) heq)
      hfault

theorem length_of_derive {passphrase salt key : List UInt8} {params : KeyFileParameters}
    (h : derive crypto passphrase salt params = .ok key) : key.length = 32 := by
  unfold derive at h
  split at h
  · rename_i heq
    cases h
    exact crypto.argon2id_length _ _ _ _ _ _ _ heq
  · cases h
  · cases h

theorem raises_decrypt {key nonce : List UInt8} (hkey : key.length = 32)
    (hnonce : nonce.length = 12) (ciphertext aad : List UInt8) :
    Raises IsTyped (decrypt crypto key nonce ciphertext aad) := by
  unfold decrypt
  split
  · exact raises_ok _
  · exact raises_error rfl
  · rename_i fault hfault heq
    exact absurd (crypto.decrypt_faults _ _ _ _ _ hkey hnonce heq) hfault

theorem length_of_decrypt {key nonce ciphertext aad plaintext : List UInt8}
    (h : decrypt crypto key nonce ciphertext aad = .ok plaintext) :
    plaintext.length + 16 = ciphertext.length := by
  unfold decrypt at h
  split at h
  · rename_i heq
    cases h
    exact crypto.decrypt_length _ _ _ _ _ heq
  · cases h
  · cases h

theorem raises_fromPrivateBytes {raw : List UInt8} (h : raw.length = 32) :
    Raises IsTyped (fromPrivateBytes crypto raw) := by
  obtain ⟨key, hkey⟩ := crypto.fromPrivateBytes_ok raw h
  unfold fromPrivateBytes
  rw [hkey]
  exact raises_ok key

/-- With a passphrase long enough and fields of the right sizes, opening the private key raises
nothing but a `PolymorphError`. -/
theorem raises_openSealed {passphrase : Passphrase} (hpassphrase : 12 ≤ passphrase.encoded.length)
    (publicRaw : List UInt8) {s : Sealed}
    (hs : s.salt.length = 16 ∧ s.nonce.length = 12 ∧ s.ciphertext.length = 48) :
    Raises IsTyped (openSealed crypto passphrase publicRaw s) := by
  obtain ⟨hsalt, hnonce, hciphertext⟩ := hs
  have hbytes : passphraseBytes passphrase = .ok passphrase.encoded :=
    if_neg (Nat.not_lt.mpr hpassphrase)
  unfold openSealed
  rw [hbytes, ok_bind]
  apply (raises_derive hsalt s.params).bind
  intro key hkey
  apply (raises_decrypt (length_of_derive hkey) hnonce _ _).bind
  intro privateRaw hprivate
  have hlength := length_of_decrypt hprivate
  apply (raises_fromPrivateBytes (by omega)).bind
  intro privateKey _
  exact raises_guard rfl (raises_pure _)

theorem publicBytes_of_openSealed {passphrase : Passphrase} {publicRaw : List UInt8} {s : Sealed}
    {privateKey : crypto.PrivateKey}
    (h : openSealed crypto passphrase publicRaw s = .ok privateKey) :
    crypto.publicBytes privateKey = publicRaw := by
  unfold openSealed at h
  obtain ⟨_, -, h⟩ := bind_eq_ok h
  obtain ⟨_, -, h⟩ := bind_eq_ok h
  obtain ⟨_, -, h⟩ := bind_eq_ok h
  obtain ⟨privateKey', -, h⟩ := bind_eq_ok h
  obtain ⟨hsame, h⟩ := guard_eq_ok h
  cases h
  exact not_not.mp hsame

/-! ## The document -/

/-- `json.loads` raises neither of the two exceptions that `_load_payload` does not catch. -/
def Parses (loads : HookedLoads) (text : String) : Prop :=
  loads.run hook text ≠ .error .recursionError ∧ loads.run hook text ≠ .error .longInteger

theorem raises_parse_iff {text : String} :
    Raises IsTyped (parse loads text) ↔ Parses loads text := by
  unfold parse Parses
  cases hrun : loads.run hook text with
  | ok payload => exact ⟨fun _ => ⟨nofun, nofun⟩, fun _ => raises_ok payload⟩
  | error fault =>
      cases fault with
      | decodeError => exact ⟨fun _ => ⟨nofun, nofun⟩, fun _ => raises_error rfl⟩
      | recursionError =>
          constructor
          · intro h
            exact absurd (h _ rfl) Bool.false_ne_true
          · intro h
            exact absurd rfl h.1
      | longInteger =>
          constructor
          · intro h
            exact absurd (h _ rfl) Bool.false_ne_true
          · intro h
            exact absurd rfl h.2
      | hook e =>
          obtain ⟨pairs, hpairs⟩ := loads.hook_raised _ _ _ hrun
          refine ⟨fun _ => ⟨nofun, nofun⟩, fun _ => raises_error ?_⟩
          exact raises_objectWithoutDuplicateKeys pairs [] e hpairs

theorem parse_ok {text : String} {payload : PyValue} (h : parse loads text = .ok payload) :
    loads.run hook text = .ok payload := by
  unfold parse at h
  split at h
  · rename_i heq
    cases h
    exact heq
  all_goals cases h

/-- The size limit, passed. -/
theorem loadPayload_of_size {content : List UInt8} (hsize : content.length ≤ maxKeyFileBytes)
    {text : String} (htext : ContentInspector.decodeUtf8Sig content = some text) :
    loadPayload loads content = (parse loads text >>= rootMembers) := by
  simp only [loadPayload, if_neg (Nat.not_lt.mpr hsize), htext]

theorem loadPayload_of_undecodable {content : List UInt8}
    (hsize : content.length ≤ maxKeyFileBytes)
    (htext : ContentInspector.decodeUtf8Sig content = none) :
    loadPayload loads content =
      .error (.protocolError "recipient key file is unreadable or invalid") := by
  simp only [loadPayload, if_neg (Nat.not_lt.mpr hsize), htext]

theorem raises_rootMembers (payload : PyValue) : Raises IsTyped (rootMembers payload) := by
  cases payload with
  | dict members => exact raises_ite (fun _ => raises_ok _) fun _ => raises_error rfl
  | _ => exact raises_error rfl

theorem rootMembers_ok {payload : PyValue} {members : Members}
    (h : rootMembers payload = .ok members) :
    payload = .dict members ∧ hasFormat members = true := by
  cases payload with
  | dict members' =>
      rw [rootMembers] at h
      split at h
      · rename_i hformat
        cases h
        exact ⟨rfl, hformat⟩
      · cases h
  | _ => cases h

theorem raises_loadPayload_iff {content : List UInt8}
    (hsize : content.length ≤ maxKeyFileBytes) :
    Raises IsTyped (loadPayload loads content) ↔
      ∀ text, ContentInspector.decodeUtf8Sig content = some text → Parses loads text := by
  cases htext : ContentInspector.decodeUtf8Sig content with
  | none =>
      rw [loadPayload_of_undecodable hsize htext]
      exact ⟨fun _ _ h => (nomatch h), fun _ => raises_error rfl⟩
  | some text =>
      rw [loadPayload_of_size hsize htext]
      constructor
      · intro h text' htext'
        cases htext'
        rw [← raises_parse_iff]
        intro e he
        rw [he] at h
        exact h e rfl
      · intro h
        apply (raises_parse_iff.mpr (h text rfl)).bind
        intro payload _
        exact raises_rootMembers payload

/-- A payload is an object with the format of key files. -/
theorem loadPayload_ok_iff {content : List UInt8} (hsize : content.length ≤ maxKeyFileBytes)
    {members : Members} :
    loadPayload loads content = .ok members ↔
      ∃ text, ContentInspector.decodeUtf8Sig content = some text ∧
        loads.run hook text = .ok (.dict members) ∧ hasFormat members = true := by
  constructor
  · intro h
    cases htext : ContentInspector.decodeUtf8Sig content with
    | none =>
        rw [loadPayload_of_undecodable hsize htext] at h
        cases h
    | some text =>
        rw [loadPayload_of_size hsize htext] at h
        obtain ⟨payload, hparse, h⟩ := bind_eq_ok h
        obtain ⟨rfl, hformat⟩ := rootMembers_ok h
        exact ⟨text, rfl, parse_ok hparse, hformat⟩
  · rintro ⟨text, htext, hrun, hformat⟩
    have hparse : parse loads text = .ok (.dict members) := by
      unfold parse
      rw [hrun]
    rw [loadPayload_of_size hsize htext, hparse, ok_bind]
    exact if_pos hformat

/-! ## What a call lets out -/

/-- What reading a key file promises: the private key of the public key in the file or a
`PolymorphError`, and 32 bytes or a `PolymorphError`. -/
structure TypedErrors (H : Host) (loads : HookedLoads) (crypto : KeyCryptography)
    (content : List UInt8) (passphrase : Passphrase) : Prop where
  load_raises : Raises IsTyped (load H loads crypto content passphrase)
  load_returns : ∀ privateKey, load H loads crypto content passphrase = .ok privateKey →
    ∃ payload value, loadPayload loads content = .ok payload ∧
      member? "public_key" payload = some value ∧
      unb64 (strText H value) 32 = .ok (crypto.publicBytes privateKey)
  publicKey_raises : Raises IsTyped (publicKey H loads content)
  publicKey_returns : ∀ key, publicKey H loads content = .ok key → key.length = 32

/-- The content is no text, or a text on which `json.loads` raises neither `RecursionError` nor
the `ValueError` of the digit limit and that is no key file without a public key. -/
structure Handled (loads : HookedLoads) (content : List UInt8) : Prop where
  parses : ∀ text, ContentInspector.decodeUtf8Sig content = some text → Parses loads text
  hasPublicKey : ∀ text members, ContentInspector.decodeUtf8Sig content = some text →
    loads.run hook text = .ok (.dict members) → hasFormat members = true →
    (member? "public_key" members).isSome = true

variable {content : List UInt8} {passphrase : Passphrase}

theorem raises_publicKey (h : Raises IsTyped (loadPayload loads content)) :
    Raises IsTyped (publicKey H loads content) := by
  apply h.bind
  intro payload _
  split
  · exact raises_throw rfl
  · exact raises_unb64 _ _

theorem length_of_publicKey {key : List UInt8} (h : publicKey H loads content = .ok key) :
    key.length = 32 := by
  obtain ⟨payload, -, h⟩ := bind_eq_ok h
  split at h
  · cases h
  · exact length_of_unb64 h

theorem raises_load (hsize : content.length ≤ maxKeyFileBytes)
    (hpassphrase : 12 ≤ passphrase.encoded.length) (h : Handled loads content) :
    Raises IsTyped (load H loads crypto content passphrase) := by
  apply ((raises_loadPayload_iff hsize).mpr h.parses).bind
  intro payload hpayload
  obtain ⟨text, htext, hrun, hformat⟩ := (loadPayload_ok_iff hsize).mp hpayload
  obtain ⟨value, hvalue⟩ :=
    Option.isSome_iff_exists.mp (h.hasPublicKey text payload htext hrun hformat)
  have hmember : member "public_key" payload = .ok value := by
    unfold member
    rw [hvalue]
  rw [hmember, ok_bind]
  apply (raises_unb64 _ _).bind
  intro publicRaw _
  apply (raises_objects _).bind
  rintro ⟨kdf, cipher⟩ _
  refine raises_guard rfl ?_
  apply (raises_sealedFields _ _).bind
  intro s hs
  exact raises_openSealed hpassphrase _ (sizes_of_sealedFields hs)

theorem load_returns {privateKey : crypto.PrivateKey}
    (h : load H loads crypto content passphrase = .ok privateKey) :
    ∃ payload value, loadPayload loads content = .ok payload ∧
      member? "public_key" payload = some value ∧
      unb64 (strText H value) 32 = .ok (crypto.publicBytes privateKey) := by
  obtain ⟨payload, hpayload, h⟩ := bind_eq_ok h
  obtain ⟨value, hvalue, h⟩ := bind_eq_ok h
  obtain ⟨publicRaw, hpublic, h⟩ := bind_eq_ok h
  obtain ⟨⟨kdf, cipher⟩, -, h⟩ := bind_eq_ok h
  obtain ⟨-, h⟩ := guard_eq_ok h
  obtain ⟨s, -, h⟩ := bind_eq_ok h
  refine ⟨payload, value, hpayload, ?_, ?_⟩
  · unfold member at hvalue
    split at hvalue
    · rename_i heq
      cases hvalue
      exact heq
    · cases hvalue
  · rw [hpublic, publicBytes_of_openSealed h]

/-- Without a public key, `load` raises a `KeyError`. -/
theorem load_of_missing {payload : Members} (hpayload : loadPayload loads content = .ok payload)
    (hmissing : member? "public_key" payload = none) :
    load H loads crypto content passphrase = .error (.keyError "public_key") := by
  have hmember : member "public_key" payload = .error (.keyError "public_key") := by
    unfold member
    rw [hmissing]
  unfold load
  rw [hpayload, ok_bind, hmember]
  rfl

/-- **Reading a key file raises only a `PolymorphError`** exactly when `json.loads` handles its
text and a file of the right format has a public key. -/
theorem typedErrors_iff (H : Host) (loads : HookedLoads) (crypto : KeyCryptography)
    (content : List UInt8) (passphrase : Passphrase)
    (hsize : content.length ≤ maxKeyFileBytes) (hpassphrase : 12 ≤ passphrase.encoded.length) :
    TypedErrors H loads crypto content passphrase ↔ Handled loads content := by
  constructor
  · intro h
    have hload : Raises IsTyped (loadPayload loads content) := by
      intro e he
      apply h.publicKey_raises
      unfold publicKey
      rw [he]
      rfl
    refine ⟨(raises_loadPayload_iff hsize).mp hload, ?_⟩
    intro text members htext hrun hformat
    have hpayload := (loadPayload_ok_iff hsize).mpr ⟨text, htext, hrun, hformat⟩
    by_contra hmissing
    have herror := (@load_of_missing H _ crypto _ passphrase) hpayload
      (Option.not_isSome_iff_eq_none.mp hmissing)
    exact absurd (h.load_raises _ herror) Bool.false_ne_true
  · intro h
    refine ⟨raises_load hsize hpassphrase h, fun _ => load_returns, ?_, fun _ =>
      length_of_publicKey⟩
    exact raises_publicKey ((raises_loadPayload_iff hsize).mpr h.parses)

end Reading

/-! ## A key file without a public key -/

mutual

/-- The value of a document; the hook is called on every object, innermost first. -/
def hookedValue (H : Host) (hook : ObjectHook) : Json → Except JsonFault PyValue
  | .null => .ok .none
  | .bool b => .ok (.bool b)
  | .int z => .ok (.int z)
  | .real lexeme => .ok (.float (H.floatOfStr lexeme))
  | .constant name => .ok (.float (JsonFileConnector.constantFloat name))
  | .str s => .ok (.str (PyText.ofString s))
  | .arr items => do return .list (← hookedItems H hook items)
  | .obj members => do
      let pairs ← hookedPairs H hook members
      match hook pairs with
      | .ok output => .ok (.dict output)
      | .error e => .error (.hook e)

def hookedItems (H : Host) (hook : ObjectHook) : List Json → Except JsonFault (List PyValue)
  | [] => .ok []
  | j :: js => do
      let x ← hookedValue H hook j
      let xs ← hookedItems H hook js
      return x :: xs

def hookedPairs (H : Host) (hook : ObjectHook) :
    List (String × Json) → Except JsonFault (List (PyText × PyValue))
  | [] => .ok []
  | (k, j) :: rest => do
      let v ← hookedValue H hook j
      let pairs ← hookedPairs H hook rest
      return (PyText.ofString k, v) :: pairs

end

/-- A fault of two steps is one of the first or of the second. -/
theorem bind_eq_error {ε α β : Type} {x : Except ε α} {f : α → Except ε β} {e : ε}
    (h : (x >>= f) = .error e) : x = .error e ∨ ∃ a, x = .ok a ∧ f a = .error e := by
  cases x with
  | error e' =>
      cases h
      exact .inl rfl
  | ok a => exact .inr ⟨a, rfl, h⟩

section Hook

variable {H : Host} {hook : ObjectHook} {e : Exn}

mutual

theorem hookedValue_hook : ∀ j : Json, hookedValue H hook j = .error (.hook e) →
    ∃ pairs, hook pairs = .error e
  | .null, h => nomatch h
  | .bool _, h => nomatch h
  | .int _, h => nomatch h
  | .real _, h => nomatch h
  | .constant _, h => nomatch h
  | .str _, h => nomatch h
  | .arr items, h => by
      rw [hookedValue] at h
      rcases bind_eq_error h with h | ⟨_, -, h⟩
      · exact hookedItems_hook items h
      · cases h
  | .obj members, h => by
      rw [hookedValue] at h
      rcases bind_eq_error h with h | ⟨pairs, -, h⟩
      · exact hookedPairs_hook members h
      · split at h
        · cases h
        · rename_i heq
          cases h
          exact ⟨pairs, heq⟩

theorem hookedItems_hook : ∀ js : List Json, hookedItems H hook js = .error (.hook e) →
    ∃ pairs, hook pairs = .error e
  | [], h => nomatch h
  | j :: js, h => by
      rw [hookedItems] at h
      rcases bind_eq_error h with h | ⟨_, -, h⟩
      · exact hookedValue_hook j h
      · rcases bind_eq_error h with h | ⟨_, -, h⟩
        · exact hookedItems_hook js h
        · cases h

theorem hookedPairs_hook : ∀ ms : List (String × Json), hookedPairs H hook ms = .error (.hook e) →
    ∃ pairs, hook pairs = .error e
  | [], h => nomatch h
  | (_, j) :: ms, h => by
      rw [hookedPairs] at h
      rcases bind_eq_error h with h | ⟨_, -, h⟩
      · exact hookedValue_hook j h
      · rcases bind_eq_error h with h | ⟨_, -, h⟩
        · exact hookedPairs_hook ms h
        · cases h

end

end Hook

/-- `json.loads` under the default digit limit, on texts that do not reach the recursion limit. -/
def documentLoads (H : Host) : HookedLoads where
  run hook text :=
    match loads text with
    | none => .error .decodeError
    | some j => if shortIntegers j then hookedValue H hook j else .error .longInteger
  hook_raised := by
    intro hook text e h
    split at h
    · cases h
    · split at h
      · exact hookedValue_hook _ h
      · cases h

/-- A build of the cryptography package without Argon2id. -/
def withoutArgon2id : KeyCryptography where
  PrivateKey := List UInt8
  argon2id _ _ _ _ _ _ := .error .unsupportedAlgorithm
  argon2id_faults := by
    rintro _ _ _ _ _ _ fault - - - - ⟨rfl⟩
    rfl
  argon2id_length := nofun
  decrypt _ _ _ _ := .error .invalidTag
  decrypt_faults := by
    rintro _ _ _ _ fault - - ⟨rfl⟩
    rfl
  decrypt_length := nofun
  fromPrivateBytes raw := .ok raw
  fromPrivateBytes_ok raw _ := ⟨raw, rfl⟩
  publicBytes raw := raw

/-- The format and the version of key files, and nothing else. -/
def bareDocument : Json := .obj [("format", .str keyFileFormat), ("version", .int 1)]

/-- A key file of them. -/
def bareFile : List UInt8 := utf8Bytes (compact.text bareDocument).toList

def bareMembers : Members :=
  [(.str (PyText.ofString "format"), .str (PyText.ofString keyFileFormat)),
    (.str (PyText.ofString "version"), .int 1)]

theorem decodeUtf8Sig_bareFile :
    ContentInspector.decodeUtf8Sig bareFile = some (compact.text bareDocument) := by
  have hstart : ∃ rest, (compact.text bareDocument).toList = '\x7b' :: rest := by
    rw [Layout.text, String.toList_ofList]
    exact ⟨_, rfl⟩
  obtain ⟨rest, hrest⟩ := hstart
  rw [bareFile, ContentInspector.decodeUtf8Sig_utf8Bytes_of_cons hrest (by decide),
    String.ofList_toList]

theorem run_bareDocument (H : Host) :
    (documentLoads H).run hook (compact.text bareDocument) = .ok (.dict bareMembers) := by
  have hload := compact.loads_text (j := bareDocument) rfl (.inl rfl)
  rw [String.ofList_nil, String.append_empty] at hload
  have hshort : shortIntegers bareDocument = true := by decide +kernel
  have hvalue : hookedValue H hook bareDocument = .ok (.dict bareMembers) := rfl
  simp only [documentLoads, hload, hshort, hvalue, if_true]

theorem load_bareFile (H : Host) (crypto : KeyCryptography) (passphrase : Passphrase)
    (hsize : bareFile.length ≤ maxKeyFileBytes) :
    load H (documentLoads H) crypto bareFile passphrase = .error (.keyError "public_key") := by
  have hpayload := (loadPayload_ok_iff hsize).mpr
    ⟨_, decodeUtf8Sig_bareFile, run_bareDocument H, by decide⟩
  exact load_of_missing hpayload (by decide)

/-- A passphrase. -/
def samplePassphrase : Passphrase := .text "correct horse"

theorem typedErrors_iff_bareFile :
    bareFile.length ≤ maxKeyFileBytes ∧ 12 ≤ samplePassphrase.encoded.length ∧
      (TypedErrors standardHost (documentLoads standardHost) withoutArgon2id bareFile
        samplePassphrase ↔ Handled (documentLoads standardHost) bareFile) :=
  have hsize : bareFile.length ≤ maxKeyFileBytes := by decide +kernel
  have hpassphrase : 12 ≤ samplePassphrase.encoded.length := by decide +kernel
  ⟨hsize, hpassphrase, typedErrors_iff _ _ _ _ _ hsize hpassphrase⟩

/-- A key file of a format and a version makes `load` raise a `KeyError`. -/
theorem missing_publicKey_escapes :
    bareFile.length ≤ maxKeyFileBytes ∧ 12 ≤ samplePassphrase.encoded.length ∧
      load standardHost (documentLoads standardHost) withoutArgon2id bareFile samplePassphrase =
        .error (.keyError "public_key") ∧
      ¬TypedErrors standardHost (documentLoads standardHost) withoutArgon2id bareFile
        samplePassphrase := by
  have hsize : bareFile.length ≤ maxKeyFileBytes := by decide +kernel
  have hload := load_bareFile standardHost withoutArgon2id samplePassphrase hsize
  refine ⟨hsize, by decide +kernel, hload, ?_⟩
  intro h
  exact absurd (h.load_raises _ hload) Bool.false_ne_true

end RecipientKeyFile

end Polymorph
