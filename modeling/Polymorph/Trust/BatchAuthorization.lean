import Polymorph.Concurrency.Versions
import Polymorph.Trust.TrustChain

/-!
# Authorizing a batch

A batch is sealed between `begin_batch_authorization` and `confirm_batch_authorization`, outside of
every lock. The authorization keeps the certificate with the revision of the head and the
fingerprint of the file; a batch whose confirmation returns was sealed while its certificate was the
published one, all the time.
-/

set_option autoImplicit false

namespace Polymorph

open Utc

/-- `RecipientKeyBatchAuthorization` -/
structure RecipientKeyBatchAuthorization (env : RecipientEnvironment) where
  certificate : RecipientKeyCertificate env
  storeToken : Nat
  headRevision : Nat
  stateFingerprint : Option Nat

namespace RecipientKeyTrustStore

variable {env : RecipientEnvironment} (store : RecipientKeyTrustStore)

/-! ## The calls -/

/-- `authorize` -/
def authorize (tenant destinationConnector : String) (locked : Option Exn) (head : TrustHead env)
    (file : Option StateFile) (now : Instant) : Except Exn (RecipientKeyCertificate env) := do
  if tenant ≠ store.tenant ∨ destinationConnector ≠ store.destinationConnector then
    throw (.integrityError "recipient key trust store is bound to a different route")
  store.current locked now head file

/-- `begin_batch_authorization` -/
def beginBatchAuthorization (tenant destinationConnector : String) (locked : Option Exn)
    (object : StoreObject env) (file : Option StateFile) :
    Except Exn (RecipientKeyBatchAuthorization env) := do
  if tenant ≠ store.tenant ∨ destinationConnector ≠ store.destinationConnector then
    throw (.integrityError "recipient key trust store is bound to a different route")
  let certificate ← store.refreshCurrent locked object.head file
  let refreshed := store.refreshedObject locked object file
  return ⟨certificate, object.token, refreshed.revision, refreshed.head.fingerprint⟩

/-- `authorize_batch_record` on the store object with this token. -/
def authorizeBatchRecord (token : Nat) (authorization : RecipientKeyBatchAuthorization env)
    (now : Instant) : Except Exn (RecipientKeyCertificate env) := do
  if authorization.storeToken ≠ token then
    throw (.integrityError "recipient batch authorization belongs to another trust store")
  verifyCurrentValidity authorization.certificate now
  return authorization.certificate

/-- `confirm_batch_authorization` -/
def confirmBatchAuthorization (locked : Option Exn) (object : StoreObject env)
    (file : Option StateFile) (authorization : RecipientKeyBatchAuthorization env) :
    Except Exn Unit := do
  if authorization.storeToken ≠ object.token then
    throw (.integrityError "recipient batch authorization belongs to another trust store")
  let certificate ← store.refreshCurrent locked object.head file
  let refreshed := store.refreshedObject locked object file
  if refreshed.revision ≠ authorization.headRevision ∨
      refreshed.head.fingerprint ≠ authorization.stateFingerprint ∨
      certificate.toCertificateFields ≠ authorization.certificate.toCertificateFields then
    throw (.integrityError "recipient key trust head changed during source batch")

/-! ## What an authorization says -/

variable {store} {ι : Type} {w : SharedTrust ι env} {i : ι} {object : StoreObject env}
  {locked : Option Exn} {authorization : RecipientKeyBatchAuthorization env}
  {tenant destinationConnector : String}

/-- An authorization has the last published certificate and the version of the file. -/
theorem SharedInv.begun (h : SharedInv store w) (hobject : w.objects i = some object)
    (hbegin : store.beginBatchAuthorization tenant destinationConnector locked object w.file =
      .ok authorization) :
    w.published.getLast? = some authorization.certificate ∧
      authorization.storeToken = object.token ∧
      ∃ file, w.file = some file ∧ authorization.stateFingerprint = some file.fingerprint := by
  unfold beginBatchAuthorization at hbegin
  obtain ⟨-, hbegin⟩ := guard_eq_ok hbegin
  obtain ⟨certificate, hcertificate, hbegin⟩ := bind_eq_ok hbegin
  obtain ⟨-, hlast, file, hfile, hfingerprint⟩ := h.refreshCurrent hobject hcertificate
  cases hbegin
  exact ⟨hlast, rfl, file, hfile, hfingerprint⟩

/-- A confirmed authorization has the version of the file. -/
theorem SharedInv.confirmed (h : SharedInv store w) (hobject : w.objects i = some object)
    (hconfirm : store.confirmBatchAuthorization locked object w.file authorization = .ok ()) :
    authorization.storeToken = object.token ∧
      ∃ file, w.file = some file ∧ authorization.stateFingerprint = some file.fingerprint := by
  unfold confirmBatchAuthorization at hconfirm
  obtain ⟨htoken, hconfirm⟩ := guard_eq_ok hconfirm
  obtain ⟨certificate, hcertificate, hconfirm⟩ := bind_eq_ok hconfirm
  obtain ⟨-, -, file, hfile, hfingerprint⟩ := h.refreshCurrent hobject hcertificate
  refine ⟨not_not.mp htoken, file, hfile, ?_⟩
  -- The confirmation refreshes first, so that the head has the version of the file.
  have hstate : (store.refreshedObject locked object w.file).head.fingerprint =
      authorization.stateFingerprint := by
    by_contra hchanged
    rw [if_pos (.inr (.inl hchanged))] at hconfirm
    cases hconfirm
  rw [← hstate]
  exact hfingerprint

/-! ## An unchanged head -/

/-- A head with the version of the file is not read again. -/
theorem refreshedObject_same {file : StateFile}
    (hversion : object.head.fingerprint = some file.fingerprint) :
    store.refreshedObject none object (some file) = object := by
  unfold refreshedObject refreshedHead refresh reloadStateIfChanged reloadRevisions
  dsimp only
  rw [if_pos hversion, if_pos hversion]
  rfl

theorem refreshCurrent_same {file : StateFile} {certificate : RecipientKeyCertificate env}
    (hversion : object.head.fingerprint = some file.fingerprint)
    (hcurrent : object.head.current = some certificate) :
    store.refreshCurrent none object.head (some file) = .ok certificate := by
  unfold RecipientKeyTrustStore.refreshCurrent reloadStateIfChanged
  dsimp only [pure_bind]
  rw [if_pos hversion, ok_bind, hcurrent]
  rfl

/-- An authorization on an unchanged head. -/
theorem beginBatchAuthorization_same {file : StateFile} {certificate : RecipientKeyCertificate env}
    (hversion : object.head.fingerprint = some file.fingerprint)
    (hcurrent : object.head.current = some certificate) :
    store.beginBatchAuthorization store.tenant store.destinationConnector none object (some file) =
      .ok ⟨certificate, object.token, object.revision, object.head.fingerprint⟩ := by
  have hroute : ¬(store.tenant ≠ store.tenant ∨
      store.destinationConnector ≠ store.destinationConnector) := by
    rintro (h | h)
    · exact h rfl
    · exact h rfl
  unfold beginBatchAuthorization
  rw [if_neg hroute, refreshCurrent_same hversion hcurrent, ok_bind, refreshedObject_same hversion]
  rfl

/-- Its confirmation on the same head. -/
theorem confirmBatchAuthorization_same {file : StateFile}
    {certificate : RecipientKeyCertificate env}
    (hversion : object.head.fingerprint = some file.fingerprint)
    (hcurrent : object.head.current = some certificate) :
    store.confirmBatchAuthorization none object (some file)
      ⟨certificate, object.token, object.revision, object.head.fingerprint⟩ = .ok () := by
  have hsame : ¬(object.revision ≠ object.revision ∨
      object.head.fingerprint ≠ object.head.fingerprint ∨
      certificate.toCertificateFields ≠ certificate.toCertificateFields) := by
    rintro (h | h | h)
    · exact h rfl
    · exact h rfl
    · exact h rfl
  unfold confirmBatchAuthorization
  rw [if_neg (not_not.mpr rfl), refreshCurrent_same hversion hcurrent, ok_bind,
    refreshedObject_same hversion, if_neg hsame]
  rfl

/-! ## The published state as a versioned part -/

variable [DecidableEq ι]

/-- The file with the certificates that were published to it. -/
def publishedState (w : SharedTrust ι env) :
    Option StateFile × List (RecipientKeyCertificate env) :=
  (w.file, w.published)

/-- The version of a published state. -/
def stateVersion (state : Option StateFile × List (RecipientKeyCertificate env)) : Option Nat :=
  state.1.map StateFile.fingerprint

/-- What a step does to the published state. -/
theorem sharedStep_publishedState (h : SharedInv store w)
    (action : SharedStep ι env) :
    (publishedState (store.sharedStep w action) = publishedState w ∨
      ∃ n, stateVersion (publishedState (store.sharedStep w action)) = some n ∧ w.versions ≤ n) ∧
    w.versions ≤ (store.sharedStep w action).versions := by
  cases action with
  | opened i =>
      unfold sharedStep
      dsimp only
      split <;> exact ⟨.inl rfl, Nat.le_refl _⟩
  | refreshed i locked =>
      unfold sharedStep
      dsimp only
      split <;> exact ⟨.inl rfl, Nat.le_refl _⟩
  | accept i call =>
      cases hobject : w.objects i with
      | none =>
          unfold sharedStep
          dsimp only
          rw [hobject]
          exact ⟨.inl rfl, Nat.le_refl _⟩
      | some object =>
          have hversions := sharedStep_accept_versions store hobject call
          have heffect := accept_effect store call w.versions object.head w.file
          generalize hafter : store.accept call w.versions object.head w.file = after at heffect
          refine ⟨?_, Nat.le_trans (Nat.le_succ _) hversions.ge⟩
          cases heffect with
          | wrote _ _ _ =>
              -- The file that a call writes has the next version.
              right
              refine ⟨w.versions, ?_, Nat.le_refl _⟩
              unfold publishedState stateVersion
              rw [(sharedStep_wrote hobject (by rw [hafter])).2]
              rfl
          | _ =>
              left
              have hkept := sharedStep_kept h hobject (by rw [hafter])
              unfold publishedState
              rw [hkept.1, hkept.2]

theorem versioned_publishedState (store : RecipientKeyTrustStore) :
    Versions.Versioned (@sharedStep env store ι _) (SharedInv store) publishedState
      stateVersion SharedTrust.versions where
  inv _ action h := sharedInv_step h action
  used w h n hn := by
    unfold publishedState stateVersion at hn
    cases hfile : w.file with
    | none =>
        rw [hfile] at hn
        cases hn
    | some file =>
        rw [hfile] at hn
        cases hn
        exact h.fileVersion file hfile
  rises _ action h := (sharedStep_publishedState h action).2
  moves _ action h := (sharedStep_publishedState h action).1

/-- **The certificate of a confirmed batch was the published one all the time**: from the start of
the authorization to its confirmation no state had another file or another last certificate. -/
theorem published_throughout {actions more : List (SharedStep ι env)} {j : ι}
    {later : StoreObject env} {confirming : Option Exn}
    (hobject : (store.sharedRun actions).objects i = some object)
    (hbegin : store.beginBatchAuthorization tenant destinationConnector locked object
      (store.sharedRun actions).file = .ok authorization)
    (hlater : (store.sharedRun (actions ++ more)).objects j = some later)
    (hconfirm : store.confirmBatchAuthorization confirming later
      (store.sharedRun (actions ++ more)).file authorization = .ok ())
    {between : List (SharedStep ι env)} (hbetween : between <+: more) :
    (store.sharedRun (actions ++ between)).file = (store.sharedRun actions).file ∧
      (store.sharedRun (actions ++ between)).published.getLast? =
        some authorization.certificate := by
  have hinv : SharedInv store (store.sharedRun actions) := sharedInv_run actions
  obtain ⟨hlast, -, file, hfile, hfingerprint⟩ := hinv.begun hobject hbegin
  obtain ⟨-, file', hfile', hfingerprint'⟩ :=
    (sharedInv_run (actions ++ more)).confirmed hlater hconfirm
  -- One version at the start and at the end: no step between them has moved the file.
  have hsame : publishedState (store.sharedRun (actions ++ between)) =
      publishedState (store.sharedRun actions) := by
    rw [sharedRun_append]
    refine (versioned_publishedState store).unmoved (n := file.fingerprint) more _ hinv ?_ ?_
      between hbetween
    · unfold publishedState stateVersion
      rw [hfile]
      rfl
    · rw [← sharedRun_append]
      unfold publishedState stateVersion
      rw [hfile', ← hfingerprint, hfingerprint']
      rfl
  refine ⟨congrArg Prod.fst hsame, ?_⟩
  rw [show (store.sharedRun (actions ++ between)).published = (store.sharedRun actions).published
    from congrArg Prod.snd hsame]
  exact hlast

end RecipientKeyTrustStore

end Polymorph
