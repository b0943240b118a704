import Polymorph.Trust.RecipientTrustRuns

/-!
# Stores that share a state path

Any number of store objects, in any number of processes, are pinned to one identity and route and
use one state path, whose lock serialises their calls. An object is created, or created again after
a restart, from the state file; it accepts certificates, and it refreshes its head for `current`
and for the authorization of a batch. Nobody else writes the file.

The history of the published certificates is kept beside the state.
-/

set_option autoImplicit false

namespace Polymorph

open JsonText Utc

namespace RecipientKeyTrustStore

variable {env : RecipientEnvironment} (store : RecipientKeyTrustStore)

/-! ## Calls that refresh the head -/

/-- `_refresh_current_locked`: the trusted certificate, with what the checks of the path and the
lock raise. -/
def refreshCurrent (locked : Option Exn) (head : TrustHead env) (file : Option StateFile) :
    Except Exn (RecipientKeyCertificate env) := do
  if let some e := locked then throw e
  match file with
  | none => throw (.integrityError "recipient key trust state is not initialized")
  | some file =>
      let head ← store.reloadStateIfChanged head file
      match head.current with
      | none => throw (.integrityError "recipient key trust store is not initialized")
      | some certificate => return certificate

/-- The head after `_refresh_current_locked`. -/
def refreshedHead (locked : Option Exn) (head : TrustHead env) (file : Option StateFile) :
    TrustHead env :=
  match locked with
  | some _ => head
  | none => store.refresh head file

/-- `current` -/
def current (locked : Option Exn) (now : Instant) (head : TrustHead env)
    (file : Option StateFile) : Except Exn (RecipientKeyCertificate env) := do
  let certificate ← store.refreshCurrent locked head file
  verifyCurrentValidity certificate now
  return certificate

/-! ## Head revisions -/

/-- How often `_reload_state_if_changed` advances `_head_revision`. -/
def reloadRevisions (locked : Option Exn) (head : TrustHead env) (file : Option StateFile) : Nat :=
  match locked, file with
  | none, some file =>
      if head.fingerprint = some file.fingerprint then 0
      else
        match (store.headOf file : Except Exn (TrustHead env)) with
        | .ok _ => 1
        | .error _ => 0
  | _, _ => 0

/-- How often `accept` advances `_head_revision`: for a reload, and for a new certificate. -/
def acceptRevisions (call : AcceptCall env) (head : TrustHead env) (file : Option StateFile) : Nat :=
  store.reloadRevisions call.locked head file +
    match store.lockedHead call head file with
    | .error _ => 0
    | .ok locked =>
        match store.acceptTransition locked call.certificate call.now with
        | .ok (some _) => 1
        | _ => 0

/-! ## The shared state -/

/-- A store object: its head, `_head_revision` and `_batch_authorization_token`. -/
structure StoreObject (env : RecipientEnvironment) where
  head : TrustHead env
  revision : Nat
  token : Nat

/-- An object after `_refresh_current_locked`. -/
def refreshedObject (locked : Option Exn) (object : StoreObject env) (file : Option StateFile) :
    StoreObject env :=
  { object with
    head := store.refreshedHead locked object.head file
    revision := object.revision + store.reloadRevisions locked object.head file }

/-- The store objects with the number of those created so far, the file with the number of its
versions so far, and the certificates that were published to it, the first one first. -/
structure SharedTrust (ι : Type) (env : RecipientEnvironment) where
  objects : ι → Option (StoreObject env) := fun _ => none
  tokens : Nat := 0
  file : Option StateFile := none
  versions : Nat := 0
  published : List (RecipientKeyCertificate env) := []

/-- What happens to the shared state. -/
inductive SharedStep (ι : Type) (env : RecipientEnvironment) where
  /-- The constructor; an object that cannot be created leaves things as they are. -/
  | opened (i : ι)
  | accept (i : ι) (call : AcceptCall env)
  /-- `current`, or `begin_batch_authorization` or `confirm_batch_authorization` -/
  | refreshed (i : ι) (locked : Option Exn)

variable {ι : Type} [DecidableEq ι]

/-- `_head_revision` after the constructor. -/
def openedRevision (file : Option StateFile) : Nat :=
  match file with
  | none => 0
  | some _ => 1

/-- One step. A version of the file has a fingerprint of its own, so a call has published when the
file has the fingerprint of the call. -/
def sharedStep (w : SharedTrust ι env) : SharedStep ι env → SharedTrust ι env
  | .opened i =>
      match store.openState w.file with
      | .error _ => w
      | .ok head =>
          { w with
            objects := Function.update w.objects i (some ⟨head, openedRevision w.file, w.tokens⟩)
            tokens := w.tokens + 1 }
  | .accept i call =>
      match w.objects i with
      | none => w
      | some object =>
          let after := store.accept call w.versions object.head w.file
          { objects := Function.update w.objects i (some { object with
              head := after.2.1
              revision := object.revision + store.acceptRevisions call object.head w.file })
            tokens := w.tokens
            file := after.2.2
            versions := w.versions + 1
            published :=
              if after.2.2.map StateFile.fingerprint = some w.versions then
                w.published ++ [call.certificate]
              else w.published }
  | .refreshed i locked =>
      match w.objects i with
      | none => w
      | some object =>
          { w with
            objects :=
              Function.update w.objects i (some (store.refreshedObject locked object w.file)) }

/-- The state after some steps, from a path without a file. -/
def sharedRun (actions : List (SharedStep ι env)) : SharedTrust ι env :=
  actions.foldl store.sharedStep {}

theorem sharedRun_append (actions more : List (SharedStep ι env)) :
    store.sharedRun (actions ++ more) = more.foldl store.sharedStep (store.sharedRun actions) :=
  List.foldl_append

theorem sharedRun_concat (actions : List (SharedStep ι env)) (action : SharedStep ι env) :
    store.sharedRun (actions ++ [action]) = store.sharedStep (store.sharedRun actions) action :=
  store.sharedRun_append actions [action]

/-! ## Chains of certificates -/

/-- A certificate continues another one. -/
structure Continues (certificate next : RecipientKeyCertificate env) : Prop where
  previous : next.previousKeyId = some certificate.keyId
  issued : ¬next.issuedAt < certificate.issuedAt

/-- The certificates of a route, from the first one on. -/
structure Rotation (certificates : List (RecipientKeyCertificate env)) : Prop where
  verified : ∀ c ∈ certificates, store.verifyCertificate c = .ok ()
  first : ∀ c, certificates.head? = some c → c.previousKeyId = none
  generations : ∀ (k : Nat) (c : RecipientKeyCertificate env),
    certificates[k]? = some c → c.generation = k + 1
  continues : certificates.IsChain Continues
  distinct : (certificates.map RecipientKeyCertificate.keyId).Nodup

/-- The key ids of some certificates. -/
def keyIds (certificates : List (RecipientKeyCertificate env)) : Finset String :=
  (certificates.map RecipientKeyCertificate.keyId).toFinset

theorem keyIds_concat (certificates : List (RecipientKeyCertificate env))
    (c : RecipientKeyCertificate env) :
    keyIds (certificates ++ [c]) = insert c.keyId (keyIds certificates) := by
  unfold keyIds
  ext id
  simp

theorem rotation_nil : store.Rotation ([] : List (RecipientKeyCertificate env)) where
  verified _ hc := absurd hc List.not_mem_nil
  first _ hc := by cases hc
  generations _ _ hc := by cases hc
  continues := .nil
  distinct := List.nodup_nil

/-- What a certificate passed that changes the head. -/
structure Successor (head : TrustHead env) (certificate : RecipientKeyCertificate env) : Prop where
  verified : store.verifyCertificate certificate = .ok ()
  first : head.current = none → certificate.generation = 1 ∧ certificate.previousKeyId = none
  continues : ∀ c, head.current = some c →
    certificate.generation = c.generation + 1 ∧ Continues c certificate
  fresh : certificate.keyId ∉ head.usedKeyIds

theorem successor_of_acceptTransition {store : RecipientKeyTrustStore} {head next : TrustHead env}
    {certificate : RecipientKeyCertificate env} {now : Instant}
    (h : store.acceptTransition head certificate now = .ok (some next)) :
    next = advanced head certificate ∧ store.Successor head certificate := by
  unfold acceptTransition at h
  obtain ⟨⟨⟩, hverified, h⟩ := bind_eq_ok h
  obtain ⟨_, -, h⟩ := bind_eq_ok h
  cases hcurrent : head.current with
  | none =>
      rw [hcurrent] at h
      obtain ⟨hstart, h⟩ := guard_eq_ok h
      obtain ⟨hempty, h⟩ := guard_eq_ok h
      cases h
      obtain ⟨hgeneration, hprevious⟩ := not_or.mp hstart
      refine ⟨rfl, hverified, fun _ => ⟨not_not.mp hgeneration, not_not.mp hprevious⟩, ?_, ?_⟩
      · intro c hc
        rw [hcurrent] at hc
        cases hc
      · rw [not_not.mp hempty]
        exact Finset.notMem_empty _
  | some current =>
      rw [hcurrent] at h
      dsimp only at h
      by_cases hsame : certificate.toCertificateFields = current.toCertificateFields
      · rw [if_pos hsame] at h
        cases h
      · rw [if_neg hsame] at h
        obtain ⟨-, h⟩ := guard_eq_ok h
        obtain ⟨hgeneration, h⟩ := guard_eq_ok h
        obtain ⟨hprevious, h⟩ := guard_eq_ok h
        obtain ⟨hissued, h⟩ := guard_eq_ok h
        obtain ⟨hfresh, h⟩ := guard_eq_ok h
        obtain ⟨-, h⟩ := guard_eq_ok h
        cases h
        refine ⟨rfl, hverified, ?_, ?_, hfresh⟩
        · intro hnone
          rw [hcurrent] at hnone
          cases hnone
        · intro c hc
          rw [hcurrent] at hc
          cases hc
          exact ⟨not_not.mp hgeneration, not_not.mp hprevious, hissued⟩

/-- The next certificate of a route. -/
theorem Rotation.concat {store : RecipientKeyTrustStore}
    {certificates : List (RecipientKeyCertificate env)} (h : store.Rotation certificates)
    {head : TrustHead env} {certificate : RecipientKeyCertificate env}
    (hcurrent : head.current = certificates.getLast?)
    (hused : head.usedKeyIds = keyIds certificates) (hnext : store.Successor head certificate) :
    store.Rotation (certificates ++ [certificate]) where
  verified := by
    intro c hc
    rcases List.mem_append.mp hc with hc | hc
    · exact h.verified c hc
    · rw [List.mem_singleton.mp hc]
      exact hnext.verified
  -- The first certificate is the new one exactly when there was none.
  first := by
    intro c hc
    cases certificates with
    | nil =>
        cases hc
        exact (hnext.first hcurrent).2
    | cons d rest => exact h.first c hc
  generations := by
    intro k c hc
    rcases Nat.lt_trichotomy k certificates.length with hk | hk | hk
    · rw [List.getElem?_append_left hk] at hc
      exact h.generations k c hc
    · -- The new certificate is one generation above the last one, if there is one.
      subst hk
      rw [List.getElem?_concat_length] at hc
      cases hc
      cases hlast : certificates.getLast? with
      | none =>
          rw [List.getLast?_eq_none_iff] at hlast
          subst hlast
          exact (hnext.first hcurrent).1
      | some last =>
          rw [(hnext.continues last (hcurrent.trans hlast)).1]
          rw [List.getLast?_eq_getElem?] at hlast
          rw [h.generations _ last hlast]
          have hpos : 0 < certificates.length := by
            cases certificates with
            | nil => cases hlast
            | cons _ _ => exact Nat.succ_pos _
          omega
    · rw [List.getElem?_eq_none (by rw [List.length_append]; exact hk)] at hc
      cases hc
  continues := by
    refine List.isChain_append.mpr ⟨h.continues, .singleton _, ?_⟩
    intro c hc d hd
    rw [List.head?_cons] at hd
    cases hd
    exact (hnext.continues c (hcurrent.trans hc)).2
  distinct := by
    rw [List.map_append, List.map_singleton, List.nodup_append]
    refine ⟨h.distinct, List.nodup_singleton _, ?_⟩
    -- Its key id was never used, and the used ones are those of the certificates.
    intro id hid id' hid' hsame
    rw [List.mem_singleton.mp hid'] at hsame
    apply hnext.fresh
    rw [hused, ← hsame]
    exact List.mem_toFinset.mpr hid

end RecipientKeyTrustStore

end Polymorph
