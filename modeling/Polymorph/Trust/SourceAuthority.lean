import Mathlib
import Polymorph.StandardHost
import Polymorph.Trust.SourceTrust

/-!
# The authority of a source key

What one call can do to the entry of a key: nothing, or one change of its state. A revoked entry
stays revoked, and a recorded cutoff stays recorded as long as no call makes a verification-only
key active again. Both carry over to every history, and with them the refusal of the records that
the key signed.
-/

set_option autoImplicit false

namespace Polymorph

open JsonText Transaction Utc

namespace SourceTrustStore

variable {ed25519 : List UInt8 → ByteArray → List UInt8 → Bool} {store : SourceTrustStore}
  {keyId : String} {key : TrustedSourceKey}

theorem get_put_self : (store.put keyId key).get keyId = some key := dictGet_dictSet_self ..

theorem get_put_of_ne {other : String} (h : other ≠ keyId) :
    (store.put keyId key).get other = store.get other := dictGet_dictSet_of_ne h ..

/-! ## One call -/

theorem make_ok {fields : TrustedSourceKeyFields} (h : TrustedSourceKey.make fields = .ok key) :
    key.state = fields.state ∧ key.signingCutoff = fields.signingCutoff := by
  unfold TrustedSourceKey.make at h
  split at h
  · cases h
  · split at h
    · cases h
    · split at h
      · cases h
        exact ⟨rfl, rfl⟩
      · cases h

/-- A key is accepted again. -/
theorem make_self (key : TrustedSourceKey) :
    TrustedSourceKey.make key.toTrustedSourceKeyFields = .ok key := by
  unfold TrustedSourceKey.make
  split
  · rename_i e hname
    rw [key.named] at hname
    cases hname
  · rename_i expected hname
    obtain rfl : key.keyId = expected := Except.ok.inj (key.named.symm.trans hname)
    rw [if_neg (by simp)]
    split
    · rfl
    · rename_i e hcheck
      rw [key.valid] at hcheck
      cases hcheck

/-- Only activation drops a recorded cutoff. -/
theorem transition_cutoff {current : TrustedSourceKey} {state : SourceKeyState}
    {changedAt : Option Reading} {clock : Instant} {verificationGrace : Int}
    {cutoff deadline : Option Instant}
    (h : transition current state changedAt clock verificationGrace = .ok (cutoff, deadline))
    (hstate : state ≠ .active) {recorded : Instant}
    (hrecorded : current.signingCutoff = some recorded) : cutoff = some recorded := by
  cases state with
  | active => exact absurd rfl hstate
  | verifyOnly =>
      simp only [transition] at h
      obtain ⟨-, h⟩ := guard_eq_ok h
      rw [hrecorded] at h
      obtain ⟨chosen, hchosen, h⟩ := bind_eq_ok h
      obtain rfl : recorded = chosen := Except.ok.inj hchosen
      split at h
      · cases h
      · split at h
        · exact (Prod.mk.inj (Except.ok.inj h)).1.symm
        · exact (Prod.mk.inj (Except.ok.inj h)).1.symm
  | revoked => exact (Prod.mk.inj (Except.ok.inj h)).1.symm.trans hrecorded

/-- The first cutoff of a key without a deadline. -/
theorem transition_first {current : TrustedSourceKey} {changedAt : Option Reading}
    {clock cutoff deadline : Instant} {verificationGrace : Int} (hgrace : ¬verificationGrace ≤ 0)
    (hcutoff : current.signingCutoff = none) (hnotAfter : current.notAfter = none)
    (hchangedAt : utc (changedAt.getD (.aware clock)) = .ok cutoff)
    (hdeadline : cutoff.add verificationGrace = some deadline) :
    transition current .verifyOnly changedAt clock verificationGrace =
      .ok (some cutoff, some deadline) := by
  simp only [transition]
  rw [if_neg hgrace, hcutoff]
  change (utc (changedAt.getD (.aware clock)) >>= _) = _
  rw [hchangedAt]
  simp only [bind, Except.bind, hdeadline, hnotAfter]
  rfl

/-- What `set_state` did when it changed the entry of `keyId`. -/
structure StateChange (keyId : String) (state : SourceKeyState) (store : SourceTrustStore)
    (current changed : TrustedSourceKey) : Prop where
  allowed : store.verificationDepth = 0
  registered : store.get keyId = some current
  revoked : current.state = .revoked → state = .revoked
  entered : changed.state = state
  cutoff : state ≠ .active → ∀ recorded, current.signingCutoff = some recorded →
    changed.signingCutoff = some recorded

theorem setState_left (keyId : String) (state : SourceKeyState) (changedAt : Option Reading)
    (clock : Instant) (verificationGrace : Int) (store : SourceTrustStore) :
    left (setState keyId state changedAt clock verificationGrace) store = store ∨
    ∃ current changed, StateChange keyId state store current changed ∧
      left (setState keyId state changedAt clock verificationGrace) store =
        store.put keyId changed := by
  unfold left setState ensureMutationAllowed
  rw [bind_apply, bind_apply, get_apply]
  dsimp only
  by_cases hallowed : store.verificationDepth = 0
  · rw [if_neg (not_not.2 hallowed), pure_apply]
    dsimp only
    rw [bind_apply, get_apply]
    dsimp only
    cases hcurrent : store.get keyId with
    | none => exact .inl rfl
    | some current =>
        dsimp only
        by_cases hrevoked : current.state = .revoked ∧ state ≠ .revoked
        · rw [if_pos hrevoked]
          exact .inl rfl
        · rw [if_neg hrevoked]
          cases htransition : transition current state changedAt clock verificationGrace with
          | error e => exact .inl rfl
          | ok result =>
              obtain ⟨cutoff, deadline⟩ := result
              rw [lift_ok_bind rfl]
              dsimp only
              cases hmake : TrustedSourceKey.make
                { publicKey := current.publicKey, tenant := current.tenant
                  sourceConnector := current.sourceConnector, state := state
                  notBefore := current.notBefore, notAfter := deadline
                  keyId := current.keyId, signingCutoff := cutoff } with
              | error e => exact .inl rfl
              | ok changed =>
                  obtain ⟨hstate, hcutoff⟩ := make_ok hmake
                  refine .inr ⟨current, changed, ⟨hallowed, hcurrent, ?_, hstate, ?_⟩, rfl⟩
                  · intro h
                    by_contra hstate
                    exact hrevoked ⟨h, hstate⟩
                  · intro h recorded hrecorded
                    exact hcutoff.trans (transition_cutoff htransition h hrecorded)
  · rw [if_pos hallowed]
    exact .inl rfl

/-- A call of `set_state` that goes through. -/
theorem setState_ok {state : SourceKeyState} {changedAt : Option Reading} {clock : Instant}
    {verificationGrace : Int} {current changed : TrustedSourceKey}
    (hallowed : store.verificationDepth = 0) (hcurrent : store.get keyId = some current)
    (hrevoked : ¬(current.state = .revoked ∧ state ≠ .revoked))
    (htransition : transition current state changedAt clock verificationGrace =
      .ok (changed.signingCutoff, changed.notAfter))
    (hchanged : changed.toTrustedSourceKeyFields =
      { current.toTrustedSourceKeyFields with
        state := state, notAfter := changed.notAfter
        signingCutoff := changed.signingCutoff }) :
    setState keyId state changedAt clock verificationGrace store =
      .ok () (store.put keyId changed) := by
  have hmake : TrustedSourceKey.make
      { publicKey := current.publicKey, tenant := current.tenant
        sourceConnector := current.sourceConnector, state := state
        notBefore := current.notBefore, notAfter := changed.notAfter
        keyId := current.keyId, signingCutoff := changed.signingCutoff } = .ok changed := by
    rw [← make_self changed, hchanged]
  unfold setState ensureMutationAllowed
  rw [bind_apply, bind_apply, get_apply]
  dsimp only
  rw [if_neg (not_not.2 hallowed), pure_apply]
  dsimp only
  rw [bind_apply, get_apply]
  dsimp only
  rw [hcurrent]
  dsimp only
  rw [if_neg hrevoked, lift_ok_bind htransition]
  dsimp only
  rw [lift_ok_bind hmake]
  rfl

theorem add_left (key : TrustedSourceKey) (store : SourceTrustStore) :
    left (add key) store = store ∨
    (store.get key.keyId = none ∨ store.get key.keyId = some key) ∧
      left (add key) store = store.put key.keyId key := by
  unfold left add ensureMutationAllowed
  rw [bind_apply, bind_apply, get_apply]
  dsimp only
  by_cases hallowed : store.verificationDepth = 0
  · rw [if_neg (not_not.2 hallowed), pure_apply]
    dsimp only
    rw [bind_apply, get_apply]
    dsimp only
    cases hcurrent : store.get key.keyId with
    | none => exact .inr ⟨.inl rfl, rfl⟩
    | some current =>
        dsimp only
        by_cases hsame : current = key
        · rw [if_neg (not_not.2 hsame)]
          exact .inr ⟨.inr (congrArg some hsame), rfl⟩
        · rw [if_pos hsame]
          exact .inl rfl
  · rw [if_pos hallowed]
    exact .inl rfl

/-- `rotate` raises first, or it is a change of state with or without the addition. -/
theorem rotate_left (previousKeyId : String) (replacement : TrustedSourceKey)
    (changedAt : Option Reading) (clock : Instant) (verificationGrace : Int)
    (store : SourceTrustStore) :
    let moved := left (setState previousKeyId .verifyOnly changedAt clock verificationGrace) store
    left (rotate previousKeyId replacement changedAt clock verificationGrace) store = store ∨
    left (rotate previousKeyId replacement changedAt clock verificationGrace) store = moved ∨
    left (rotate previousKeyId replacement changedAt clock verificationGrace) store =
      left (add replacement) moved := by
  intro moved
  unfold left rotate ensureMutationAllowed
  rw [bind_apply, bind_apply, get_apply]
  dsimp only
  by_cases hallowed : store.verificationDepth = 0
  · rw [if_neg (not_not.2 hallowed), pure_apply]
    dsimp only
    rw [bind_apply, get_apply]
    dsimp only
    cases store.get previousKeyId with
    | none => exact .inl rfl
    | some current =>
        dsimp only
        by_cases hsame : replacement.keyId = previousKeyId
        · rw [if_pos hsame]
          exact .inl rfl
        rw [if_neg hsame]
        by_cases hbinding : replacement.tenant ≠ current.tenant ∨
            replacement.sourceConnector ≠ current.sourceConnector
        · rw [if_pos hbinding]
          exact .inl rfl
        rw [if_neg hbinding]
        by_cases hactive : replacement.state ≠ .active
        · rw [if_pos hactive]
          exact .inl rfl
        rw [if_neg hactive]
        by_cases hregistered : (store.get replacement.keyId).any
            fun registered => registered ≠ replacement
        · rw [if_pos hregistered]
          exact .inl rfl
        rw [if_neg hregistered]
        right
        rw [bind_apply]
        cases hmove : setState previousKeyId .verifyOnly changedAt clock verificationGrace
            store with
        | error e t =>
            left
            change t = SourceTrustStore.left _ store
            rw [SourceTrustStore.left, hmove]
        | ok u t =>
            right
            change _ = SourceTrustStore.left _ (SourceTrustStore.left _ store)
            rw [SourceTrustStore.left, SourceTrustStore.left, hmove]
  · rw [if_pos hallowed]
    exact .inl rfl

/-! ## The entry of a key over a history -/

/-- Every entry stays, and its key moves by `R`. -/
def Evolves (R : TrustedSourceKey → TrustedSourceKey → Prop)
    (store store' : SourceTrustStore) : Prop :=
  ∀ keyId key, store.get keyId = some key → ∃ key', store'.get keyId = some key' ∧ R key key'

section Evolves

variable {R : TrustedSourceKey → TrustedSourceKey → Prop}

theorem Evolves.refl (hrefl : ∀ key, R key key) (store : SourceTrustStore) :
    Evolves R store store :=
  fun _ key h => ⟨key, h, hrefl key⟩

theorem Evolves.trans (htrans : ∀ a b c, R a b → R b c → R a c) {s t u : SourceTrustStore}
    (hst : Evolves R s t) (htu : Evolves R t u) : Evolves R s u := by
  intro keyId key h
  obtain ⟨key', h', hR⟩ := hst keyId key h
  obtain ⟨key'', h'', hR'⟩ := htu keyId key' h'
  exact ⟨key'', h'', htrans key key' key'' hR hR'⟩

/-- Writing one entry. -/
theorem evolves_put (hrefl : ∀ key, R key key) {changed : TrustedSourceKey}
    (h : ∀ current, store.get keyId = some current → R current changed) :
    Evolves R store (store.put keyId changed) := by
  intro other current hcurrent
  by_cases hother : other = keyId
  · subst hother
    exact ⟨changed, get_put_self, h current hcurrent⟩
  · exact ⟨current, (get_put_of_ne hother).trans hcurrent, hrefl current⟩

theorem setState_evolves (hrefl : ∀ key, R key key) {state : SourceKeyState}
    (h : ∀ current changed, StateChange keyId state store current changed → R current changed)
    (changedAt : Option Reading) (clock : Instant) (verificationGrace : Int) :
    Evolves R store (left (setState keyId state changedAt clock verificationGrace) store) := by
  rcases setState_left keyId state changedAt clock verificationGrace store with
    hsame | ⟨current, changed, hchange, hput⟩
  · rw [hsame]
    exact Evolves.refl hrefl store
  · rw [hput]
    apply evolves_put hrefl
    intro current' hcurrent'
    obtain rfl : current = current' := Option.some.inj (hchange.registered.symm.trans hcurrent')
    exact h current changed hchange

theorem add_evolves (hrefl : ∀ key, R key key) (key : TrustedSourceKey)
    (store : SourceTrustStore) : Evolves R store (left (add key) store) := by
  rcases add_left key store with hsame | ⟨hnew, hput⟩
  · rw [hsame]
    exact Evolves.refl hrefl store
  · rw [hput]
    apply evolves_put hrefl
    intro current hcurrent
    rcases hnew with hnone | hsome
    · rw [hnone] at hcurrent
      cases hcurrent
    · rw [hsome] at hcurrent
      cases hcurrent
      exact hrefl key

/-- A call whose changes of state move every key by `R` moves the registry by `R`. -/
theorem exec_evolves (hrefl : ∀ key, R key key) (htrans : ∀ a b c, R a b → R b c → R a c)
    {call : SourceTrustCall}
    (hretire : ∀ keyId state current changed, state ≠ .active →
      StateChange keyId state store current changed → R current changed)
    (hactivate : ∀ keyId changedAt clock verificationGrace current changed,
      call = .setState keyId .active changedAt clock verificationGrace →
      StateChange keyId .active store current changed → R current changed) :
    Evolves R store (exec call store) := by
  cases call with
  | add key => exact add_evolves hrefl key store
  | setState keyId state changedAt clock verificationGrace =>
      apply setState_evolves hrefl
      intro current changed hchange
      by_cases hstate : state = .active
      · subst hstate
        exact hactivate keyId changedAt clock verificationGrace current changed rfl hchange
      · exact hretire keyId state current changed hstate hchange
  | revoke keyId clock =>
      apply setState_evolves hrefl
      intro current changed hchange
      exact hretire keyId .revoked current changed (by decide) hchange
  | rotate previousKeyId replacement changedAt clock verificationGrace =>
      have hmoved := (@setState_evolves store) hrefl
        (fun current changed => hretire previousKeyId .verifyOnly current changed (by decide))
        changedAt clock verificationGrace
      change Evolves R store
        (left (rotate previousKeyId replacement changedAt clock verificationGrace) store)
      rcases rotate_left previousKeyId replacement changedAt clock verificationGrace store with
        hsame | honly | hboth
      · rw [hsame]
        exact Evolves.refl hrefl store
      · rw [honly]
        exact hmoved
      · rw [hboth]
        exact hmoved.trans htrans (add_evolves hrefl replacement _)
  | enterSession => exact Evolves.refl hrefl store
  | exitSession => exact Evolves.refl hrefl store

end Evolves

/-- Revocation stays. -/
def KeepsRevocation (key key' : TrustedSourceKey) : Prop :=
  key.state = .revoked → key'.state = .revoked

/-- A recorded cutoff stays. -/
def KeepsCutoff (key key' : TrustedSourceKey) : Prop :=
  ∀ cutoff, key.signingCutoff = some cutoff → key'.signingCutoff = some cutoff

/-- The call makes a verification-only key active again. -/
def Reactivates (store : SourceTrustStore) : SourceTrustCall → Prop
  | .setState keyId .active _ _ _ => store.verificationDepth = 0 ∧
      ∃ key, store.get keyId = some key ∧ key.state = .verifyOnly
  | _ => False

/-- No call of the history makes a verification-only key active again. -/
def NeverReactivates : SourceTrustStore → List SourceTrustCall → Prop
  | _, [] => True
  | store, call :: rest => ¬Reactivates store call ∧ NeverReactivates (exec call store) rest

theorem exec_keepsRevocation (call : SourceTrustCall) (store : SourceTrustStore) :
    Evolves KeepsRevocation store (exec call store) := by
  apply exec_evolves (fun _ h => h) (fun _ _ _ hab hbc h => hbc (hab h))
  · intro keyId state current changed _ hchange hrevoked
    exact hchange.entered.trans (hchange.revoked hrevoked)
  · intro keyId _ _ _ current changed _ hchange hrevoked
    exact hchange.entered.trans (hchange.revoked hrevoked)

theorem signingCutoff_of_active (h : key.state = .active) : key.signingCutoff = none := by
  have hvalid := key.valid
  unfold TrustedSourceKeyFields.check at hvalid
  by_contra hcutoff
  have hclash : key.state = .active ∧ key.signingCutoff ≠ none := ⟨h, hcutoff⟩
  split at hvalid
  · cases hvalid
  · split at hvalid
    · cases hvalid
    · cases hvalid

theorem exec_keepsCutoff {call : SourceTrustCall} (h : ¬Reactivates store call) :
    Evolves KeepsCutoff store (exec call store) := by
  apply exec_evolves (fun _ _ h => h) (fun _ _ _ hab hbc cutoff h => hbc cutoff (hab cutoff h))
  · intro keyId state current changed hstate hchange
    exact hchange.cutoff hstate
  · rintro keyId changedAt clock verificationGrace current changed rfl hchange cutoff hcutoff
    exfalso
    -- An active key has no cutoff, and a revoked key stays revoked.
    cases hstate : current.state with
    | active =>
        rw [signingCutoff_of_active hstate] at hcutoff
        cases hcutoff
    | verifyOnly => exact h ⟨hchange.allowed, current, hchange.registered, hstate⟩
    | revoked => exact absurd (hchange.revoked hstate) (by decide)

/-- A key without its cutoff, active. -/
def activated (key : TrustedSourceKey) : TrustedSourceKey where
  toTrustedSourceKeyFields :=
    { key.toTrustedSourceKeyFields with state := .active, signingCutoff := none }
  named := key.named
  valid := by
    have hvalid := key.valid
    unfold TrustedSourceKeyFields.check at hvalid ⊢
    split at hvalid
    · cases hvalid
    · rename_i hbinding
      split at hvalid
      · cases hvalid
      · rename_i hinterval
        rw [if_neg hbinding]
        change (if key.toTrustedSourceKeyFields.intervalOrdered = false then _ else _) = _
        rw [if_neg hinterval]
        simp

/-- A call that makes a verification-only key active again drops its cutoff. -/
theorem exec_reactivates {changedAt : Option Reading} {clock : Instant} {verificationGrace : Int}
    (h : Reactivates store (.setState keyId .active changedAt clock verificationGrace)) :
    ∃ key, (exec (.setState keyId .active changedAt clock verificationGrace) store).get keyId =
      some key ∧ ∀ issuedAt, checkIssuance key issuedAt = .ok () := by
  obtain ⟨hallowed, key, hkey, hstate⟩ := h
  have hrevoked : ¬(key.state = .revoked ∧ SourceKeyState.active ≠ .revoked) := by
    rw [hstate]
    decide
  have hactivate := (@setState_ok _ _ _ changedAt clock verificationGrace _ (activated key))
      hallowed hkey hrevoked rfl rfl
  refine ⟨activated key, ?_, fun _ => rfl⟩
  rw [exec, left, hactivate]
  exact get_put_self

theorem run_cons (call : SourceTrustCall) (rest : List SourceTrustCall)
    (store : SourceTrustStore) : run (call :: rest) store = run rest (exec call store) := rfl

theorem run_append (before after : List SourceTrustCall) (store : SourceTrustStore) :
    run (before ++ after) store = run after (run before store) := List.foldl_append

theorem run_keepsRevocation (calls : List SourceTrustCall) (store : SourceTrustStore) :
    Evolves KeepsRevocation store (run calls store) := by
  induction calls generalizing store with
  | nil => exact Evolves.refl (fun _ h => h) store
  | cons call rest ih =>
      apply (exec_keepsRevocation call store).trans (fun _ _ _ hab hbc h => hbc (hab h))
      exact ih (exec call store)

theorem run_keepsCutoff {calls : List SourceTrustCall} {store : SourceTrustStore}
    (h : NeverReactivates store calls) : Evolves KeepsCutoff store (run calls store) := by
  induction calls generalizing store with
  | nil => exact Evolves.refl (fun _ _ h => h) store
  | cons call rest ih =>
      apply (exec_keepsCutoff h.1).trans (fun _ _ _ hab hbc c h => hbc c (hab c h))
      exact ih h.2

/-! ## Verification -/

/-- The record carries a signature under the key id. -/
def SignedWith (keyId : String) (record : BlindTransportRecord) : Prop :=
  ∃ authentication, record.authentication = some authentication ∧ authentication.keyId = keyId

/-- What the registry holds for the key of a record that verifies. -/
theorem verifyRecord_ok {record : BlindTransportRecord} {now : Reading}
    {trusted : TrustedSourceKey} (hsigned : SignedWith keyId record)
    (h : verifyRecord ed25519 store record now = .ok trusted) :
    ∃ key, store.get keyId = some key ∧ key.state ≠ .revoked ∧
      checkIssuance key record.first.issuedAt = .ok () := by
  obtain ⟨authentication, hauthentication, rfl⟩ := hsigned
  unfold verifyRecord at h
  rw [hauthentication] at h
  obtain ⟨-, h⟩ := guard_eq_ok h
  cases hkey : store.get authentication.keyId with
  | none =>
      rw [hkey] at h
      cases h
  | some key =>
      rw [hkey] at h
      obtain ⟨hrevoked, h⟩ := guard_eq_ok h
      obtain ⟨-, h⟩ := guard_eq_ok h
      obtain ⟨payload, -, h⟩ := bind_eq_ok h
      obtain ⟨u, -, h⟩ := bind_eq_ok h
      obtain ⟨current, -, h⟩ := bind_eq_ok h
      obtain ⟨-, h⟩ := guard_eq_ok h
      obtain ⟨-, h⟩ := guard_eq_ok h
      obtain ⟨u', hissuance, -⟩ := bind_eq_ok h
      exact ⟨key, rfl, hrevoked, hissuance⟩

/-- A record that passes every check verifies. -/
theorem verifyRecord_accepted {record : BlindTransportRecord} {now : Reading}
    {authentication : RecordAuthentication} {payload : ByteArray} {current : Instant}
    (hauthentication : record.authentication = some authentication)
    (halgorithm : authentication.algorithm = "ed25519")
    (hkey : store.get authentication.keyId = some key) (hrevoked : key.state ≠ .revoked)
    (htenant : key.tenant = record.tenant) (hsource : key.sourceConnector = record.sourceConnector)
    (hpayload : record.sourceAuthenticationBytes authentication.keyId "ed25519" = .ok payload)
    (hsignature : verifyEd25519 ed25519 key.publicKey payload authentication.signature = .ok ())
    (hnow : utc now = .ok current)
    (hnotBefore : (key.notBefore.any fun notBefore => current < notBefore) = false)
    (hnotAfter : (key.notAfter.any fun notAfter => notAfter < current) = false)
    (hissuance : checkIssuance key record.first.issuedAt = .ok ()) :
    verifyRecord ed25519 store record now = .ok key := by
  have hbinding : ¬(key.tenant ≠ record.tenant ∨
      key.sourceConnector ≠ record.sourceConnector) := by
    rintro (h | h)
    · exact h htenant
    · exact h hsource
  unfold verifyRecord
  rw [hauthentication]
  dsimp only
  rw [if_neg (not_not.2 halgorithm), hkey]
  dsimp only
  rw [if_neg hrevoked, if_neg hbinding, halgorithm, hpayload]
  change (verifyEd25519 ed25519 key.publicKey payload authentication.signature >>= _) = _
  rw [hsignature]
  change (utc now >>= _) = _
  rw [hnow]
  dsimp only [Bind.bind, Except.bind]
  rw [hnotBefore, hnotAfter, hissuance]
  rfl

/-- Nothing signed with a revoked key verifies. -/
theorem verifyRecord_of_revoked {record : BlindTransportRecord} {now : Reading}
    {trusted : TrustedSourceKey} (hkey : store.get keyId = some key) (h : key.state = .revoked)
    (hsigned : SignedWith keyId record) :
    verifyRecord ed25519 store record now ≠ .ok trusted := by
  intro hverified
  obtain ⟨key', hkey', hrevoked, -⟩ := verifyRecord_ok hsigned hverified
  obtain rfl : key = key' := Option.some.inj (hkey.symm.trans hkey')
  exact hrevoked h

/-- Nothing signed with a key after its cutoff verifies. -/
theorem verifyRecord_of_cutoff {record : BlindTransportRecord} {now : Reading}
    {trusted : TrustedSourceKey} {cutoff issued : Instant} (hkey : store.get keyId = some key)
    (hcutoff : key.signingCutoff = some cutoff) (hsigned : SignedWith keyId record)
    (hissued : record.first.issuedAt = some issued) (hafter : cutoff < issued) :
    verifyRecord ed25519 store record now ≠ .ok trusted := by
  intro hverified
  obtain ⟨key', hkey', hrevoked, hissuance⟩ := verifyRecord_ok hsigned hverified
  obtain rfl : key = key' := Option.some.inj (hkey.symm.trans hkey')
  have hstate : key.state = .verifyOnly := by
    cases hstate : key.state with
    | active =>
        rw [signingCutoff_of_active hstate] at hcutoff
        cases hcutoff
    | verifyOnly => rfl
    | revoked => exact absurd hstate hrevoked
  unfold checkIssuance at hissuance
  rw [if_pos hstate, hissued, hcutoff] at hissuance
  dsimp only at hissuance
  rw [if_pos hafter] at hissuance
  cases hissuance

end SourceTrustStore

/-! ## A sample key -/

namespace SampleSource

open SourceTrustStore

/-- An Ed25519 public key. -/
def publicKey : List UInt8 :=
  [42, 62, 219, 9, 127, 252, 20, 46, 242, 253, 2, 201, 198, 58, 108, 242,
    5, 31, 237, 107, 202, 28, 152, 38, 19, 185, 194, 63, 156, 191, 67, 197]

/-- The signature of the record below under that key. -/
def signature : List UInt8 :=
  [236, 180, 126, 20, 77, 233, 39, 204, 174, 119, 170, 97, 124, 165, 191, 247,
    39, 137, 9, 0, 40, 35, 112, 135, 102, 182, 40, 6, 186, 108, 151, 236,
    233, 191, 25, 133, 44, 121, 128, 49, 150, 214, 172, 26, 141, 232, 173, 207,
    181, 74, 225, 77, 192, 72, 230, 239, 29, 40, 68, 65, 155, 168, 116, 15]

def keyId : String := Sha256.hexDigest publicKey

theorem signingKeyId_publicKey : signingKeyId publicKey = .ok keyId := rfl

def cutoff : Instant := ⟨⟨2026, 1, 1, 0, 0, 0, 0⟩, Utc.valid_newYear2026⟩

def issuedAt : Instant := ⟨⟨2026, 1, 1, 0, 5, 0, 0⟩, Utc.valid_fifthMinute2026⟩

def deadline : Instant := ⟨⟨2026, 1, 2, 0, 0, 0, 0⟩, by decide⟩

/-- The key as it was added. -/
def added : TrustedSourceKey where
  publicKey := publicKey
  tenant := "tenant"
  sourceConnector := "source"
  keyId := keyId
  named := signingKeyId_publicKey
  valid := rfl

/-- The key after its cutoff. -/
def retired : TrustedSourceKey where
  publicKey := publicKey
  tenant := "tenant"
  sourceConnector := "source"
  state := .verifyOnly
  notAfter := some deadline
  keyId := keyId
  signingCutoff := some cutoff
  named := signingKeyId_publicKey
  valid := rfl

/-- The key after its reactivation. -/
def reactivated : TrustedSourceKey where
  publicKey := publicKey
  tenant := "tenant"
  sourceConnector := "source"
  notAfter := some deadline
  keyId := keyId
  named := signingKeyId_publicKey
  valid := rfl

/-- The key after its revocation. -/
def revoked : TrustedSourceKey where
  publicKey := publicKey
  tenant := "tenant"
  sourceConnector := "source"
  state := .revoked
  notAfter := some deadline
  keyId := keyId
  signingCutoff := some cutoff
  named := signingKeyId_publicKey
  valid := rfl

def context : TransferContext where
  tenant := "tenant"
  sourceConnector := "source"
  destinationConnector := "destination"
  fieldId := "email"
  schemaVersion := "1"
  recordId := "record"
  transferId := "transfer"
  recipientKeyId := "0000000000000000000000000000000000000000000000000000000000000000"
  issuedAt := some issuedAt
  valid := by decide

theorem envelope_valid : OpaqueEnvelopeFields.check
    ⟨List.replicate 32 0, List.replicate 12 0, List.replicate 16 0⟩ = .ok () := by decide

def envelope : OpaqueEnvelope where
  ephemeralPublicKey := List.replicate 32 0
  nonce := List.replicate 12 0
  ciphertext := List.replicate 16 0
  valid := envelope_valid

def authentication : RecordAuthentication where
  keyId := keyId
  signature := signature
  valid := by
    have hlength : signature.length = 64 := rfl
    simp [RecordAuthenticationFields.check, keyId, isLowerHex_hexDigest, hlength]

/-- A record issued after the cutoff. -/
def record : BlindTransportRecord where
  recordId := "record"
  fields := [⟨"email", context, envelope⟩]
  authentication := some authentication
  valid := by
    simp [RecordFields.check, checkFields, sharedContextValues, context]

/-- The signed bytes of the record. -/
def payload : ByteArray :=
  BlindTransportRecord.sourceAuthDomain.toUTF8 ++
    (canonical (.obj (record.authenticatedMembers keyId "ed25519"))).toUTF8

theorem sourceAuthenticationBytes_record :
    record.sourceAuthenticationBytes keyId "ed25519" = .ok payload := rfl

/-- The library's check on that signature. -/
def ed25519 (key : List UInt8) (message : ByteArray) (signed : List UInt8) : Bool :=
  decide (key = publicKey ∧ message = payload ∧ signed = signature)

theorem signedWith : SignedWith keyId record := ⟨authentication, rfl, rfl⟩

def retire : List SourceTrustCall :=
  [.add added, .setState keyId .verifyOnly (some (.aware cutoff)) cutoff defaultRotationGrace]

def reactivate : SourceTrustCall :=
  .setState keyId .active none deadline defaultRotationGrace

def revoke : SourceTrustCall := .revoke keyId deadline

theorem keys_put (key changed : TrustedSourceKey) :
    (⟨[(keyId, key)], 0⟩ : SourceTrustStore).put keyId changed = ⟨[(keyId, changed)], 0⟩ := by
  simp [put, dictSet]

theorem get_keys (key : TrustedSourceKey) :
    (⟨[(keyId, key)], 0⟩ : SourceTrustStore).get keyId = some key := by
  simp [SourceTrustStore.get, dictGet]

theorem add_cutoff : cutoff.add defaultRotationGrace = some deadline := by decide +kernel

theorem run_retire : run retire {} = ⟨[(keyId, retired)], 0⟩ := by
  have hadd : exec (.add added) {} = ⟨[(keyId, added)], 0⟩ := rfl
  have hretire := (@setState_ok ⟨[(keyId, added)], 0⟩ _ .verifyOnly (some (.aware cutoff)) cutoff
      defaultRotationGrace _ retired) rfl (get_keys added) (by decide)
    (transition_first (by decide) rfl rfl rfl add_cutoff) rfl
  rw [run, retire, List.foldl_cons, List.foldl_cons, List.foldl_nil, hadd, exec, left, hretire]
  exact keys_put added retired

theorem exec_reactivate :
    exec reactivate ⟨[(keyId, retired)], 0⟩ = ⟨[(keyId, reactivated)], 0⟩ := by
  have hreactivate := (@setState_ok ⟨[(keyId, retired)], 0⟩ _ .active none deadline
      defaultRotationGrace _ reactivated) rfl (get_keys retired) (by decide) rfl rfl
  rw [reactivate, exec, left, hreactivate]
  exact keys_put retired reactivated

theorem exec_revoke : exec revoke ⟨[(keyId, retired)], 0⟩ = ⟨[(keyId, revoked)], 0⟩ := by
  have hrevoke := (@setState_ok ⟨[(keyId, retired)], 0⟩ _ .revoked none deadline
      defaultRotationGrace _ revoked) rfl (get_keys retired) (by decide) rfl rfl
  rw [revoke, exec, left, SourceTrustStore.revoke, hrevoke]
  exact keys_put retired revoked

theorem verifyEd25519_payload :
    verifyEd25519 ed25519 reactivated.publicKey payload authentication.signature = .ok () := by
  have hkey : reactivated.publicKey = publicKey := rfl
  have hsigned : authentication.signature = signature := rfl
  have hlength : publicKey.length = 32 := rfl
  have hlength' : signature.length = 64 := rfl
  simp [verifyEd25519, ed25519, hkey, hsigned, hlength, hlength']

theorem verifyRecord_reactivated :
    verifyRecord ed25519 ⟨[(keyId, reactivated)], 0⟩ record (.aware issuedAt) =
      .ok reactivated :=
  (@verifyRecord_accepted _ _ _ _ _ authentication) rfl rfl (get_keys reactivated)
    (by decide) rfl rfl sourceAuthenticationBytes_record verifyEd25519_payload rfl rfl
    (by decide) rfl

end SampleSource

open SourceTrustStore

/-- Revocation is final in every history. A recorded cutoff is final in every history that never
makes a verification-only key active again. -/
theorem source_authority_ends (ed25519 : List UInt8 → ByteArray → List UInt8 → Bool)
    (before after : List SourceTrustCall) :
    (∀ keyId key record now trusted, (run before {}).get keyId = some key →
      key.state = .revoked → SignedWith keyId record →
      verifyRecord ed25519 (run after (run before {})) record now ≠ .ok trusted) ∧
    (NeverReactivates (run before {}) after →
      ∀ keyId key cutoff record issued now trusted, (run before {}).get keyId = some key →
        key.signingCutoff = some cutoff → SignedWith keyId record →
        record.first.issuedAt = some issued → cutoff < issued →
        verifyRecord ed25519 (run after (run before {})) record now ≠ .ok trusted) := by
  constructor
  · intro keyId key record now trusted hkey hrevoked hsigned
    obtain ⟨key', hkey', hkept⟩ := run_keepsRevocation after _ keyId key hkey
    exact verifyRecord_of_revoked hkey' (hkept hrevoked) hsigned
  · intro hnever keyId key cutoff record issued now trusted hkey hcutoff hsigned hissued hafter
    obtain ⟨key', hkey', hkept⟩ := run_keepsCutoff hnever keyId key hkey
    exact verifyRecord_of_cutoff hkey' (hkept cutoff hcutoff) hsigned hissued hafter

open SampleSource

/-- A revoked key refuses its record whatever follows, and a retired key refuses what it signs
after its cutoff. -/
theorem source_authority_ends_sample :
    verifyRecord ed25519 (run [reactivate] (run (retire ++ [SampleSource.revoke]) {})) record
      (.aware issuedAt) ≠ .ok revoked ∧
    verifyRecord ed25519 (run [SampleSource.revoke] (run retire {})) record (.aware issuedAt) ≠
      .ok retired := by
  have hretired : (run retire {}).get keyId = some retired := by
    rw [run_retire, get_keys]
  have hrevoked : (run (retire ++ [SampleSource.revoke]) {}).get keyId = some revoked := by
    rw [run_append, run_retire, run_cons, exec_revoke]
    exact get_keys revoked
  constructor
  · exact (source_authority_ends ed25519 (retire ++ [SampleSource.revoke]) [reactivate]).1 keyId
      revoked record (.aware issuedAt) revoked hrevoked rfl signedWith
  · exact (source_authority_ends ed25519 retire [SampleSource.revoke]).2 ⟨id, trivial⟩ keyId
      retired cutoff record issuedAt (.aware issuedAt) retired hretired rfl signedWith rfl
      (by decide)

/-- A retired key that is made active again verifies a record issued after its cutoff. -/
theorem reactivation_restores_authority :
    ¬∀ (before after : List SourceTrustCall) (keyId : String) (key : TrustedSourceKey)
      (cutoff : Instant) (record : BlindTransportRecord) (issued : Instant) (now : Reading)
      (trusted : TrustedSourceKey), (run before {}).get keyId = some key →
        key.signingCutoff = some cutoff → SignedWith keyId record →
        record.first.issuedAt = some issued → cutoff < issued →
        verifyRecord ed25519 (run after (run before {})) record now ≠ .ok trusted := by
  intro h
  have hretired : (run retire {}).get keyId = some retired := by
    rw [run_retire, get_keys]
  apply h retire [reactivate] keyId retired cutoff record issuedAt (.aware issuedAt) reactivated
    hretired rfl signedWith rfl (by decide)
  rw [run_retire, run_cons, exec_reactivate]
  exact verifyRecord_reactivated

end Polymorph
