import Polymorph.Delivery.Sequential
import Polymorph.Delivery.StoreProgress

/-!
# One record on its own

The runs of a single worker that holds the claim of a record: the checks before the write boundary
depend on the agent and the resolver only, and each outcome of the checks and of the connector
leads to one receipt, one row and one entry of the spool.
-/

set_option autoImplicit false

namespace Polymorph

open Concurrency Prog DeliveryLedger DestinationRuntime Transaction

/-! ## Sessions -/

namespace Session

/-- After a ledger call that leaves the rows `ledger`. -/
def withLedger (s : Session) (ledger : Ledger) : Session :=
  { s with world := { s.world with ledger := ledger }, storeCalls := s.storeCalls + 1 }

/-- After a spool call that leaves the entries `spool`. -/
def withSpool (s : Session) (spool : Spool) : Session :=
  { s with world := { s.world with spool := spool }, storeCalls := s.storeCalls + 1 }

variable (s : Session) (ledger : Ledger) (spool : Spool)

@[simp] theorem withLedger_ledger : (s.withLedger ledger).world.ledger = ledger := rfl

theorem withLedger_row (key : DeliveryKey) (row : LedgerRow) :
    (s.withLedger (Function.update ledger key (some row))).world.ledger key = some row :=
  Function.update_self ..

@[simp] theorem withLedger_spool : (s.withLedger ledger).world.spool = s.world.spool := rfl

@[simp] theorem withLedger_capabilities :
    (s.withLedger ledger).world.capabilities = s.world.capabilities := rfl

@[simp] theorem withLedger_attempts : (s.withLedger ledger).world.attempts = s.world.attempts := rfl

@[simp] theorem withLedger_storeCalls : (s.withLedger ledger).storeCalls = s.storeCalls + 1 := rfl

@[simp] theorem withLedger_handed : (s.withLedger ledger).handed = s.handed := rfl

@[simp] theorem withSpool_ledger : (s.withSpool spool).world.ledger = s.world.ledger := rfl

@[simp] theorem withSpool_spool : (s.withSpool spool).world.spool = spool := rfl

@[simp] theorem withSpool_capabilities :
    (s.withSpool spool).world.capabilities = s.world.capabilities := rfl

@[simp] theorem withSpool_attempts : (s.withSpool spool).world.attempts = s.world.attempts := rfl

@[simp] theorem withSpool_storeCalls : (s.withSpool spool).storeCalls = s.storeCalls + 1 := rfl

@[simp] theorem withSpool_handed : (s.withSpool spool).handed = s.handed := rfl

end Session

section Runs

variable {H : Host} {spool : SpoolConfig} {S : Services} {job : Job} {s : Session}
  {P : (op : Op) → Except Exn op.Res → Prop}

theorem answer_ledger {c : LedgerCall} {a : c.Answer} {ledger : Ledger}
    (h : c.exec H (S.inputs s.storeCalls) s.world.ledger = .ok a ledger) :
    S.answer H spool job (.ledger c) s = (.ok a, s.withLedger ledger) := by
  change S.answerLedger H c s = _
  unfold Services.answerLedger
  rw [h]
  rfl

theorem answer_quarantine {records : List BlindTransportRecord} {reasonCode : String}
    {entries : Spool}
    (h : SealedSpool.quarantineMany H spool (S.clock s.storeCalls) records reasonCode
      s.world.spool = .ok () entries) :
    S.answer H spool job (.quarantine records reasonCode) s = (.ok (), s.withSpool entries) := by
  rw [Services.answer, Services.answerSpool, h]
  rfl

theorem answer_remove {digests : List String} {n : Nat} {entries : Spool}
    (h : SealedSpool.removeMany digests s.world.spool = .ok n entries) :
    S.answer H spool job (.remove digests) s = (.ok n, s.withSpool entries) := by
  rw [Services.answer, Services.answerSpool, h]
  rfl

theorem answer_spoolGet {recordDigest : String} {found : Option BlindTransportRecord}
    (h : SealedSpool.getRecord H spool recordDigest s.world.spool = .ok found s.world.spool) :
    S.answer H spool job (.spoolGet recordDigest) s =
      (.ok found, s.withSpool s.world.spool) := by
  rw [Services.answer, Services.answerSpool, h]
  rfl

/-- Sequencing after a program that returned. -/
theorem steps_bind {α β : Type} {p : RuntimeM α} {f : α → RuntimeM β} {a : α} {s' : Session}
    (h : S.Steps H spool job P p s (pure a) s') :
    S.Steps H spool job P (p >>= f) s (f a) s' := Prog.Steps.bind h f

/-- Sequencing after a program that raised. -/
theorem steps_bind_error {α β : Type} {p : RuntimeM α} {f : α → RuntimeM β} {e : Exn}
    {s' : Session} (h : S.Steps H spool job P p s (raise e) s') :
    S.Steps H spool job P (p >>= f) s (raise e) s' := Prog.Steps.bind h f

/-- One call. -/
theorem steps_perform {op : Op} {r : Except Exn op.Res} {s' : Session} (hP : P op r)
    (h : S.answer H spool job op s = (r, s')) :
    S.Steps H spool job P (call op) s (.ret r) s' := by
  have hstep := (@Prog.Steps.perform _ _ _ _ (S.answer H spool job) P op s)
    (by rw [h]; exact hP)
  rw [h] at hstep
  exact hstep

/-- One call that returned. -/
theorem steps_call {β : Type} {op : Op} {f : op.Res → RuntimeM β} {a : op.Res} {s' : Session}
    (hP : P op (.ok a)) (h : S.answer H spool job op s = (.ok a, s')) :
    S.Steps H spool job P (call op >>= f) s (f a) s' := steps_bind (steps_perform hP h)

/-- One call run under `attempt`. -/
theorem steps_attempt_call {β : Type} {op : Op} {f : Except Exn op.Res → RuntimeM β}
    {r : Except Exn op.Res} {s' : Session} (hP : P op r) (h : S.answer H spool job op s = (r, s')) :
    S.Steps H spool job P (attempt (call op) >>= f) s (f r) s' :=
  (steps_perform hP h).attempt_bind f

end Runs

/-! ## The checks before the write boundary -/

section Checks

/-- A condition on calls that silent calls meet. -/
def AllowsSilent (P : (op : Op) → Except Exn op.Res → Prop) : Prop :=
  ∀ op r, op.isSilent = true → P op r

/-- Against any services with these agents, the program gives `r` and changes nothing. -/
def Agent.Returns {α : Type} (A : Agent) (H : Host) (p : RuntimeM α) (r : Except Exn α) : Prop :=
  ∀ S : Services, S.toAgent = A → ∀ P, AllowsSilent P → ∀ spool job s,
    S.Steps H spool job P p s (.ret r) s

/-- The agents alone determine the outcome of the program. -/
def Agent.Determines {α : Type} (A : Agent) (H : Host) (p : RuntimeM α) : Prop :=
  ∃ r, A.Returns H p r

namespace Agent.Determines

variable {A : Agent} {H : Host} {α β : Type}

theorem pure (a : α) : A.Determines H (Pure.pure a : RuntimeM α) :=
  ⟨.ok a, fun _ _ _ _ _ _ _ => .refl _ _⟩

theorem raise (e : Exn) : A.Determines H (Prog.raise e : RuntimeM α) :=
  ⟨.error e, fun _ _ _ _ _ _ _ => .refl _ _⟩

theorem bind {p : RuntimeM α} {f : α → RuntimeM β} (hp : A.Determines H p)
    (hf : ∀ a, A.Determines H (f a)) : A.Determines H (p >>= f) := by
  obtain ⟨r, hr⟩ := hp
  cases r with
  | error e =>
      exact ⟨.error e, fun S hS P hP spool job s => steps_bind_error (hr S hS P hP spool job s)⟩
  | ok a =>
      obtain ⟨r', hr'⟩ := hf a
      exact ⟨r', fun S hS P hP spool job s =>
        (steps_bind (hr S hS P hP spool job s)).trans (hr' S hS P hP spool job s)⟩

theorem attempt_bind {p : RuntimeM α} {f : Except Exn α → RuntimeM β} (hp : A.Determines H p)
    (hf : ∀ r, A.Determines H (f r)) : A.Determines H (Prog.attempt p >>= f) := by
  obtain ⟨r, hr⟩ := hp
  obtain ⟨r', hr'⟩ := hf r
  exact ⟨r', fun S hS P hP spool job s =>
    ((hr S hS P hP spool job s).attempt_bind f).trans (hr' S hS P hP spool job s)⟩

/-- A silent call whose answer is the agents'. -/
theorem call {op : Op} {r : Except Exn op.Res} (hsilent : op.isSilent = true)
    (h : ∀ S : Services, S.toAgent = A → ∀ spool job s, S.answer H spool job op s = (r, s)) :
    A.Determines H (Polymorph.call op) :=
  ⟨r, fun S hS _ hP spool job s => steps_perform (hP _ _ hsilent) (h S hS spool job s)⟩

theorem authorizeRecord (record : BlindTransportRecord) :
    A.Determines H (Polymorph.call (.authorizeRecord record)) :=
  call (r := A.authorizeRecord record) rfl fun _ hS _ _ _ => hS ▸ rfl

theorem openRecord (record : BlindTransportRecord) (privateKey : PrivateKey) :
    A.Determines H (Polymorph.call (.openRecord record privateKey)) :=
  call (r := A.openRecord record privateKey) rfl fun _ hS _ _ _ => hS ▸ rfl

theorem resolveForeignKey (targetFieldId matchColumn : String) (value : PyValue) :
    A.Determines H (Polymorph.call (.resolveForeignKey targetFieldId matchColumn value)) :=
  call (r := A.resolveForeignKey targetFieldId matchColumn value) rfl
    fun _ hS _ _ _ => hS ▸ rfl

variable {rt : DestinationRuntime} {record : BlindTransportRecord}

theorem applyDestinationTransform (rule : MappingRule) (payload : Payload) :
    A.Determines H (rt.applyDestinationTransform rule payload) := by
  unfold DestinationRuntime.applyDestinationTransform
  split
  · exact pure _
  · split
    · exact raise _
    · split
      · exact raise _
      · dsimp only
        split
        · split
          · exact pure _
          · split
            · exact raise _
            · refine bind (resolveForeignKey _ _ _) fun resolved => ?_
              split
              · exact raise _
              · exact pure _
        · exact raise _

theorem applyDestinationTransforms (rules : List MappingRule) (payload : Payload) :
    A.Determines H (rt.applyDestinationTransforms rules payload) := by
  induction rules generalizing payload with
  | nil => exact pure _
  | cons rule rest ih => exact bind (applyDestinationTransform rule payload) fun payload => ih payload

theorem checkedPayload {opened : RuntimeM Payload} (hopened : A.Determines H opened) :
    A.Determines H (rt.checkedPayload H record opened) := by
  refine attempt_bind hopened fun r => ?_
  cases r with
  | error e => exact pure _
  | ok payload =>
      dsimp only
      split
      · exact pure _
      · refine attempt_bind (applyDestinationTransforms _ _) fun r => ?_
        cases r with
        | error e => exact pure _
        | ok payload =>
            dsimp only
            split
            · exact pure _
            · exact pure _

end Agent.Determines

/-- A specification that asks for nothing. -/
def permissive : Spec Op Op.Res Exn Unit := ⟨fun _ _ => True, fun _ _ _ => True, fun _ _ _ => ()⟩

theorem silent_permissive : Silent permissive := ⟨fun _ _ _ => trivial, fun _ _ _ _ => rfl⟩

theorem quiet_permissive {α : Type} (p : RuntimeM α) : Quiet permissive p () := by
  induction p with
  | ret r => rfl
  | call op k ih => exact ⟨trivial, fun r _ => ih r⟩

/-- The checks before the write boundary name a payload or a known reason code. -/
theorem Agent.returns_checkedPayload {A : Agent} {H : Host} {rt : DestinationRuntime}
    {record : BlindTransportRecord} {opened : RuntimeM Payload} (hopened : A.Determines H opened)
    (S : Services) (hS : S.toAgent = A) :
    ∃ r, Checked (.ok r) ∧ A.Returns H (rt.checkedPayload H record opened) (.ok r) := by
  obtain ⟨r, hr⟩ := (@Agent.Determines.checkedPayload _ _ rt record) hopened
  let s : Session := { world := { capabilities := {} } }
  obtain ⟨-, -, hchecked⟩ := run_of_wp permissive (fun _ _ _ => trivial)
    (S.answer H {} (.deliver record)) (@quiet_checkedPayload _ _ _ H rt
      silent_permissive record _ (quiet_permissive opened)) s
  rw [(hr S hS (fun _ _ => True) (fun _ _ _ => trivial) {} (.deliver record) s).run_eq] at hchecked
  cases r with
  | error e => cases hchecked
  | ok r => exact ⟨r, hchecked, hr⟩

end Checks

/-! ## Outcomes of a held claim -/

/-- A row held under a claim token. -/
structure LedgerRow.Fenced (H : Host) (row : LedgerRow) (record : BlindTransportRecord)
    (state : DeliveryState) (claimToken : String) : Prop where
  recordDigest : row.recordDigest = record.digest H
  planDigest : row.planDigest = record.planDigest
  state : row.state = state
  claimToken : row.claimToken = some claimToken

/-- The claim of a row has not expired. -/
def LedgerRow.LiveAt (row : LedgerRow) (instant : Utc.Instant) : Prop :=
  ∃ expires, row.claimExpiresAt = some expires ∧ instant < expires

theorem applies_of_fenced {H : Host} {row : LedgerRow} {record : BlindTransportRecord}
    {claimToken : String} {t : Transition} {instant : Utc.Instant}
    (h : row.Fenced H record t.expected claimToken)
    (hlive : t.requireUnexpired = true → row.LiveAt instant) :
    t.applies H instant record claimToken row = true := by
  unfold Transition.applies
  rw [h.recordDigest, h.planDigest, h.state, h.claimToken]
  cases hrequire : t.requireUnexpired with
  | false => simp
  | true =>
      obtain ⟨expires, hexpires, hlt⟩ := hlive hrequire
      simp [hexpires, hlt]

/-- The row a transition leaves is held under the same token. -/
theorem fenced_change {H : Host} {row : LedgerRow} {record : BlindTransportRecord}
    {claimToken : String} {state : DeliveryState} {t : Transition} {instant : Utc.Instant}
    (h : row.Fenced H record state claimToken) :
    (t.change instant row).Fenced H record t.target claimToken :=
  ⟨h.recordDigest, h.planDigest, rfl, h.claimToken⟩

/-- A condition on calls that every call of these runs meets: silent calls and writes answer
anything, stores answer, and no ambiguous claim is sealed. -/
structure Tolerates (P : (op : Op) → Except Exn op.Res → Prop) : Prop where
  silent : AllowsSilent P
  write : ∀ record values context r, P (.writeRecords record values context) r
  ledger : ∀ c a, P (.ledger c) (.ok a)
  remove : ∀ digests n, P (.remove digests) (.ok n)
  spoolGet : ∀ recordDigest found, P (.spoolGet recordDigest) (.ok found)
  quarantine : ∀ records reasonCode, (∀ state, reasonCode ≠ ambiguousReason state) →
    P (.quarantine records reasonCode) (.ok ())

theorem tolerates_anyCall : Tolerates fun _ _ => True :=
  ⟨fun _ _ _ => trivial, fun _ _ _ _ => trivial, fun _ _ => trivial, fun _ _ => trivial,
    fun _ _ => trivial, fun _ _ _ => trivial⟩

section Outcomes

variable {H : Host} {spool : SpoolConfig} {S : Services} {job : Job} {s : Session}
  {record : BlindTransportRecord} {c : ClaimedDelivery} {row : LedgerRow}
  {P : (op : Op) → Except Exn op.Res → Prop} (hP : Tolerates P)

/-- The spool accepts the reason code, which is not that of an ambiguous claim. -/
structure SealReason (H : Host) (reasonCode : String) : Prop where
  valid : SealedSpool.validateReasonCode H reasonCode = .ok ()
  notAmbiguous : ∀ state, reasonCode ≠ ambiguousReason state

include hP in
theorem steps_ledgerCall {c : LedgerCall} {a : c.Answer} {ledger : Ledger}
    (h : c.exec H (S.inputs s.storeCalls) s.world.ledger = .ok a ledger) :
    S.Steps H spool job P (ledgerCall c) s (pure ()) (s.withLedger ledger) :=
  steps_call (hP.ledger c a) (answer_ledger h)

/-- The session after the transition `t` of the row of `record`. -/
def Session.moved (s : Session) (S : Services) (record : BlindTransportRecord) (t : Transition)
    (row : LedgerRow) : Session :=
  s.withLedger (Function.update s.world.ledger record.key
    (some (t.change (S.clock s.storeCalls) row)))

theorem Session.moved_row (s : Session) (S : Services) (record : BlindTransportRecord)
    (t : Transition) (row : LedgerRow) :
    (s.moved S record t row).world.ledger record.key =
      some (t.change (S.clock s.storeCalls) row) := Function.update_self ..

/-- The session after `record` was sealed. -/
def Session.sealed (s : Session) (S : Services) (H : Host) (record : BlindTransportRecord)
    (reasonCode : String) : Session :=
  s.withSpool (Function.update s.world.spool (record.digest H)
    (some (SealedSpool.rowOf record reasonCode (S.clock s.storeCalls) record.canonicalWire)))

theorem Session.sealed_entry (s : Session) (S : Services) (H : Host)
    (record : BlindTransportRecord) (reasonCode : String) :
    (s.sealed S H record reasonCode).world.spool (record.digest H) =
      some (SealedSpool.rowOf record reasonCode (S.clock s.storeCalls) record.canonicalWire) :=
  Function.update_self ..

/-- The session after the digest of `record` was removed from the spool. -/
def Session.removed (s : Session) (H : Host) (record : BlindTransportRecord) : Session :=
  s.withSpool fun digest => if digest ∈ [record.digest H] then none else s.world.spool digest

/-- A fenced transition of one row. -/
theorem transition_moved {claimToken : String} {t : Transition}
    (htoken : validateClaimToken claimToken = .ok ())
    (hcontract : validateOptionalContractId H t.contractId = .ok ())
    (hrow : s.world.ledger record.key = some row)
    (hfenced : row.Fenced H record t.expected claimToken)
    (hlive : t.requireUnexpired = true → row.LiveAt (S.clock s.storeCalls)) :
    transition H (.ok (.aware (S.clock s.storeCalls))) t record claimToken s.world.ledger =
      .ok () (Function.update s.world.ledger record.key
        (some (t.change (S.clock s.storeCalls) row))) :=
  transition_of_applies htoken hcontract hrow (applies_of_fenced hfenced hlive)

/-- Sealing an admitted record. -/
theorem answer_seal {reasonCode : String}
    (hadmitted : SealedSpool.Admitted H spool s.world.spool record)
    (hreason : SealedSpool.validateReasonCode H reasonCode = .ok ()) :
    S.answer H spool job (.quarantine [record] reasonCode) s =
      (.ok (), s.sealed S H record reasonCode) :=
  answer_quarantine (SealedSpool.quarantineMany_single hadmitted hreason)

theorem answer_removeOne :
    ∃ n, S.answer H spool job (.remove [record.digest H]) s = (.ok n, s.removed H record) := by
  have hhex : ∀ d ∈ [record.digest H], isLowerHex 64 d = true := by
    intro d hd
    rw [List.mem_singleton.1 hd]
    exact H.sha256Hex_digits _
  obtain ⟨n, hn⟩ := (@SealedSpool.removeMany_of_hex _ s.world.spool) hhex
    (Nat.le_of_ble_eq_true rfl)
  exact ⟨n, answer_remove hn⟩

include hP

/-- A check before the write boundary failed: the record is sealed and its row quarantined. -/
theorem steps_quarantineBeforeWrite {reasonCode claimToken : String} {state : DeliveryState}
    {batchAttemptId : Option String} {retrySafe : Bool} (hstate : state ∈ quarantineStates)
    (hadmitted : SealedSpool.Admitted H spool s.world.spool record)
    (hreason : SealReason H reasonCode) (htoken : validateClaimToken claimToken = .ok ())
    (hrow : s.world.ledger record.key = some row) (hfenced : row.Fenced H record state claimToken)
    (hlive : row.LiveAt (S.clock (s.storeCalls + 1))) :
    S.Steps H spool job P
      (quarantineBeforeWrite H record reasonCode claimToken state batchAttemptId retrySafe) s
      (pure (receipt H record .quarantined (some reasonCode) retrySafe batchAttemptId))
      ((s.sealed S H record reasonCode).moved S record (quarantinedTransition reasonCode state)
        row) := by
  have hmark : (LedgerCall.markQuarantined record reasonCode claimToken state).exec H
      (S.inputs (s.sealed S H record reasonCode).storeCalls)
      (s.sealed S H record reasonCode).world.ledger = .ok () (Function.update
        (s.sealed S H record reasonCode).world.ledger record.key
        (some ((quarantinedTransition reasonCode state).change
          (S.clock (s.sealed S H record reasonCode).storeCalls) row))) := by
    have hmoved := transition_moved (S := S) (s := s.sealed S H record reasonCode)
      (t := quarantinedTransition reasonCode state) htoken rfl hrow hfenced fun _ => hlive
    change DeliveryLedger.markQuarantined _ _ _ _ _ _ _ = _
    rw [DeliveryLedger.markQuarantined, if_pos hstate]
    exact hmoved
  unfold quarantineBeforeWrite
  refine (steps_call (hP.quarantine _ _ hreason.notAmbiguous)
    (answer_seal hadmitted hreason.valid)).trans ?_
  exact steps_attempt_call (hP.ledger _ _) (answer_ledger hmark)

/-- The transition that crosses the write boundary. -/
def DestinationRuntime.ClaimedDelivery.startTransition (c : ClaimedDelivery) : Transition :=
  if c.replayAttempt then startReplayWriteTransition
  else startWriteTransition (scalarIdempotencyContractId c.authorizedCapabilities)

/-- Crossing the write boundary under a live claim. -/
theorem steps_startCall (htoken : validateClaimToken c.claimToken = .ok ())
    (hcontract : validateOptionalContractId H
      (scalarIdempotencyContractId c.authorizedCapabilities) = .ok ())
    (hrow : s.world.ledger record.key = some row)
    (hfenced : row.Fenced H record c.claimedState c.claimToken)
    (hlive : row.LiveAt (S.clock s.storeCalls)) :
    S.Steps H spool job P (ledgerCall (c.startCall record)) s (pure ())
      (s.moved S record c.startTransition row) := by
  cases hreplay : c.replayAttempt with
  | false =>
      have hstate : c.claimedState = .claimed := by simp [ClaimedDelivery.claimedState, hreplay]
      rw [hstate] at hfenced
      simp only [ClaimedDelivery.startCall, ClaimedDelivery.startTransition, hreplay]
      exact steps_ledgerCall hP (c := .startWrite record c.claimToken _)
        (transition_moved (t := startWriteTransition _) htoken hcontract hrow hfenced
          fun _ => hlive)
  | true =>
      have hstate : c.claimedState = .replayClaimed := by
        simp [ClaimedDelivery.claimedState, hreplay]
      rw [hstate] at hfenced
      simp only [ClaimedDelivery.startCall, ClaimedDelivery.startTransition, hreplay]
      exact steps_ledgerCall hP (c := .startReplayWrite record c.claimToken)
        (transition_moved (t := startReplayWriteTransition) htoken rfl hrow hfenced fun _ => hlive)

/-- An acknowledged write: the row is committed and the spool entry removed. -/
theorem steps_writeAcknowledged (htoken : validateClaimToken c.claimToken = .ok ())
    (hrow : s.world.ledger record.key = some row)
    (hfenced : row.Fenced H record c.writeStartedState c.claimToken) :
    S.Steps H spool job P (writeAcknowledged H record c) s
      (pure (receipt H record .delivered none false c.batchAttemptId))
      ((s.moved S record (committedTransition c.writeStartedState) row).removed H record) := by
  have hcommitted : S.Steps H spool job P (ledgerCall (c.committedCall record)) s (pure ())
      (s.moved S record (committedTransition c.writeStartedState) row) := by
    cases hreplay : c.replayAttempt with
    | false =>
        have hstate : c.writeStartedState = .writeStarted := by
          simp [ClaimedDelivery.writeStartedState, hreplay]
        rw [hstate] at hfenced ⊢
        simp only [ClaimedDelivery.committedCall, hreplay]
        exact steps_ledgerCall hP (c := .markCommitted record c.claimToken)
          (transition_moved (t := committedTransition .writeStarted) htoken rfl hrow hfenced
            fun h => nomatch h)
    | true =>
        have hstate : c.writeStartedState = .replayWriteStarted := by
          simp [ClaimedDelivery.writeStartedState, hreplay]
        rw [hstate] at hfenced ⊢
        simp only [ClaimedDelivery.committedCall, hreplay]
        exact steps_ledgerCall hP (c := .markReplayCommitted record c.claimToken)
          (transition_moved (t := committedTransition .replayWriteStarted) htoken rfl hrow hfenced
            fun h => nomatch h)
  obtain ⟨n, hn⟩ := @answer_removeOne H spool S job (s.moved S record
      (committedTransition c.writeStartedState) row) record
  unfold writeAcknowledged
  refine (hcommitted.attempt_bind _).trans ?_
  exact steps_attempt_call (hP.remove _ n) hn

/-- The transition that records an unknown outcome. -/
def DestinationRuntime.ClaimedDelivery.uncertainTransition (c : ClaimedDelivery) : Transition :=
  DeliveryLedger.uncertainTransition (if c.replayAttempt then .replayUncertain else .uncertain)
    c.writeStartedState "write_outcome_unknown"

/-- A write of unknown outcome: the record is sealed and its row uncertain. -/
theorem steps_writeOutcomeUnknown
    (hadmitted : SealedSpool.Admitted H spool s.world.spool record)
    (htoken : validateClaimToken c.claimToken = .ok ())
    (hrow : s.world.ledger record.key = some row)
    (hfenced : row.Fenced H record c.writeStartedState c.claimToken) :
    S.Steps H spool job P (writeOutcomeUnknown H record c) s
      (pure (receipt H record .quarantined (some "write_outcome_unknown") c.writeRetrySafe
        c.batchAttemptId))
      ((s.sealed S H record "write_outcome_unknown").moved S record c.uncertainTransition row) := by
  have hreason : SealReason H "write_outcome_unknown" := by
    refine ⟨SealedSpool.validateReasonCode_ascii (by decide) (by decide) (by decide), ?_⟩
    intro state
    cases state <;> decide
  have huncertain : S.Steps H spool job P (ledgerCall (c.uncertainCall record))
      (s.sealed S H record "write_outcome_unknown") (pure ())
      ((s.sealed S H record "write_outcome_unknown").moved S record c.uncertainTransition row) := by
    cases hreplay : c.replayAttempt with
    | false =>
        have hstate : c.writeStartedState = .writeStarted := by
          simp [ClaimedDelivery.writeStartedState, hreplay]
        rw [hstate] at hfenced
        simp only [ClaimedDelivery.uncertainCall, ClaimedDelivery.uncertainTransition, hreplay,
          hstate]
        exact steps_ledgerCall hP (c := .markUncertain record "write_outcome_unknown" c.claimToken)
          (transition_moved (t := DeliveryLedger.uncertainTransition .uncertain .writeStarted _)
            htoken rfl hrow hfenced fun h => nomatch h)
    | true =>
        have hstate : c.writeStartedState = .replayWriteStarted := by
          simp [ClaimedDelivery.writeStartedState, hreplay]
        rw [hstate] at hfenced
        simp only [ClaimedDelivery.uncertainCall, ClaimedDelivery.uncertainTransition, hreplay,
          hstate]
        exact steps_ledgerCall hP
          (c := .markReplayUncertain record "write_outcome_unknown" c.claimToken)
          (transition_moved
            (t := DeliveryLedger.uncertainTransition .replayUncertain .replayWriteStarted _)
            htoken rfl hrow hfenced fun h => nomatch h)
  unfold writeOutcomeUnknown
  refine (steps_call (hP.quarantine _ _ hreason.notAmbiguous)
    (answer_seal hadmitted hreason.valid)).trans ?_
  exact steps_bind huncertain

/-! ## From the claim to the connector -/

omit hP in
/-- Claiming one record. -/
theorem answer_claim {leaseFor : Int} {claimExpiresAt : Utc.Instant} {claim : ClaimResult}
    {row' : LedgerRow} (hlease : validateLeaseDuration leaseFor = .ok ())
    (hexpiry : expiry (S.clock s.storeCalls) leaseFor = .ok claimExpiresAt)
    (houtcome : claimOutcome H (S.clock s.storeCalls) claimExpiresAt record
      (S.claimToken s.storeCalls 0) (s.world.ledger record.key) = .ok (claim, row')) :
    S.answer H spool job (.ledger (.claimMany [record] leaseFor)) s =
      (.ok [claim], s.withLedger (Function.update s.world.ledger record.key (some row'))) := by
  refine answer_ledger (c := .claimMany [record] leaseFor) ?_
  change claimMany H (.ok (.aware (S.clock s.storeCalls))) (S.claimToken s.storeCalls) [record]
    leaseFor s.world.ledger = _
  have hrecord : claimRecords H (S.clock s.storeCalls) claimExpiresAt (S.claimToken s.storeCalls) 0
      [record] s.world.ledger =
      .ok [claim] (Function.update s.world.ledger record.key (some row')) := by
    unfold claimRecords
    rw [Transaction.bind_apply, claimRecord_apply, houtcome]
    rfl
  have hbatch : validateBatch ([record].map BlindTransportRecord.key) = .ok () :=
    validateBatch_of_nodup (Nat.le_of_ble_eq_true rfl) (List.nodup_singleton _)
  unfold claimMany
  rw [lift_ok_bind hlease, if_neg (List.cons_ne_nil _ _), lift_ok_bind hbatch,
    lift_ok_bind (show now (.ok (.aware (S.clock s.storeCalls))) = .ok (S.clock s.storeCalls)
      from rfl),
    lift_ok_bind hexpiry]
  exact transaction_of_ok hrecord

variable {rt : DestinationRuntime} {caps : ConnectorCapabilities} {privateKey : PrivateKey}

/-- An authorized capability. -/
theorem steps_authorizeCapability {operation : CapabilityOperation}
    (hcapability : S.authorizeCapability operation record = .ok ()) :
    S.Steps H spool job P (rt.authorizeCapability operation record) s (pure ()) s := by
  unfold DestinationRuntime.authorizeCapability
  split
  · have hanswer : S.answer H spool job (.authorizeCapability operation record) s = (.ok (), s) := by
      rw [Services.answer, hcapability]
    exact steps_perform (hP.silent _ _ rfl) hanswer
  · exact .refl _ _

/-- A claim that the worker now holds leads to the checks. -/
theorem steps_deliver_held {claimExpiresAt : Utc.Instant} {claim : ClaimResult} {row' : LedgerRow}
    {claimToken : String} (hwrite : caps.writeRecords = true)
    (hauthorized : S.authorizeRecord record = .ok privateKey)
    (hcapability : S.authorizeCapability .writeRecords record = .ok ())
    (hlease : validateLeaseDuration rt.claimLease = .ok ())
    (hexpiry : expiry (S.clock s.storeCalls) rt.claimLease = .ok claimExpiresAt)
    (houtcome : claimOutcome H (S.clock s.storeCalls) claimExpiresAt record
      (S.claimToken s.storeCalls 0) (s.world.ledger record.key) = .ok (claim, row'))
    (hheld : claim.disposition = .new ∨ claim.disposition = .recovered)
    (htoken : claim.claimToken = some claimToken) :
    S.Steps H spool job P (rt.deliverWithCapabilities H record caps) s
      (rt.deliverClaimed H record
        { claimToken := claimToken, authorizedPrivateKey := some privateKey
          authorizedCapabilities := caps })
      (s.withLedger (Function.update s.world.ledger record.key (some row'))) := by
  have hallowed := @steps_authorizeCapability H spool _ job s _ _ hP rt _ hcapability
  have hkey : S.answer H spool job (.authorizeRecord record) s = (.ok privateKey, s) := by
    rw [Services.answer, hauthorized]
  unfold deliverWithCapabilities
  rw [hwrite, if_neg (by decide)]
  refine (steps_call (hP.silent _ _ rfl) hkey).trans ?_
  refine (steps_bind hallowed).trans ?_
  refine (steps_call (hP.ledger _ _) (answer_claim hlease hexpiry houtcome)).trans ?_
  rcases hheld with hheld | hheld
  · simp only [hheld, htoken]
    exact .refl _ _
  · simp only [hheld, htoken]
    exact .refl _ _

/-- A claim of a row whose earlier write may have taken effect leads to sealing the record. -/
theorem steps_deliver_ambiguous {claimExpiresAt : Utc.Instant} {claim : ClaimResult}
    {row' : LedgerRow} (hwrite : caps.writeRecords = true)
    (hauthorized : S.authorizeRecord record = .ok privateKey)
    (hcapability : S.authorizeCapability .writeRecords record = .ok ())
    (hlease : validateLeaseDuration rt.claimLease = .ok ())
    (hexpiry : expiry (S.clock s.storeCalls) rt.claimLease = .ok claimExpiresAt)
    (houtcome : claimOutcome H (S.clock s.storeCalls) claimExpiresAt record
      (S.claimToken s.storeCalls 0) (s.world.ledger record.key) = .ok (claim, row'))
    (hambiguous : claim.disposition = .ambiguous) :
    S.Steps H spool job P (rt.deliverWithCapabilities H record caps) s
      (deliverAmbiguous H record claim)
      (s.withLedger (Function.update s.world.ledger record.key (some row'))) := by
  have hallowed := @steps_authorizeCapability H spool _ job s _ _ hP rt _ hcapability
  have hkey : S.answer H spool job (.authorizeRecord record) s = (.ok privateKey, s) := by
    rw [Services.answer, hauthorized]
  unfold deliverWithCapabilities
  rw [hwrite, if_neg (by decide)]
  refine (steps_call (hP.silent _ _ rfl) hkey).trans ?_
  refine (steps_bind hallowed).trans ?_
  refine (steps_call (hP.ledger _ _) (answer_claim hlease hexpiry houtcome)).trans ?_
  simp only [hambiguous]
  exact .refl _ _

omit hP in
/-- Sealing an ambiguous claim. -/
theorem steps_deliverAmbiguous {claim : ClaimResult}
    (hadmitted : SealedSpool.Admitted H spool s.world.spool record)
    (hquarantine : P (.quarantine [record] (ambiguousReason claim.state)) (.ok ())) :
    S.Steps H spool job P (deliverAmbiguous H record claim) s
      (pure (receipt H record .ambiguous (some (ambiguousReason claim.state)) false
        claim.batchAttemptId))
      (s.sealed S H record (ambiguousReason claim.state)) := by
  have hreason : SealedSpool.validateReasonCode H (ambiguousReason claim.state) = .ok () := by
    unfold ambiguousReason
    split
    · exact SealedSpool.validateReasonCode_ascii (by decide) (by decide) (by decide)
    · exact SealedSpool.validateReasonCode_ascii (by decide) (by decide) (by decide)
  exact steps_call hquarantine (answer_seal hadmitted hreason)

/-- The checks passed and the capabilities are unchanged: the claim crosses the write boundary. -/
theorem steps_deliverClaimed_write {payload : Payload}
    (hchecked : S.toAgent.Returns H (rt.checkedPayload H record (openClaimed record c))
      (.ok (.ok payload)))
    (hcaps : s.world.capabilities = c.authorizedCapabilities)
    (htoken : validateClaimToken c.claimToken = .ok ())
    (hcontract : validateOptionalContractId H
      (scalarIdempotencyContractId c.authorizedCapabilities) = .ok ())
    (hrow : s.world.ledger record.key = some row)
    (hfenced : row.Fenced H record c.claimedState c.claimToken)
    (hlive : row.LiveAt (S.clock s.storeCalls)) :
    S.Steps H spool job P (rt.deliverClaimed H record c) s (writeScalar H record c payload)
      (s.moved S record c.startTransition row) := by
  have hunchanged : S.Steps H spool job P (capabilityChanged c.authorizedCapabilities) s
      (pure false) s := by
    have hread : S.answer H spool job .capabilities s = (.ok c.authorizedCapabilities, s) := by
      rw [Services.answer, hcaps]
    unfold capabilityChanged
    refine (steps_attempt_call (hP.silent _ _ rfl) hread).trans ?_
    simp only [ne_eq, not_true_eq_false, decide_false]
    exact .refl _ _
  unfold deliverClaimed
  refine (steps_bind (hchecked S rfl P hP.silent spool job s)).trans ?_
  refine (steps_bind hunchanged).trans ?_
  exact (steps_startCall hP htoken hcontract hrow hfenced hlive).attempt_bind _

/-- A check failed: the record is quarantined before the write boundary. -/
theorem steps_deliverClaimed_quarantine {reasonCode : String}
    (hchecked : S.toAgent.Returns H (rt.checkedPayload H record (openClaimed record c))
      (.ok (.error reasonCode))) :
    S.Steps H spool job P (rt.deliverClaimed H record c) s
      (quarantineBeforeWrite H record reasonCode c.claimToken c.claimedState
        c.batchAttemptId c.writeRetrySafe) s :=
  steps_bind (hchecked S rfl P hP.silent spool job s)

/-- The session after the connector was called. -/
def Session.wrote (s : Session) (job : Job) (record : BlindTransportRecord) (payload : Payload)
    (context : DeliveryContext) (outcome : Except Exn (Option Int)) : Session :=
  { s with
    world := { s.world with
      attempts := ⟨job, [record], false, s.world.capabilities, outcome⟩ :: s.world.attempts }
    handed := s.handed ++ [(payload, context.idempotencyKey)] }

/-- The connector acknowledges one record. -/
theorem steps_writeScalar_committed {payload : Payload}
    (houtcome : S.writeRecords record payload = .ok (some 1)) :
    S.Steps H spool job P (writeScalar H record c payload) s (writeAcknowledged H record c)
      (s.wrote job record payload (deliveryContext H record) (.ok (some 1))) := by
  have hanswer : S.answer H spool job (.writeRecords record payload (deliveryContext H record)) s =
      (.ok (some 1), s.wrote job record payload (deliveryContext H record) (.ok (some 1))) := by
    rw [Services.answer, houtcome]
    rfl
  unfold writeScalar
  exact steps_attempt_call (hP.write _ _ _ _) hanswer

/-- The connector raises without a proof that nothing was written. -/
theorem steps_writeScalar_unknown {payload : Payload} {e : Exn}
    (houtcome : S.writeRecords record payload = .error e) (he : e.provesNotCommitted = false) :
    S.Steps H spool job P (writeScalar H record c payload) s (writeOutcomeUnknown H record c)
      (s.wrote job record payload (deliveryContext H record) (.error e)) := by
  have hanswer : S.answer H spool job (.writeRecords record payload (deliveryContext H record)) s =
      (.error e, s.wrote job record payload (deliveryContext H record) (.error e)) := by
    rw [Services.answer, houtcome]
    rfl
  have hbranch : writeOutcomeUnknown H record c = if e.provesNotCommitted = true
      then writeNotCommitted H record c else writeOutcomeUnknown H record c := by
    rw [if_neg (Bool.eq_false_iff.1 he)]
  rw [hbranch]
  unfold writeScalar
  exact steps_attempt_call (hP.write _ _ _ _) hanswer

end Outcomes

end Polymorph
