import Polymorph.Delivery.LedgerSpec

/-!
# The ledger's interface

`LedgerCall` lists the calls of the ledger with their arguments, `LedgerInputs` what one call draws
from its environment. `exec_rowMove` says, for every call and every row, all that a call which
returned can have done to the row; `exec_transition` says what a transition that returned has
done to each of its rows; `exec_atomic` that a call which raised did nothing.
-/

set_option autoImplicit false

namespace Polymorph

open Transaction Utc DeliveryLedger

/-- Calls of the ledger. `claim(record)` is `claimMany [record]`. -/
inductive LedgerCall where
  | claimMany (records : List BlindTransportRecord) (leaseFor : Int)
  | startWrite (record : BlindTransportRecord) (claimToken : String)
      (idempotencyContractId : Option String)
  | startReplayWrite (record : BlindTransportRecord) (claimToken : String)
  | startWriteMany (items : List (BlindTransportRecord × String))
      (idempotencyContractId : Option String)
  | markCommitted (record : BlindTransportRecord) (claimToken : String)
  | markReplayCommitted (record : BlindTransportRecord) (claimToken : String)
  | markCommittedMany (items : List (BlindTransportRecord × String))
  | markUncertain (record : BlindTransportRecord) (reasonCode claimToken : String)
  | markReplayUncertain (record : BlindTransportRecord) (reasonCode claimToken : String)
  | markUncertainMany (items : List (BlindTransportRecord × String)) (reasonCode : String)
  | markQuarantined (record : BlindTransportRecord) (reasonCode claimToken : String)
      (expectedState : DeliveryState)
  | markQuarantinedMany (items : List (BlindTransportRecord × String)) (reasonCode : String)
      (expectedState : DeliveryState)
  | rearmForRetry (record : BlindTransportRecord) (expectedState : DeliveryState) (leaseFor : Int)
  | get (record : BlindTransportRecord)

/-- What one call draws from its environment. -/
structure LedgerInputs where
  clock : ClockReading
  /-- The claim tokens drawn, in order. -/
  claimToken : Nat → String
  /-- The batch attempt id drawn. -/
  batchAttemptId : String

namespace LedgerCall

/-- What a call returns. -/
abbrev Answer : LedgerCall → Type
  | claimMany _ _ => List ClaimResult
  | startWriteMany _ _ => String
  | rearmForRetry _ _ _ => ClaimResult
  | get _ => Option LedgerRow
  | _ => Unit

/-- The call on the table. -/
def exec (H : Host) (i : LedgerInputs) : (c : LedgerCall) → LedgerM c.Answer
  | claimMany records leaseFor => DeliveryLedger.claimMany H i.clock i.claimToken records leaseFor
  | startWrite record claimToken contractId =>
      DeliveryLedger.startWrite H i.clock record claimToken contractId
  | startReplayWrite record claimToken =>
      DeliveryLedger.startReplayWrite H i.clock record claimToken
  | startWriteMany items contractId =>
      DeliveryLedger.startWriteMany H i.clock i.batchAttemptId items contractId
  | markCommitted record claimToken => DeliveryLedger.markCommitted H i.clock record claimToken
  | markReplayCommitted record claimToken =>
      DeliveryLedger.markReplayCommitted H i.clock record claimToken
  | markCommittedMany items => DeliveryLedger.markCommittedMany H i.clock items
  | markUncertain record reasonCode claimToken =>
      DeliveryLedger.markUncertain H i.clock record reasonCode claimToken
  | markReplayUncertain record reasonCode claimToken =>
      DeliveryLedger.markReplayUncertain H i.clock record reasonCode claimToken
  | markUncertainMany items reasonCode =>
      DeliveryLedger.markUncertainMany H i.clock items reasonCode
  | markQuarantined record reasonCode claimToken expectedState =>
      DeliveryLedger.markQuarantined H i.clock record reasonCode claimToken expectedState
  | markQuarantinedMany items reasonCode expectedState =>
      DeliveryLedger.markQuarantinedMany H i.clock items reasonCode expectedState
  | rearmForRetry record expectedState leaseFor =>
      DeliveryLedger.rearmForRetry H i.clock (i.claimToken 0) record expectedState leaseFor
  | get record => DeliveryLedger.get H record

/-- The transition a call makes on its rows. -/
def transition? (i : LedgerInputs) : LedgerCall → Option Transition
  | startWrite _ _ contractId => some (startWriteTransition contractId)
  | startReplayWrite _ _ => some startReplayWriteTransition
  | startWriteMany _ contractId => some (startWriteManyTransition i.batchAttemptId contractId)
  | markCommitted _ _ => some (committedTransition .writeStarted)
  | markReplayCommitted _ _ => some (committedTransition .replayWriteStarted)
  | markCommittedMany _ => some (committedTransition .batchWriteStarted)
  | markUncertain _ reasonCode _ => some (uncertainTransition .uncertain .writeStarted reasonCode)
  | markReplayUncertain _ reasonCode _ =>
      some (uncertainTransition .replayUncertain .replayWriteStarted reasonCode)
  | markUncertainMany _ reasonCode =>
      some (uncertainTransition .batchUncertain .batchWriteStarted reasonCode)
  | markQuarantined _ reasonCode _ expectedState =>
      if expectedState ∈ quarantineStates then
        some (quarantinedTransition reasonCode expectedState)
      else none
  | markQuarantinedMany _ reasonCode expectedState =>
      if expectedState ∈ batchQuarantineStates then
        some (quarantinedManyTransition reasonCode expectedState)
      else none
  | claimMany _ _ => none
  | rearmForRetry _ _ _ => none
  | get _ => none

/-- The records of a transition with their claim tokens. -/
def items : LedgerCall → List (BlindTransportRecord × String)
  | startWrite record claimToken _ => [(record, claimToken)]
  | startReplayWrite record claimToken => [(record, claimToken)]
  | startWriteMany items _ => items
  | markCommitted record claimToken => [(record, claimToken)]
  | markReplayCommitted record claimToken => [(record, claimToken)]
  | markCommittedMany items => items
  | markUncertain record _ claimToken => [(record, claimToken)]
  | markReplayUncertain record _ claimToken => [(record, claimToken)]
  | markUncertainMany items _ => items
  | markQuarantined record _ claimToken _ => [(record, claimToken)]
  | markQuarantinedMany items _ _ => items
  | claimMany _ _ => []
  | rearmForRetry _ _ _ => []
  | get _ => []

/-! ## All or nothing -/

variable (H : Host)

theorem atomic_transition (clock : ClockReading) (t : Transition) (record : BlindTransportRecord)
    (claimToken : String) : Atomic (DeliveryLedger.transition H clock t record claimToken) := by
  unfold DeliveryLedger.transition
  refine (readOnly_lift _).bind_atomic fun _ => ?_
  refine (readOnly_lift _).bind_atomic fun _ => ?_
  refine (readOnly_lift _).bind_atomic fun _ => ?_
  exact atomic_transaction _

theorem atomic_transitionMany (clock : ClockReading) (t : Transition)
    (items : List (BlindTransportRecord × String)) :
    Atomic (DeliveryLedger.transitionMany H clock t items) := by
  unfold DeliveryLedger.transitionMany
  split
  · exact (readOnly_pure ()).2
  · refine (readOnly_lift _).bind_atomic fun _ => ?_
    refine (readOnly_lift _).bind_atomic fun _ => ?_
    refine (readOnly_lift _).bind_atomic fun _ => ?_
    refine (readOnly_lift _).bind_atomic fun _ => ?_
    refine (readOnly_lift _).bind_atomic fun _ => ?_
    exact atomic_transaction _

theorem readOnly_get (record : BlindTransportRecord) : ReadOnly (DeliveryLedger.get H record) := by
  unfold DeliveryLedger.get DeliveryLedger.selectRow
  refine (Transaction.readOnly_get.bind fun _ => readOnly_pure _).bind fun row => ?_
  cases row with
  | none => exact readOnly_pure _
  | some row =>
      exact (readOnly_lift _).bind fun _ => (readOnly_lift _).bind fun _ => readOnly_pure _

/-- **A call that raises leaves all rows exactly as they were.** -/
theorem exec_atomic (i : LedgerInputs) (c : LedgerCall) : Atomic (c.exec H i) := by
  cases c with
  | claimMany records leaseFor =>
      change Atomic (DeliveryLedger.claimMany H i.clock i.claimToken records leaseFor)
      unfold DeliveryLedger.claimMany
      refine (readOnly_lift _).bind_atomic fun _ => ?_
      split
      · exact (readOnly_pure _).2
      · refine (readOnly_lift _).bind_atomic fun _ => ?_
        refine (readOnly_lift _).bind_atomic fun _ => ?_
        refine (readOnly_lift _).bind_atomic fun _ => ?_
        exact atomic_transaction _
  | startWrite record claimToken contractId => exact atomic_transition H _ _ _ _
  | startReplayWrite record claimToken => exact atomic_transition H _ _ _ _
  | startWriteMany items contractId => exact (atomic_transitionMany H _ _ _).bind_pure _
  | markCommitted record claimToken => exact atomic_transition H _ _ _ _
  | markReplayCommitted record claimToken => exact atomic_transition H _ _ _ _
  | markCommittedMany items => exact atomic_transitionMany H _ _ _
  | markUncertain record reasonCode claimToken => exact atomic_transition H _ _ _ _
  | markReplayUncertain record reasonCode claimToken => exact atomic_transition H _ _ _ _
  | markUncertainMany items reasonCode => exact atomic_transitionMany H _ _ _
  | markQuarantined record reasonCode claimToken expectedState =>
      change Atomic (DeliveryLedger.markQuarantined H _ _ _ _ _)
      unfold DeliveryLedger.markQuarantined
      split
      · exact atomic_transition H _ _ _ _
      · exact (readOnly_throw _).2
  | markQuarantinedMany items reasonCode expectedState =>
      change Atomic (DeliveryLedger.markQuarantinedMany H _ _ _ _)
      unfold DeliveryLedger.markQuarantinedMany
      split
      · exact atomic_transitionMany H _ _ _
      · exact (readOnly_throw _).2
  | rearmForRetry record expectedState leaseFor =>
      change Atomic (DeliveryLedger.rearmForRetry H _ _ _ _ _)
      unfold DeliveryLedger.rearmForRetry
      dsimp only
      have hrest : Atomic (do
          DeliveryLedger.validateLeaseDuration leaseFor
          let instant ← DeliveryLedger.now i.clock
          let claimExpiresAt ← DeliveryLedger.expiry instant leaseFor
          transaction (DeliveryLedger.rearmRecord H instant claimExpiresAt (i.claimToken 0) record
            expectedState) : LedgerM ClaimResult) := by
        refine (readOnly_lift _).bind_atomic fun _ => ?_
        refine (readOnly_lift _).bind_atomic fun _ => ?_
        refine (readOnly_lift _).bind_atomic fun _ => ?_
        exact atomic_transaction _
      split
      · exact (readOnly_throw _).bind_atomic fun _ => hrest
      · exact hrest
  | get record => exact (readOnly_get H record).2

/-! ## What a call that returned has done -/

theorem validateBatch_ok {keys : List DeliveryKey} {u : Unit}
    (h : DeliveryLedger.validateBatch keys = .ok u) : keys.Nodup := by
  unfold DeliveryLedger.validateBatch at h
  by_contra hnodup
  simp only [hnodup, not_false_eq_true, if_true] at h
  split at h <;> cases h

theorem transition_ok {clock : ClockReading} {t : Transition} {record : BlindTransportRecord}
    {claimToken : String} {s s' : Ledger} {u : Unit}
    (h : DeliveryLedger.transition H clock t record claimToken s = .ok u s') :
    ∃ instant, DeliveryLedger.now clock = .ok instant ∧
      Transitions H t instant [(record, claimToken)] s s' := by
  obtain ⟨-, -, h⟩ := lift_bind_eq_ok.1 h
  obtain ⟨-, -, h⟩ := lift_bind_eq_ok.1 h
  obtain ⟨instant, hnow, h⟩ := lift_bind_eq_ok.1 h
  obtain ⟨row, hrow, happlies, rfl⟩ := transitionRecord_ok H (transaction_eq_ok_iff.1 h)
  exact ⟨instant, hnow, transitions_single H hrow happlies⟩

theorem transitionMany_ok {clock : ClockReading} {t : Transition}
    {items : List (BlindTransportRecord × String)} {s s' : Ledger} {u : Unit}
    (h : DeliveryLedger.transitionMany H clock t items s = .ok u s') :
    (items = [] ∧ s' = s) ∨
      ∃ instant, DeliveryLedger.now clock = .ok instant ∧ Transitions H t instant items s s' := by
  unfold DeliveryLedger.transitionMany at h
  split at h
  · rename_i hnil
    exact .inl ⟨hnil, (pure_eq_ok_iff.1 h).2.symm⟩
  · obtain ⟨_, hbatch, h⟩ := lift_bind_eq_ok.1 h
    obtain ⟨-, -, h⟩ := lift_bind_eq_ok.1 h
    obtain ⟨-, -, h⟩ := lift_bind_eq_ok.1 h
    obtain ⟨-, -, h⟩ := lift_bind_eq_ok.1 h
    obtain ⟨instant, hnow, h⟩ := lift_bind_eq_ok.1 h
    have hnodup : (items.map fun item => item.1.key).Nodup := validateBatch_ok hbatch
    exact .inr ⟨instant, hnow, transitionRecords_ok H hnodup (transaction_eq_ok_iff.1 h)⟩

/-- The rows before and after a transition of a call. -/
def Transitioned (t : Transition) (c : LedgerCall) (s s' : Ledger) : Prop :=
  (c.items = [] ∧ s' = s) ∨ ∃ instant, Transitions H t instant c.items s s'

/-- A transition that returned moved exactly its rows. -/
theorem exec_transition {i : LedgerInputs} {c : LedgerCall} {t : Transition} {s s' : Ledger}
    {a : c.Answer} (ht : c.transition? i = some t) (h : c.exec H i s = .ok a s') :
    Transitioned H t c s s' := by
  cases c with
  | claimMany records leaseFor => cases ht
  | rearmForRetry record expectedState leaseFor => cases ht
  | get record => cases ht
  | startWriteMany items contractId =>
      cases ht
      obtain ⟨u, s₁, h₁, h₂⟩ := bind_eq_ok_iff.1 h
      obtain ⟨-, rfl⟩ := pure_eq_ok_iff.1 h₂
      exact (transitionMany_ok H h₁).imp id fun ⟨instant, _, hmoved⟩ => ⟨instant, hmoved⟩
  | markCommittedMany items =>
      cases ht
      exact (transitionMany_ok H h).imp id fun ⟨instant, _, hmoved⟩ => ⟨instant, hmoved⟩
  | markUncertainMany items reasonCode =>
      cases ht
      exact (transitionMany_ok H h).imp id fun ⟨instant, _, hmoved⟩ => ⟨instant, hmoved⟩
  | markQuarantinedMany items reasonCode expectedState =>
      change DeliveryLedger.markQuarantinedMany H _ _ _ _ s = _ at h
      unfold DeliveryLedger.markQuarantinedMany at h
      split at h
      · rename_i hstate
        simp only [transition?, hstate, if_true, Option.some.injEq] at ht
        subst ht
        exact (transitionMany_ok H h).imp id fun ⟨instant, _, hmoved⟩ => ⟨instant, hmoved⟩
      · exact (throw_eq_ok_iff.1 h).elim
  | markQuarantined record reasonCode claimToken expectedState =>
      change DeliveryLedger.markQuarantined H _ _ _ _ _ s = _ at h
      unfold DeliveryLedger.markQuarantined at h
      split at h
      · rename_i hstate
        simp only [transition?, hstate, if_true, Option.some.injEq] at ht
        subst ht
        obtain ⟨instant, -, hmoved⟩ := transition_ok H h
        exact .inr ⟨instant, hmoved⟩
      · exact (throw_eq_ok_iff.1 h).elim
  | startWrite record claimToken contractId =>
      cases ht
      obtain ⟨instant, -, hmoved⟩ := transition_ok H h
      exact .inr ⟨instant, hmoved⟩
  | startReplayWrite record claimToken =>
      cases ht
      obtain ⟨instant, -, hmoved⟩ := transition_ok H h
      exact .inr ⟨instant, hmoved⟩
  | markCommitted record claimToken =>
      cases ht
      obtain ⟨instant, -, hmoved⟩ := transition_ok H h
      exact .inr ⟨instant, hmoved⟩
  | markReplayCommitted record claimToken =>
      cases ht
      obtain ⟨instant, -, hmoved⟩ := transition_ok H h
      exact .inr ⟨instant, hmoved⟩
  | markUncertain record reasonCode claimToken =>
      cases ht
      obtain ⟨instant, -, hmoved⟩ := transition_ok H h
      exact .inr ⟨instant, hmoved⟩
  | markReplayUncertain record reasonCode claimToken =>
      cases ht
      obtain ⟨instant, -, hmoved⟩ := transition_ok H h
      exact .inr ⟨instant, hmoved⟩

theorem claimMany_ok {clock : ClockReading} {token : Nat → String}
    {records : List BlindTransportRecord} {leaseFor : Int} {results : List ClaimResult}
    {s s' : Ledger}
    (h : DeliveryLedger.claimMany H clock token records leaseFor s = .ok results s') :
    (records = [] ∧ results = [] ∧ s' = s) ∨
      ∃ instant claimExpiresAt, DeliveryLedger.now clock = .ok instant ∧
        instant.add leaseFor = some claimExpiresAt ∧
        Claims H instant claimExpiresAt token 0 records results s s' := by
  obtain ⟨-, -, h⟩ := lift_bind_eq_ok.1 h
  split at h
  · rename_i hnil
    obtain ⟨rfl, rfl⟩ := pure_eq_ok_iff.1 h
    exact .inl ⟨hnil, rfl, rfl⟩
  · obtain ⟨_, hbatch, h⟩ := lift_bind_eq_ok.1 h
    obtain ⟨instant, hnow, h⟩ := lift_bind_eq_ok.1 h
    obtain ⟨claimExpiresAt, hexpiry, h⟩ := lift_bind_eq_ok.1 h
    refine .inr ⟨instant, claimExpiresAt, hnow, ?_,
      claimRecords_ok H (validateBatch_ok hbatch) (transaction_eq_ok_iff.1 h)⟩
    unfold DeliveryLedger.expiry at hexpiry
    split at hexpiry
    · rename_i t ht
      cases hexpiry
      exact ht
    · cases hexpiry

theorem rearmForRetry_ok {clock : ClockReading} {claimToken : String}
    {record : BlindTransportRecord} {expectedState : DeliveryState} {leaseFor : Int}
    {result : ClaimResult} {s s' : Ledger}
    (h : DeliveryLedger.rearmForRetry H clock claimToken record expectedState leaseFor s =
      .ok result s') :
    expectedState ≠ .committed ∧ ∃ instant claimExpiresAt row',
      DeliveryLedger.now clock = .ok instant ∧
      rearmOutcome H instant claimExpiresAt claimToken record expectedState (s record.key) =
        .ok (result, row') ∧
      s' = Function.update s record.key (some row') := by
  unfold DeliveryLedger.rearmForRetry at h
  dsimp only at h
  split at h
  · obtain ⟨u, s₁, h₁, -⟩ := bind_eq_ok_iff.1 h
    exact (throw_eq_ok_iff.1 h₁).elim
  · rename_i hstate
    obtain ⟨-, -, h⟩ := lift_bind_eq_ok.1 h
    obtain ⟨instant, hnow, h⟩ := lift_bind_eq_ok.1 h
    obtain ⟨claimExpiresAt, -, h⟩ := lift_bind_eq_ok.1 h
    rw [transaction_eq_ok_iff, rearmRecord_apply] at h
    cases houtcome : rearmOutcome H instant claimExpiresAt claimToken record expectedState
        (s record.key) with
    | error e =>
        rw [houtcome] at h
        cases h
    | ok p =>
        rw [houtcome] at h
        cases h
        exact ⟨hstate, instant, claimExpiresAt, p.2, hnow, houtcome, rfl⟩

/-- `rearm_for_retry` returns only after arming a row in the expected state. -/
theorem rearmOutcome_ok {instant claimExpiresAt : Instant} {claimToken : String}
    {record : BlindTransportRecord} {expectedState : DeliveryState} {old : Option LedgerRow}
    {result : ClaimResult} {row' : LedgerRow}
    (h : rearmOutcome H instant claimExpiresAt claimToken record expectedState old =
      .ok (result, row')) :
    ∃ row, old = some row ∧ row.recordDigest = record.digest H ∧
      row.planDigest = record.planDigest ∧ row.state = expectedState ∧
      row' = rearmedRow instant claimExpiresAt claimToken row ∧
      result.state = rearmTarget expectedState ∧ result.claimToken = some claimToken ∧
      result.batchAttemptId = row.currentWriteBatchAttemptId := by
  unfold rearmOutcome at h
  split at h
  · cases h
  · rename_i row
    split at h
    · cases h
    · rename_i hmismatch
      rw [not_or, not_or, not_not, not_not, not_not] at hmismatch
      split at h
      · cases h
      · split at h
        · cases h
        · cases h
        · rename_i batchAttemptId contractId hbatch hcontract
          cases h
          exact ⟨row, rfl, hmismatch.1, hmismatch.2.1, hmismatch.2.2, rfl, rfl, rfl,
            batchAttemptFromRow_ok hbatch⟩

/-- `get` answers the row it finds and changes nothing. -/
theorem get_ok {record : BlindTransportRecord} {s s' : Ledger} {found : Option LedgerRow}
    (h : DeliveryLedger.get H record s = .ok found s') : s' = s ∧ found = s record.key := by
  have hsame : s' = s := (readOnly_get H record).1 s found s' h
  refine ⟨hsame, ?_⟩
  unfold DeliveryLedger.get at h
  rw [bind_apply, selectRow_apply] at h
  dsimp only at h
  cases hrow : s record.key with
  | none =>
      rw [hrow] at h
      exact (pure_eq_ok_iff.1 h).1.symm
  | some row =>
      rw [hrow] at h
      obtain ⟨_, -, h⟩ := lift_bind_eq_ok.1 h
      obtain ⟨_, -, h⟩ := lift_bind_eq_ok.1 h
      exact (pure_eq_ok_iff.1 h).1.symm

/-- The records a call may claim. -/
def records : LedgerCall → List BlindTransportRecord
  | claimMany records _ => records
  | _ => []

/-- All that one call can do to the row under `key`. -/
inductive RowMove (i : LedgerInputs) (c : LedgerCall) (key : DeliveryKey) :
    Option LedgerRow → Option LedgerRow → Prop
  | same (r : Option LedgerRow) : RowMove i c key r r
  | insert {record : BlindTransportRecord} {instant claimExpiresAt : Instant}
      {claimToken : String} :
      record ∈ c.records → record.key = key →
      RowMove i c key none (some (freshRow H instant claimExpiresAt record claimToken))
  | reclaim {record : BlindTransportRecord} {instant claimExpiresAt : Instant}
      {claimToken : String} {row : LedgerRow} :
      record ∈ c.records → record.key = key → row.recordDigest = record.digest H →
      row.state = .claimed →
      RowMove i c key (some row) (some (reclaimedRow instant claimExpiresAt claimToken row))
  | transition {t : Transition} {record : BlindTransportRecord} {claimToken : String}
      {instant : Instant} {row : LedgerRow} :
      c.transition? i = some t → (record, claimToken) ∈ c.items → record.key = key →
      t.applies H instant record claimToken row = true →
      RowMove i c key (some row) (some (t.change instant row))
  | rearm {record : BlindTransportRecord} {expectedState : DeliveryState} {leaseFor : Int}
      {instant claimExpiresAt : Instant} {claimToken : String} {row : LedgerRow} :
      c = .rearmForRetry record expectedState leaseFor → record.key = key →
      row.recordDigest = record.digest H → row.state = expectedState →
      expectedState ≠ .committed →
      RowMove i c key (some row) (some (rearmedRow instant claimExpiresAt claimToken row))

/-- What the statement for one claimed record leaves in its row. -/
theorem claimOutcome_row {instant claimExpiresAt : Instant} {record : BlindTransportRecord}
    {claimToken : String} {old : Option LedgerRow} {result : ClaimResult} {row' : LedgerRow}
    (h : claimOutcome H instant claimExpiresAt record claimToken old = .ok (result, row')) :
    (old = none ∧ row' = freshRow H instant claimExpiresAt record claimToken) ∨
      ∃ row, old = some row ∧ row.recordDigest = record.digest H ∧
        (row' = row ∨
          row.state = .claimed ∧ row' = reclaimedRow instant claimExpiresAt claimToken row) := by
  unfold claimOutcome at h
  split at h
  · cases h
    exact .inl ⟨rfl, rfl⟩
  · rename_i row
    split at h
    · cases h
    · rename_i hmismatch
      rw [not_or, not_not, not_not] at hmismatch
      refine .inr ⟨row, rfl, hmismatch.1, ?_⟩
      split at h
      · cases h
      · cases h
      · dsimp only at h
        split at h
        · cases h
          exact .inl rfl
        · rename_i hstate _
          split at h
          · cases h
            exact .inl rfl
          · cases h
            exact .inr ⟨hstate, rfl⟩
        · split at h <;> cases h <;> exact .inl rfl
        · cases h
          exact .inl rfl

/-- The row of every record of a claim that returned, with the answer for the record. -/
theorem claims_row {instant claimExpiresAt : Instant} {token : Nat → String}
    {records : List BlindTransportRecord} {results : List ClaimResult} {s s' : Ledger}
    (h : Claims H instant claimExpiresAt token 0 records results s s')
    {record : BlindTransportRecord} (hrecord : record ∈ records) :
    ∃ n result row', claimOutcome H instant claimExpiresAt record (token n) (s record.key) =
      .ok (result, row') ∧ s' record.key = some row' := by
  obtain ⟨hlength, hfirst, -⟩ := h
  obtain ⟨n, hn, rfl⟩ := List.getElem_of_mem hrecord
  have hresult : n < results.length := hlength ▸ hn
  have hmem : ((records[n], 0 + n), results[n]) ∈ (records.zipIdx 0).zip results := by
    rw [List.mem_iff_getElem]
    refine ⟨n, by simp [hn, hresult], by simp⟩
  obtain ⟨row', houtcome, hnew⟩ := hfirst _ hmem
  exact ⟨0 + n, results[n], row', houtcome, hnew⟩

/-- A record a claim returned for has a row with its digest. -/
theorem claimMany_digest {i : LedgerInputs} {records : List BlindTransportRecord}
    {leaseFor : Int} {results : List ClaimResult} {s s' : Ledger}
    (h : (LedgerCall.claimMany records leaseFor).exec H i s = .ok results s')
    (record : BlindTransportRecord) (hrecord : record ∈ records) :
    ∃ row, s' record.key = some row ∧ row.recordDigest = record.digest H := by
  rcases claimMany_ok H h with ⟨rfl, -, -⟩ | ⟨instant, expires, -, -, hclaims⟩
  · cases hrecord
  · obtain ⟨n, result, row', houtcome, hnew⟩ := claims_row H hclaims hrecord
    refine ⟨row', hnew, ?_⟩
    rcases claimOutcome_row H houtcome with ⟨-, rfl⟩ | ⟨row, -, hdigest, rfl | ⟨-, rfl⟩⟩
    · rfl
    · exact hdigest
    · exact hdigest

/-- **Inversion of a ledger call**: what it can have done to any row. -/
theorem exec_rowMove {i : LedgerInputs} {c : LedgerCall} {s s' : Ledger} {a : c.Answer}
    (h : c.exec H i s = .ok a s') (key : DeliveryKey) : RowMove H i c key (s key) (s' key) := by
  cases ht : c.transition? i with
  | some t =>
      rcases exec_transition H ht h with ⟨-, rfl⟩ | ⟨instant, hitems, hothers⟩
      · exact .same _
      · by_cases hkey : ∃ item ∈ c.items, item.1.key = key
        · obtain ⟨item, hitem, rfl⟩ := hkey
          obtain ⟨row, hrow, happlies, hnew⟩ := hitems item hitem
          rw [hrow, hnew]
          exact .transition ht hitem rfl happlies
        · rw [hothers key fun item hitem heq => hkey ⟨item, hitem, heq⟩]
          exact .same _
  | none =>
      cases c with
      | claimMany records leaseFor =>
          rcases claimMany_ok H h with ⟨-, -, rfl⟩ | ⟨instant, expires, -, -, hclaims⟩
          · exact .same _
          · have hothers := hclaims.2.2
            by_cases hkey : ∃ record ∈ records, record.key = key
            · obtain ⟨record, hrecord, rfl⟩ := hkey
              obtain ⟨n, result, row', houtcome, hnew⟩ := claims_row H hclaims hrecord
              rw [hnew]
              rcases claimOutcome_row H houtcome with ⟨hold, rfl⟩ | ⟨row, hold, hdigest, hrow'⟩
              · rw [hold]
                exact .insert hrecord rfl
              · rw [hold]
                rcases hrow' with rfl | ⟨hstate, rfl⟩
                · exact .same _
                · exact .reclaim hrecord rfl hdigest hstate
            · rw [hothers key fun record hrecord heq => hkey ⟨record, hrecord, heq⟩]
              exact .same _
      | rearmForRetry record expectedState leaseFor =>
          obtain ⟨hne, instant, expires, row', -, houtcome, rfl⟩ := rearmForRetry_ok H h
          obtain ⟨row, hold, hdigest, -, hstate, rfl, -⟩ := rearmOutcome_ok H houtcome
          by_cases hkey : record.key = key
          · subst hkey
            rw [hold, Function.update_self]
            exact .rearm rfl rfl hdigest hstate hne
          · rw [Function.update_of_ne (Ne.symm hkey)]
            exact .same _
      | get record =>
          have hsame : s' = s := (readOnly_get H record).1 s a s' h
          rw [hsame]
          exact .same _
      | startWrite _ _ _ => cases ht
      | startReplayWrite _ _ => cases ht
      | startWriteMany _ _ => cases ht
      | markCommitted _ _ => cases ht
      | markReplayCommitted _ _ => cases ht
      | markCommittedMany _ => cases ht
      | markUncertain _ _ _ => cases ht
      | markReplayUncertain _ _ _ => cases ht
      | markUncertainMany _ _ => cases ht
      | markQuarantined record reasonCode claimToken expectedState =>
          change DeliveryLedger.markQuarantined H _ _ _ _ _ s = _ at h
          unfold DeliveryLedger.markQuarantined at h
          split at h
          · rename_i hstate
            simp [transition?, hstate] at ht
          · exact (throw_eq_ok_iff.1 h).elim
      | markQuarantinedMany items reasonCode expectedState =>
          change DeliveryLedger.markQuarantinedMany H _ _ _ _ s = _ at h
          unfold DeliveryLedger.markQuarantinedMany at h
          split at h
          · rename_i hstate
            simp [transition?, hstate] at ht
          · exact (throw_eq_ok_iff.1 h).elim

end LedgerCall

end Polymorph
