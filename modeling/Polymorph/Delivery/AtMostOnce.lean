import Polymorph.Delivery.FreshDelivery
import Polymorph.Delivery.LedgerProvenance

/-!
# No silent duplicate write

Workers over a connector without idempotency, interleaved call by call, with crashes and failing
stores. The ghost of a worker says, for each delivery identity, whether the worker has crossed the
write boundary for it and what its write answered. `KeyInv` ties the phases of all workers to the
row and to the number of attempts that may have written: a row outside the write-started states has
no owner, a row with no possible write has no such attempt, and a committed row has exactly one.
-/

set_option autoImplicit false

namespace Polymorph

open Concurrency Prog DeliveryLedger DestinationRuntime

/-- Where a worker stands with the write of one identity. -/
inductive WritePhase where
  | idle
  | started
  | written
  | refused
deriving DecidableEq

/-- The phase of every identity. -/
abbrev WritePhases := Phases WritePhase

/-- The phase after a write that answered `r`. -/
def phaseAfterWrite (r : Except Exn (Option Int)) : WritePhase :=
  if provenNotCommitted r then .refused else .written

/-- The protocol of one worker: a write needs a crossed boundary, `COMMITTED` and `UNCERTAIN` need
a write without proof of failure, `QUARANTINED` past the boundary needs that proof, and only a
quarantined row is rearmed. -/
def atMostOnceSpec : Spec Op Op.Res Exn WritePhases where
  pre
    | .ledger (.markCommitted record _), g => g record.key = .written
    | .ledger (.markCommittedMany items), g => ∀ item ∈ items, g item.1.key = .written
    | .ledger (.markUncertain record _ _), g => g record.key = .written
    | .ledger (.markUncertainMany items _), g => ∀ item ∈ items, g item.1.key = .written
    | .ledger (.markQuarantined record _ _ expectedState), g =>
        expectedState = .writeStarted → g record.key = .refused
    | .ledger (.markQuarantinedMany items _ expectedState), g =>
        expectedState = .batchWriteStarted → ∀ item ∈ items, g item.1.key = .refused
    | .ledger (.rearmForRetry _ expectedState _), _ => expectedState = .quarantined
    | .writeRecords record _ _, g => g record.key = .started
    | .writeBatch items, g => ∀ item ∈ items, g item.1.key = .started
    | _, _ => True
  allowed
    | .capabilities, _, r => ∀ caps, r = .ok caps → caps.supportsIdempotency = false
    | .ledger (.startReplayWrite _ _), _, r => r.isOk = false
    | _, _, _ => True
  next
    | .ledger (.startWrite record claimToken contractId), g, r =>
        if r.isOk then
          g.assign (LedgerCall.startWrite record claimToken contractId).keys .started
        else g
    | .ledger (.startWriteMany items contractId), g, r =>
        if r.isOk then g.assign (LedgerCall.startWriteMany items contractId).keys .started else g
    | .ledger (.markCommitted record claimToken), g, _ =>
        g.assign (LedgerCall.markCommitted record claimToken).keys .idle
    | .ledger (.markCommittedMany items), g, _ =>
        g.assign (LedgerCall.markCommittedMany items).keys .idle
    | .ledger (.markUncertain record reasonCode claimToken), g, _ =>
        g.assign (LedgerCall.markUncertain record reasonCode claimToken).keys .idle
    | .ledger (.markUncertainMany items reasonCode), g, _ =>
        g.assign (LedgerCall.markUncertainMany items reasonCode).keys .idle
    | .ledger (.markQuarantined record reasonCode claimToken expectedState), g, _ =>
        g.assign (LedgerCall.markQuarantined record reasonCode claimToken expectedState).keys .idle
    | .ledger (.markQuarantinedMany items reasonCode expectedState), g, _ =>
        g.assign (LedgerCall.markQuarantinedMany items reasonCode expectedState).keys .idle
    | .writeRecords record _ _, g, r => g.assign [record.key] (phaseAfterWrite r)
    | .writeBatch items, g, r =>
        g.assign (items.map fun item => item.1.key) (phaseAfterWrite r)
    | _, g, _ => g

/-- The ghost protocol. Whatever phase a finished job leaves behind is forgotten. -/
def atMostOnceProtocol {J : Type} : Protocol Op Op.Res Exn J WritePhases where
  spec _ := atMostOnceSpec
  idle := fun _ => .idle
  begin _ g := g = fun _ => .idle
  done _ _ := True

/-! ## The programs follow the protocol -/

theorem atMostOnce_silent : Silent atMostOnceSpec where
  pre op g hop := by
    cases op with
    | capabilities => trivial
    | authorizeRecord _ => trivial
    | authorizeCapability _ _ => trivial
    | openRecord _ _ => trivial
    | resolveForeignKey _ _ _ => trivial
    | _ => cases hop
  next op g r hop := by
    cases op with
    | capabilities => rfl
    | authorizeRecord _ => rfl
    | authorizeCapability _ _ => rfl
    | openRecord _ _ => rfl
    | resolveForeignKey _ _ _ => rfl
    | _ => cases hop

/-- Between the steps of a job: the job's capabilities name no idempotency. -/
def ContractFree (caps : ConnectorCapabilities) (_ : WritePhases) : Prop :=
  caps.supportsIdempotency = false

variable {H : Host} {g : WritePhases} {caps : ConnectorCapabilities}

theorem keeps_quarantineBeforeWrite_contractFree {record : BlindTransportRecord}
    {reasonCode claimToken : String} {expectedState : DeliveryState}
    {batchAttemptId : Option String} {retrySafe : Bool} (hstate : expectedState ≠ .writeStarted)
    (hg : ContractFree caps g) :
    Keeps atMostOnceSpec (ContractFree caps)
      (quarantineBeforeWrite H record reasonCode claimToken expectedState
        batchAttemptId retrySafe) g := by
  refine keeps_call trivial (fun _ _ => ?_) fun _ _ => hg
  refine keeps_attempt_call (fun h => absurd h hstate) fun r _ => ?_
  split
  · exact keeps_pure hg
  · refine keeps_attempt_call trivial fun r' _ => ?_
    split
    · split
      · refine keeps_attempt_call trivial fun r'' _ => ?_
        split
        · exact keeps_pure hg
        · exact keeps_pure hg
      · exact keeps_pure hg
    · exact keeps_pure hg
  · exact keeps_raise hg

theorem keeps_writeScalar_contractFree {record : BlindTransportRecord}
    {c : ClaimedDelivery} {payload : Payload} (hc : c.replayAttempt = false)
    (hstarted : g record.key = .started) (hg : ContractFree caps g) :
    Keeps atMostOnceSpec (ContractFree caps)
      (writeScalar H record c payload) g := by
  refine keeps_attempt_call hstarted fun r _ => ?_
  have hphase : (g.assign [record.key] (phaseAfterWrite r)) record.key = phaseAfterWrite r :=
    Phases.assign_mem (List.mem_singleton.2 rfl)
  have hunknown : phaseAfterWrite r = .written →
      Keeps atMostOnceSpec (ContractFree caps) (writeOutcomeUnknown H record c)
        (g.assign [record.key] (phaseAfterWrite r)) := by
    intro hwritten
    refine keeps_call trivial (fun _ _ => ?_) fun _ _ => hg
    refine keeps_bind (J := ContractFree caps) ?_ (fun _ _ hg' => keeps_pure hg') fun _ hg' => hg'
    rw [ClaimedDelivery.uncertainCall, hc, if_neg Bool.false_ne_true]
    exact keeps_ledgerCall (hphase.trans hwritten) fun _ _ => hg
  cases r with
  | ok written =>
      dsimp only
      split
      · refine keeps_attempt_bind (J := ContractFree caps) ?_ fun r' g' hg' => ?_
        · rw [ClaimedDelivery.committedCall, hc, if_neg Bool.false_ne_true]
          exact keeps_ledgerCall hphase fun _ _ => hg
        · split
          · exact keeps_call trivial (fun _ _ => keeps_pure hg') fun _ _ => hg'
          · refine keeps_attempt_call trivial fun r'' _ => ?_
            split
            · exact keeps_pure hg'
            · exact keeps_pure hg'
      · exact hunknown rfl
  | error e =>
      dsimp only
      split
      · rename_i hproven
        refine keeps_call trivial (fun _ _ => ?_) fun _ _ => hg
        refine keeps_bind (J := ContractFree caps) ?_ (fun _ _ hg' => keeps_pure hg')
          fun _ hg' => hg'
        refine keeps_ledgerCall (fun _ => hphase.trans ?_) fun _ _ => hg
        exact if_pos hproven
      · rename_i hproven
        exact hunknown (if_neg hproven)

theorem keeps_crossAndWrite_contractFree {record : BlindTransportRecord}
    {c : ClaimedDelivery} {payload : Payload} (hg : ContractFree caps g) :
    Keeps atMostOnceSpec (ContractFree caps)
      (crossAndWrite H record c payload) g := by
  unfold crossAndWrite
  cases hc : c.replayAttempt with
  | true =>
      rw [ClaimedDelivery.startCall, hc, if_pos rfl]
      refine keeps_attempt_ledgerCall trivial (by intro a ha; cases ha) fun e _ => ?_
      split
      · exact keeps_pure hg
      · exact keeps_raise hg
      · rename_i h
        cases h
  | false =>
      rw [ClaimedDelivery.startCall, hc, if_neg Bool.false_ne_true]
      refine keeps_attempt_ledgerCall trivial (fun a _ => ?_) fun e _ => ?_
      · exact keeps_writeScalar_contractFree hc
          (Phases.assign_mem (List.mem_singleton.2 rfl)) hg
      · split
        · exact keeps_pure hg
        · exact keeps_raise hg
        · rename_i h
          cases h

theorem keeps_recordBatchOutcome_contractFree
    {prepared : List PreparedItem} {reasonCode : String} {mark : LedgerCall}
    (hpre : atMostOnceSpec.pre (.ledger mark) g) (hg : ContractFree caps g) :
    Keeps atMostOnceSpec (ContractFree caps)
      (recordBatchOutcome prepared reasonCode mark) g :=
  keeps_call trivial (fun _ _ => keeps_ledgerCall hpre fun _ _ => hg) fun _ _ => hg

theorem mem_transitions {prepared : List PreparedItem}
    {item : BlindTransportRecord × String}
    (h : item ∈ transitions prepared) :
    ∃ p ∈ prepared, item = (p.record, p.claimToken) := by
  obtain ⟨p, hp, rfl⟩ := List.mem_map.1 h
  exact ⟨p, hp, rfl⟩

theorem keeps_crossAndWriteBatch_contractFree
    {prepared : List PreparedItem} {receipts : Receipts}
    (hg : ContractFree caps g) :
    Keeps atMostOnceSpec (ContractFree caps)
      (crossAndWriteBatch H prepared caps receipts) g := by
  refine keeps_attempt_call trivial fun started _ => ?_
  split
  · exact keeps_pure hg
  · exact keeps_pure hg
  · rename_i batchAttemptId
    let items := prepared.map fun p => (p.record, p.item)
    let g₁ := g.assign (LedgerCall.startWriteMany (transitions prepared)
      (batchIdempotencyContractId caps)).keys .started
    have hkeys : ∀ p ∈ prepared, p.record.key ∈ (LedgerCall.startWriteMany
        (transitions prepared) (batchIdempotencyContractId caps)).keys :=
      fun p hp => List.mem_map.2 ⟨_, List.mem_map.2 ⟨p, hp, rfl⟩, rfl⟩
    have hstarted : ∀ item ∈ items, g₁ item.1.key = .started := by
      intro item hitem
      obtain ⟨p, hp, rfl⟩ := List.mem_map.1 hitem
      exact Phases.assign_mem (hkeys p hp)
    refine keeps_attempt_call hstarted fun written _ => ?_
    have hphase : ∀ item ∈ transitions prepared,
        (g₁.assign (items.map fun item => item.1.key) (phaseAfterWrite written)) item.1.key =
          phaseAfterWrite written := by
      intro item hitem
      obtain ⟨p, hp, rfl⟩ := mem_transitions hitem
      exact Phases.assign_mem (List.mem_map.2 ⟨_, List.mem_map.2 ⟨p, hp, rfl⟩, rfl⟩)
    cases houtcome : batchOutcome prepared.length written with
    | none =>
        have hwritten : phaseAfterWrite written = .written := by
          cases written with
          | ok n => rfl
          | error e => cases houtcome
        simp only []
        refine keeps_attempt_ledgerCall (fun item hitem => (hphase item hitem).trans hwritten)
          (fun _ _ => ?_) fun _ _ => ?_
        · refine keeps_attempt_call trivial fun r _ => ?_
          split
          · exact keeps_pure hg
          · exact keeps_pure hg
        · exact keeps_attempt_call trivial fun _ _ => keeps_pure hg
    | some outcome =>
        have houtcome : phaseAfterWrite written =
            if outcome = .notCommitted then .refused else .written := by
          cases written with
          | ok n =>
              rw [batchOutcome] at houtcome
              split at houtcome
              · cases houtcome
              · cases houtcome
                rfl
          | error e =>
              simp only [batchOutcome, Option.some.injEq] at houtcome
              subst houtcome
              simp only [phaseAfterWrite, provenNotCommitted, Exn.provesNotCommitted,
                decide_eq_true_eq]
              cases e.writeOutcome? <;> simp
        simp only []
        unfold batchNotAcknowledged
        split
        · rename_i hnot
          rw [if_pos hnot] at houtcome
          refine keeps_attempt_bind (keeps_recordBatchOutcome_contractFree
            (fun _ item hitem => (hphase item hitem).trans houtcome) hg) fun r g' hg' => ?_
          split
          · exact keeps_pure hg'
          · exact keeps_pure hg'
        · rename_i hnot
          rw [if_neg hnot] at houtcome
          refine keeps_attempt_bind (keeps_recordBatchOutcome_contractFree
            (fun item hitem => (hphase item hitem).trans houtcome) hg) fun r g' hg' => ?_
          split
          · exact keeps_pure hg'
          · exact keeps_pure hg'

/-- The delivery paths follow the protocol. -/
theorem atMostOnce_deliveryRules :
    DeliveryRules H atMostOnceSpec (fun _ => True) (fun caps _ => ContractFree caps) where
  silent := atMostOnce_silent
  weaken hg _ := hg
  claim _ _ _ hg := ⟨trivial, fun _ _ => hg, fun _ _ => hg⟩
  ambiguous _ _ _ hg := keeps_call trivial (fun _ _ => keeps_pure hg) fun _ _ => hg
  quarantine _ _ _ _ _ _ hg := keeps_quarantineBeforeWrite_contractFree (by decide) hg
  write _ _ _ _ _ hg := keeps_crossAndWrite_contractFree hg
  writeBatch _ _ _ hg := keeps_crossAndWriteBatch_contractFree hg

theorem replayContractMatches_contractFree {row : LedgerRow}
    (hcaps : caps.supportsIdempotency = false) : replayContractMatches row caps = false := by
  have hscalar : scalarIdempotencyContractId caps = none := by
    rw [scalarIdempotencyContractId, hcaps, if_neg Bool.false_ne_true]
  rw [replayContractMatches, hscalar]
  cases row.idempotencyContractId <;> rfl

theorem claimedState_ne_writeStarted (c : ClaimedDelivery) : c.claimedState ≠ .writeStarted := by
  unfold ClaimedDelivery.claimedState
  split <;> decide

/-- An unforced replay follows the protocol: without a contract it goes on only from
`QUARANTINED`. -/
theorem atMostOnce_replayRules {rt : DestinationRuntime} (recordDigest : String) :
    ReplayRules H rt atMostOnceSpec ContractFree recordDigest false
      (fun _ _ _ _ => True) where
  silent := atMostOnce_silent
  spoolGet hg :=
    ⟨trivial, fun _ _ => ⟨hg, fun _ _ => ⟨trivial, fun _ _ => ⟨hg, fun _ _ => trivial⟩⟩⟩⟩
  remove hg _ _ := ⟨trivial, fun _ _ => hg⟩
  rearm := by
    intro caps g record row hg _ _ hgate
    have hquarantined : row.state = .quarantined := by
      have hgate := hgate rfl
      rw [unforcedGate, replayContractMatches_contractFree hg, Bool.and_false,
        Bool.or_false, decide_eq_true_eq] at hgate
      exact hgate
    refine keeps_call hquarantined (fun rearmed _ => ?_) fun _ _ => hg
    split
    · exact keeps_raise hg
    · exact keeps_deliverClaimed atMostOnce_silent
        (fun _ _ _ => keeps_quarantineBeforeWrite_contractFree (claimedState_ne_writeStarted _) hg)
        fun _ => keeps_crossAndWrite_contractFree hg

/-- The jobs that never force an uncertain replay. -/
def Job.unforced : Job → Prop
  | .replay _ forceUncertain => forceUncertain = false
  | _ => True

theorem keeps_body {rt : DestinationRuntime} (job : Job) (hjob : job.unforced) :
    Keeps atMostOnceSpec (fun _ => True) (job.body H rt) g := by
  have hstart : StartRule atMostOnceSpec ContractFree (fun _ => True) g :=
    ⟨fun caps hcaps => hcaps caps rfl, trivial, fun _ _ _ => trivial⟩
  cases job with
  | deliver record =>
      exact keeps_bind (keeps_deliver atMostOnce_deliveryRules hstart record trivial)
        (fun _ _ _ => keeps_pure trivial) fun _ _ => trivial
  | deliverMany records =>
      exact keeps_deliverMany atMostOnce_deliveryRules hstart records fun _ _ => trivial
  | replay recordDigest forceUncertain =>
      cases hjob
      exact keeps_bind (keeps_replay (atMostOnce_replayRules recordDigest) hstart)
        (fun _ _ _ => keeps_pure trivial) fun _ _ => trivial

/-! ## The invariant -/

/-- No write can have taken effect. -/
def unwritten (row : Option LedgerRow) : Prop :=
  ∀ r, row = some r → r.state.isUnwritten = true

/-- What ties the row of one identity to the number `n` of attempts that may have written it and to
the phases of the workers. -/
structure KeyInv {ι : Type} (row : Option LedgerRow) (n : Nat) (phase : ι → WritePhase) :
    Prop where
  owner : ∀ i j, phase i ≠ .idle → phase j ≠ .idle → i = j
  owned : ∀ i, phase i ≠ .idle → inFlight row
  beforeWrite : ∀ i, phase i = .started ∨ phase i = .refused → n = 0
  afterWrite : ∀ i, phase i = .written → n = 1
  atMostOne : n ≤ 1
  notWritten : unwritten row → n = 0
  committed : ∀ r, row = some r → r.state = .committed → n = 1
  notReplay : ∀ r, row = some r → r.state.isReplay = false

namespace KeyInv

variable {ι : Type} {row : Option LedgerRow} {n : Nat} {phase : ι → WritePhase}

theorem absent : KeyInv none 0 (fun _ : ι => .idle) where
  owner i _ hi := absurd rfl hi
  owned i hi := absurd rfl hi
  beforeWrite _ _ := rfl
  afterWrite i hi := by cases hi
  atMostOne := Nat.zero_le 1
  notWritten _ := rfl
  committed _ h := by cases h
  notReplay _ h := by cases h

theorem idle_of_unwritten (h : KeyInv row n phase) (hrow : unwritten row) (i : ι) :
    phase i = .idle := by
  by_contra hi
  obtain ⟨r, hr, hstarted⟩ := h.owned i hi
  have hunwritten := hrow r hr
  have hdisjoint : ∀ a : DeliveryState, a.isUnwritten = true → a.isWriteStarted = false := by
    intro a
    cases a <;> decide
  rw [hdisjoint _ hunwritten] at hstarted
  cases hstarted

/-- A row without a possible write moves to a state that is neither committed nor a replay. -/
theorem advance (h : KeyInv row n phase) (hrow : unwritten row) {r : LedgerRow}
    (hcommitted : r.state ≠ .committed) (hreplay : r.state.isReplay = false) :
    KeyInv (some r) n phase := by
  have hidle := h.idle_of_unwritten hrow
  refine ⟨fun i j hi => absurd (hidle i) hi, fun i hi => absurd (hidle i) hi, h.beforeWrite,
    h.afterWrite, h.atMostOne, fun _ => h.notWritten hrow, ?_, ?_⟩
  · rintro _ ⟨⟩ hstate
    exact absurd hstate hcommitted
  · rintro _ ⟨⟩
    exact hreplay

variable [DecidableEq ι]

/-- Forgetting a worker's phase. -/
theorem release (h : KeyInv row n phase) (i : ι) :
    KeyInv row n (Function.update phase i .idle) := by
  have hsub : ∀ j, Function.update phase i .idle j ≠ .idle →
      Function.update phase i .idle j = phase j := by
    intro j hj
    by_cases hji : j = i
    · subst hji
      exact absurd (Function.update_self ..) hj
    · exact Function.update_of_ne hji ..
  refine ⟨?_, ?_, ?_, ?_, h.atMostOne, h.notWritten, h.committed, h.notReplay⟩
  · intro j k hj hk
    exact h.owner j k (hsub j hj ▸ hj) (hsub k hk ▸ hk)
  · intro j hj
    exact h.owned j (hsub j hj ▸ hj)
  · intro j hj
    have hne : Function.update phase i WritePhase.idle j ≠ .idle := by
      rcases hj with hj | hj <;> rw [hj] <;> decide
    exact h.beforeWrite j (hsub j hne ▸ hj)
  · intro j hj
    have hne : Function.update phase i WritePhase.idle j ≠ .idle := by
      rw [hj]
      decide
    exact h.afterWrite j (hsub j hne ▸ hj)

/-- A worker crosses the write boundary. -/
theorem start (h : KeyInv row n phase) (hrow : unwritten row) {r : LedgerRow}
    (hr : r.state.isWriteStarted = true) (i : ι) :
    KeyInv (some r) n (Function.update phase i .started) := by
  have hidle := h.idle_of_unwritten hrow
  have hstarted : ∀ a : DeliveryState, a.isWriteStarted = true →
      a ≠ .committed ∧ a.isReplay = false := by
    intro a
    cases a <;> decide
  have honly : ∀ j, Function.update phase i .started j ≠ .idle → j = i := by
    intro j hj
    by_contra hji
    rw [Function.update_of_ne hji] at hj
    exact hj (hidle j)
  refine ⟨fun j k hj hk => (honly j hj).trans (honly k hk).symm, fun _ _ => ⟨r, rfl, hr⟩,
    fun _ _ => h.notWritten hrow, ?_, h.atMostOne, fun _ => h.notWritten hrow, ?_, ?_⟩
  · intro j hj
    have hji : j = i := honly j (by rw [hj]; decide)
    rw [hji, Function.update_self] at hj
    cases hj
  · rintro _ ⟨⟩ hstate
    exact absurd hstate (hstarted _ hr).1
  · rintro _ ⟨⟩
    exact (hstarted _ hr).2

/-- The owner writes. -/
theorem write (h : KeyInv row n phase) {i : ι} (hi : phase i = .started)
    (r : Except Exn (Option Int)) :
    KeyInv row (n + if provenNotCommitted r then 0 else 1)
      (Function.update phase i (phaseAfterWrite r)) := by
  have hzero : n = 0 := h.beforeWrite i (.inl hi)
  have hflight : inFlight row := h.owned i (by rw [hi]; decide)
  have honly : ∀ j, Function.update phase i (phaseAfterWrite r) j ≠ .idle → j = i := by
    intro j hj
    by_contra hji
    rw [Function.update_of_ne hji] at hj
    exact hji (h.owner j i hj (by rw [hi]; decide))
  have hdisjoint : ∀ a : DeliveryState, a.isWriteStarted = true →
      a.isUnwritten = false ∧ a ≠ .committed := by
    intro a
    cases a <;> decide
  obtain ⟨row', hrow', hstarted⟩ := hflight
  refine ⟨fun j k hj hk => (honly j hj).trans (honly k hk).symm,
    fun _ _ => ⟨row', hrow', hstarted⟩, ?_, ?_, ?_, ?_, ?_, h.notReplay⟩
  · intro j hj
    have hne : Function.update phase i (phaseAfterWrite r) j ≠ .idle := by
      rcases hj with hj | hj <;> rw [hj] <;> decide
    rw [honly j hne, Function.update_self, phaseAfterWrite] at hj
    split at hj
    · rename_i hproven
      rw [hzero, if_pos hproven]
    · rcases hj with hj | hj <;> cases hj
  · intro j hj
    rw [honly j (by rw [hj]; decide), Function.update_self, phaseAfterWrite] at hj
    split at hj
    · cases hj
    · rename_i hproven
      rw [hzero, if_neg hproven]
  · rw [hzero]
    split <;> decide
  · intro hunwritten
    have hcontra := hunwritten row' hrow'
    rw [(hdisjoint _ hstarted).1] at hcontra
    cases hcontra
  · intro r' hr' hcommitted
    rw [hrow'] at hr'
    cases hr'
    exact absurd hcommitted (hdisjoint _ hstarted).2

/-- The owner records the outcome of its write. -/
theorem record (h : KeyInv row n phase) {i : ι} {r : LedgerRow}
    (howner : phase i ≠ .idle) (hcommitted : r.state = .committed → phase i = .written)
    (hunwritten : r.state.isUnwritten = true → phase i = .refused)
    (hreplay : r.state.isReplay = false) :
    KeyInv (some r) n (Function.update phase i .idle) := by
  have hidle : ∀ j, Function.update phase i .idle j = .idle := by
    intro j
    by_cases hji : j = i
    · rw [hji, Function.update_self]
    · rw [Function.update_of_ne hji]
      by_contra hj
      exact hji (h.owner j i hj howner)
  refine ⟨fun j _ hj => absurd (hidle j) hj, fun j hj => absurd (hidle j) hj, ?_, ?_,
    h.atMostOne, ?_, ?_, ?_⟩
  · intro j hj
    rw [hidle j] at hj
    rcases hj with hj | hj <;> cases hj
  · intro j hj
    rw [hidle j] at hj
    cases hj
  · intro hrow
    exact h.beforeWrite i (.inr (hunwritten (hrow r rfl)))
  · rintro _ ⟨⟩ hstate
    exact h.afterWrite i (hcommitted hstate)
  · rintro _ ⟨⟩
    exact hreplay

end KeyInv

/-- The invariant of all identities. -/
def AtMostOnceInv {ι : Type} (w : World) (g : ι → WritePhases) : Prop :=
  ∀ key, KeyInv (w.ledger key) (w.unprovenAttempts key) fun i => g i key

section Preservation

variable {ι : Type} [DecidableEq ι] {w : World} {phases : ι → WritePhases} {i : ι}
  {inputs : LedgerInputs} {c : LedgerCall}

/-- Only one state of `mark_quarantined` lies past the write boundary. -/
theorem quarantineStates_started (a : DeliveryState) (h : a ∈ quarantineStates)
    (hstarted : a.isWriteStarted = true) : a = .writeStarted := by
  revert h hstarted
  cases a <;> decide

theorem batchQuarantineStates_started (a : DeliveryState) (h : a ∈ batchQuarantineStates)
    (hstarted : a.isWriteStarted = true) : a = .batchWriteStarted := by
  revert h hstarted
  cases a <;> decide

/-- An operation that touches neither the phases nor what the invariant reads. -/
theorem AtMostOnceInv.unchanged (h : AtMostOnceInv w phases) (i : ι) :
    AtMostOnceInv w (Function.update phases i (phases i)) := by
  rw [Function.update_eq_self]
  exact h

theorem phases_update (phases : ι → WritePhases) (i : ι) (x : WritePhases) (key : DeliveryKey) :
    (fun j => Function.update phases i x j key) =
      Function.update (fun j => phases j key) i (x key) := by
  funext j
  by_cases hj : j = i
  · subst hj
    rw [Function.update_self, Function.update_self]
  · rw [Function.update_of_ne hj, Function.update_of_ne hj]

theorem phases_unchanged {phases : ι → WritePhases} {i : ι} {x : WritePhases} {key : DeliveryKey}
    (h : x key = phases i key) :
    (fun j => Function.update phases i x j key) = fun j => phases j key := by
  rw [phases_update, h, Function.update_eq_self]

/-- A transition of a first write never enters a replay state. -/
theorem transition?_notReplay {t : Transition} (h : c.transition? inputs = some t)
    (ht : t.expected.isReplay = false) : t.target.isReplay = false := by
  cases c with
  | claimMany _ _ => cases h
  | rearmForRetry _ _ _ => cases h
  | get _ => cases h
  | markQuarantined _ reasonCode _ expectedState =>
      rw [LedgerCall.transition?] at h
      split at h
      · cases h
        cases expectedState <;> first | rfl | cases ht
      · cases h
  | markQuarantinedMany _ reasonCode expectedState =>
      rw [LedgerCall.transition?] at h
      split at h
      · cases h
        rfl
      · cases h
  | startWrite _ _ _ => cases h; rfl
  | startReplayWrite _ _ => cases h; cases ht
  | startWriteMany _ _ => cases h; rfl
  | markCommitted _ _ => cases h; rfl
  | markReplayCommitted _ _ => cases h; cases ht
  | markCommittedMany _ => cases h; rfl
  | markUncertain _ _ _ => cases h; rfl
  | markReplayUncertain _ _ _ => cases h; cases ht
  | markUncertainMany _ _ => cases h; rfl

/-- What the owner of a started write must know to record the outcome of the transition `t`. -/
def outcomePhase (t : Transition) : WritePhase :=
  if t.target = .quarantined then .refused else .written

/-- A transition keeps the invariant of a row when the worker gives up its phase. -/
theorem keyInv_transition {t : Transition} {row : LedgerRow} {instant : Utc.Instant} {n : Nat}
    {phase : ι → WritePhase} (h : KeyInv (some row) n phase)
    (ht : c.transition? inputs = some t) (hstate : row.state = t.expected)
    (hphase : t.expected.isWriteStarted = true → phase i = outcomePhase t) :
    KeyInv (some (t.change instant row)) n (Function.update phase i .idle) := by
  have hreplay : t.expected.isReplay = false := hstate ▸ h.notReplay row rfl
  have htarget : t.target.isReplay = false := transition?_notReplay ht hreplay
  have hstep : t.expected.step t.target = true := transition?_states ht
  cases hstarted : t.expected.isWriteStarted with
  | true =>
      have hphase := hphase hstarted
      have hcases : ∀ a b : DeliveryState, a.step b = true → a.isWriteStarted = true →
          b.isReplay = false → (b = .committed → b ≠ .quarantined) ∧
            (b.isUnwritten = true → b = .quarantined) := by
        intro a b
        cases a <;> cases b <;> decide
      obtain ⟨hcommitted, hquarantined⟩ := hcases _ _ hstep hstarted htarget
      refine h.record ?_ ?_ ?_ htarget
      · rw [hphase, outcomePhase]
        split <;> decide
      · intro hc
        rw [hphase, outcomePhase, if_neg (hcommitted hc)]
      · intro hq
        rw [hphase, outcomePhase, if_pos (hquarantined hq)]
  | false =>
      have hcases : ∀ a b : DeliveryState, a.step b = true → a.isWriteStarted = false →
          a.isReplay = false → b.isReplay = false → a.isUnwritten = true ∧ b ≠ .committed := by
        intro a b
        cases a <;> cases b <;> decide
      obtain ⟨hunwritten, hcommitted⟩ := hcases _ _ hstep hstarted hreplay htarget
      refine (h.advance ?_ hcommitted htarget).release i
      rintro _ ⟨⟩
      rw [hstate]
      exact hunwritten

/-- A call that records an outcome and gives up the phases of its rows. -/
theorem keyInv_mark {x : WritePhases} {s' : Ledger} (h : AtMostOnceInv w phases)
    (hmove : ∀ key, LedgerCall.RowMove H inputs c key (w.ledger key) (s' key))
    (hrecords : c.records = []) (hrearm : ∀ r e l, c ≠ .rearmForRetry r e l)
    (hnext : x = (phases i).assign c.keys .idle)
    (hphase : ∀ t, c.transition? inputs = some t → t.expected.isWriteStarted = true →
      ∀ item ∈ c.items, phases i item.1.key = outcomePhase t) (key : DeliveryKey) :
    KeyInv (s' key) (w.unprovenAttempts key)
      fun j => Function.update phases i x j key := by
  have hkey := h key
  have hmove := hmove key
  rw [phases_update]
  have hx : x key = .idle ∨ x key = phases i key := by
    subst hnext
    by_cases hmem : key ∈ c.keys
    · exact .inl (Phases.assign_mem hmem)
    · exact .inr (Phases.assign_notMem hmem)
  generalize w.ledger key = old at hmove hkey
  generalize s' key = new at hmove
  cases hmove with
  | same =>
      rcases hx with hx | hx
      · rw [hx]
        exact hkey.release i
      · rw [hx, Function.update_eq_self]
        exact hkey
  | insert hmem => rw [hrecords] at hmem; cases hmem
  | reclaim hmem => rw [hrecords] at hmem; cases hmem
  | rearm hc => exact absurd hc (hrearm _ _ _)
  | transition ht hitem hkeyeq happlies =>
      have hx : x key = .idle := by
        subst hnext
        exact Phases.assign_mem (List.mem_map.2 ⟨_, hitem, hkeyeq⟩)
      rw [hx]
      exact keyInv_transition hkey ht (applies_state H happlies)
        fun hstarted => hkeyeq ▸ hphase _ ht hstarted _ hitem

/-- A call that leaves the phases alone and moves rows only while nothing can be written. -/
theorem keyInv_unphased {x : WritePhases} {s' : Ledger} (h : AtMostOnceInv w phases)
    (hmove : ∀ key, LedgerCall.RowMove H inputs c key (w.ledger key) (s' key))
    (hrearm : ∀ r e l, c = .rearmForRetry r e l → e = .quarantined)
    (htransition : ∀ t, c.transition? inputs = some t → t.expected.isReplay = true ∨
      t.expected = .claimed) (hnext : x = phases i) (key : DeliveryKey) :
    KeyInv (s' key) (w.unprovenAttempts key)
      fun j => Function.update phases i x j key := by
  subst hnext
  rw [phases_unchanged rfl]
  have hkey := h key
  have hmove := hmove key
  generalize w.ledger key = old at hmove hkey
  generalize s' key = new at hmove
  cases hmove with
  | same => exact hkey
  | insert =>
      refine hkey.advance (fun _ hr => nomatch hr) ?_ rfl
      change DeliveryState.claimed ≠ _
      decide
  | @reclaim _ _ _ _ row hmem hkeyeq hdigest hstate =>
      have hunwritten : row.state.isUnwritten = true := by rw [hstate]; rfl
      refine hkey.advance (by rintro _ ⟨⟩; exact hunwritten) ?_ (hkey.notReplay row rfl)
      change row.state ≠ _
      rw [hstate]
      decide
  | @rearm _ _ _ _ _ _ row hc hkeyeq hdigest hstate hne =>
      have hquarantined : row.state = .quarantined := hstate.trans (hrearm _ _ _ hc)
      refine hkey.advance (by rintro _ ⟨⟩; rw [hquarantined]; rfl) ?_ ?_
      · change rearmTarget row.state ≠ _
        rw [hquarantined]
        decide
      · change (rearmTarget row.state).isReplay = _
        rw [hquarantined]
        rfl
  | @transition t _ _ instant row ht hitem hkeyeq happlies =>
      have hstate := applies_state H happlies
      have hnotReplay : t.expected.isReplay = false := hstate ▸ hkey.notReplay row rfl
      have hclaimed : t.expected = .claimed := by
        rcases htransition t ht with hreplay | hclaimed
        · rw [hreplay] at hnotReplay
          cases hnotReplay
        · exact hclaimed
      have hcases : ∀ b : DeliveryState, DeliveryState.step .claimed b = true → b ≠ .committed := by
        intro b
        cases b <;> decide
      refine hkey.advance ?_ (hcases _ (hclaimed ▸ transition?_states ht))
        (transition?_notReplay ht hnotReplay)
      rintro _ ⟨⟩
      rw [hstate, hclaimed]
      rfl

/-- A call that crosses the write boundary and returned. -/
theorem keyInv_start {x : WritePhases} {s' : Ledger} {t : Transition} (h : AtMostOnceInv w phases)
    (hmoved : LedgerCall.Transitioned H t c w.ledger s') (hexpected : t.expected = .claimed)
    (htarget : t.target.isWriteStarted = true)
    (hnext : x = (phases i).assign c.keys .started) (key : DeliveryKey) :
    KeyInv (s' key) (w.unprovenAttempts key)
      fun j => Function.update phases i x j key := by
  have hkey := h key
  by_cases hmem : key ∈ c.keys
  · obtain ⟨item, hitem, rfl⟩ := List.mem_map.1 hmem
    rcases hmoved with ⟨hnil, -⟩ | ⟨instant, hitems, -⟩
    · rw [hnil] at hitem
      cases hitem
    · obtain ⟨row, hrow, happlies, hnew⟩ := hitems item hitem
      rw [phases_update, hnew, hnext, Phases.assign_mem hmem]
      refine hkey.start ?_ htarget i
      intro r hr
      rw [hrow] at hr
      cases hr
      rw [applies_state H happlies, hexpected]
      rfl
  · have hsame : s' key = w.ledger key := by
      rcases hmoved with ⟨-, rfl⟩ | ⟨instant, -, hothers⟩
      · rfl
      · exact hothers key fun item hitem heq => hmem (List.mem_map.2 ⟨item, hitem, heq⟩)
    rw [hsame, phases_unchanged (by rw [hnext, Phases.assign_notMem hmem])]
    exact hkey

/-- A write attempt of the worker on the identities `keys`, all of them started. -/
theorem keyInv_write {job : Job} {records : List BlindTransportRecord} {batch : Bool}
    {capabilities : ConnectorCapabilities} {r : Except Exn (Option Int)} {x : WritePhases}
    (h : AtMostOnceInv w phases) (hstarted : ∀ record ∈ records, phases i record.key = .started)
    (hnext : x = (phases i).assign (records.map BlindTransportRecord.key) (phaseAfterWrite r))
    (key : DeliveryKey) :
    KeyInv (w.ledger key)
      (World.unprovenAttempts
        { w with attempts := ⟨job, records, batch, capabilities, r⟩ :: w.attempts } key)
      fun j => Function.update phases i x j key := by
  have hkey := h key
  have hcount : World.unprovenAttempts
      { w with attempts := ⟨job, records, batch, capabilities, r⟩ :: w.attempts } key =
        w.unprovenAttempts key +
          if (records.any (fun record => record.key = key) && !provenNotCommitted r) = true
          then 1 else 0 :=
    List.countP_cons ..
  rw [hcount, hnext]
  by_cases hmem : key ∈ records.map BlindTransportRecord.key
  · obtain ⟨record, hrecord, rfl⟩ := List.mem_map.1 hmem
    have hcovers : records.any (fun r => r.key = record.key) = true :=
      List.any_eq_true.2 ⟨record, hrecord, decide_eq_true rfl⟩
    rw [phases_update, Phases.assign_mem hmem, hcovers, Bool.true_and]
    have hwrite := hkey.write (hstarted record hrecord) r
    cases hproven : provenNotCommitted r with
    | true => simpa [hproven] using hwrite
    | false => simpa [hproven] using hwrite
  · have hcovers : records.any (fun record => record.key = key) = false := by
      rw [List.any_eq_false]
      intro record hrecord hkeyeq
      exact hmem (List.mem_map.2 ⟨record, hrecord, of_decide_eq_true hkeyeq⟩)
    rw [phases_unchanged (Phases.assign_notMem hmem), hcovers]
    exact hkey

/-- One ledger call of a worker that meets its obligation. -/
theorem keyInv_ledger {fails : Prop} {r : Except Exn c.Answer} {s' : Ledger}
    (h : AtMostOnceInv w phases) (hpre : atMostOnceSpec.pre (.ledger c) (phases i))
    (hstep : StoreStep fails (c.exec H inputs) w.ledger r s') :
    atMostOnceSpec.allowed (.ledger c) (phases i) r ∧
      ∀ key, KeyInv (s' key) (w.unprovenAttempts key) fun j =>
        Function.update phases i (atMostOnceSpec.next (.ledger c) (phases i) r) j key := by
  have hmove := storeStep_rowMove hstep
  cases c with
  | claimMany records leaseFor =>
      exact ⟨trivial, keyInv_unphased h hmove (by rintro _ _ _ ⟨⟩)
        (by rintro _ ⟨⟩) rfl⟩
  | get record =>
      exact ⟨trivial, keyInv_unphased h hmove (by rintro _ _ _ ⟨⟩)
        (by rintro _ ⟨⟩) rfl⟩
  | rearmForRetry record expectedState leaseFor =>
      refine ⟨trivial, keyInv_unphased h hmove ?_ (by rintro _ ⟨⟩) rfl⟩
      rintro _ _ _ ⟨⟩
      exact hpre
  | startReplayWrite record claimToken =>
      refine ⟨?_, keyInv_unphased h hmove (by rintro _ _ _ ⟨⟩) ?_ rfl⟩
      · cases r with
        | error e => rfl
        | ok a =>
            -- No row is ever in a replay state, so the transition finds none.
            rcases LedgerCall.exec_transition H rfl (storeStep_ok hstep) with
              ⟨hnil, -⟩ | ⟨instant, hitems, -⟩
            · cases hnil
            · obtain ⟨row, hrow, happlies, -⟩ := hitems _ (List.mem_singleton.2 rfl)
              have hreplay := (h record.key).notReplay row hrow
              rw [applies_state H happlies] at hreplay
              cases hreplay
      · rintro _ ⟨⟩
        exact .inl rfl
  | startWrite record claimToken contractId =>
      refine ⟨trivial, ?_⟩
      cases r with
      | ok a =>
          exact keyInv_start h (LedgerCall.exec_transition H rfl (storeStep_ok hstep)) rfl rfl rfl
      | error e =>
          refine keyInv_unphased h hmove (by rintro _ _ _ ⟨⟩) ?_ rfl
          rintro _ ⟨⟩
          exact .inr rfl
  | startWriteMany items contractId =>
      refine ⟨trivial, ?_⟩
      cases r with
      | ok a =>
          exact keyInv_start h (LedgerCall.exec_transition H rfl (storeStep_ok hstep)) rfl rfl rfl
      | error e =>
          refine keyInv_unphased h hmove (by rintro _ _ _ ⟨⟩) ?_ rfl
          rintro _ ⟨⟩
          exact .inr rfl
  | markReplayCommitted record claimToken =>
      refine ⟨trivial, keyInv_unphased h hmove (by rintro _ _ _ ⟨⟩) ?_ rfl⟩
      rintro _ ⟨⟩
      exact .inl rfl
  | markReplayUncertain record reasonCode claimToken =>
      refine ⟨trivial, keyInv_unphased h hmove (by rintro _ _ _ ⟨⟩) ?_ rfl⟩
      rintro _ ⟨⟩
      exact .inl rfl
  | markCommitted record claimToken =>
      refine ⟨trivial, keyInv_mark h hmove rfl (by rintro _ _ _ ⟨⟩) rfl ?_⟩
      rintro _ ⟨⟩ - item hitem
      rw [List.mem_singleton.1 hitem]
      exact hpre
  | markUncertain record reasonCode claimToken =>
      refine ⟨trivial, keyInv_mark h hmove rfl (by rintro _ _ _ ⟨⟩) rfl ?_⟩
      rintro _ ⟨⟩ - item hitem
      rw [List.mem_singleton.1 hitem]
      exact hpre
  | markCommittedMany items =>
      refine ⟨trivial, keyInv_mark h hmove rfl (by rintro _ _ _ ⟨⟩) rfl ?_⟩
      rintro _ ⟨⟩ - item hitem
      exact hpre item hitem
  | markUncertainMany items reasonCode =>
      refine ⟨trivial, keyInv_mark h hmove rfl (by rintro _ _ _ ⟨⟩) rfl ?_⟩
      rintro _ ⟨⟩ - item hitem
      exact hpre item hitem
  | markQuarantined record reasonCode claimToken expectedState =>
      refine ⟨trivial, keyInv_mark h hmove rfl (by rintro _ _ _ ⟨⟩) rfl ?_⟩
      intro t ht hstarted item hitem
      rw [List.mem_singleton.1 hitem]
      rw [LedgerCall.transition?] at ht
      split at ht
      · cases ht
        rename_i hmem
        have hwrite := quarantineStates_started _ hmem hstarted
        subst hwrite
        exact hpre rfl
      · cases ht
  | markQuarantinedMany items reasonCode expectedState =>
      refine ⟨trivial, keyInv_mark h hmove rfl (by rintro _ _ _ ⟨⟩) rfl ?_⟩
      intro t ht hstarted item hitem
      rw [LedgerCall.transition?] at ht
      split at ht
      · cases ht
        rename_i hmem
        have hwrite := batchQuarantineStates_started _ hmem hstarted
        subst hwrite
        exact hpre rfl item hitem
      · cases ht

end Preservation

/-! ## The system -/

/-- A connector that never advertises idempotency, with crashes. -/
def contractFreeEnvironment (spool : SpoolConfig) (storesFail : Prop) : Environment where
  spool := spool
  advertised _ caps := caps.supportsIdempotency = false
  storesFail := storesFail
  mayCrash := True
  quiet _ _ := False

theorem atMostOnce_preserves {ι : Type} [DecidableEq ι] (H : Host) (spool : SpoolConfig)
    (storesFail : Prop) (rt : ι → DestinationRuntime) :
    atMostOnceProtocol.Preserves
      (runtimeSystem H (contractFreeEnvironment spool storesFail) rt Job.unforced) anyStep
      AtMostOnceInv where
  body i job _ _ := keeps_body job.1 job.2
  start {_ g} i job h hidle := ⟨g i, hidle, by rwa [Function.update_eq_self]⟩
  finish i job h _ key := by
    rw [phases_update]
    exact (h key).release i
  crash i _ h key := by
    rw [phases_update]
    exact (h key).release i
  quiet _ hquiet := hquiet.elim
  call {c g i job op k r s'} hc hworker hpre _ hexec := by
    have h : AtMostOnceInv c.shared g := hc.inv
    cases hexec with
    | capabilities hcaps =>
        exact ⟨hcaps, h.unchanged i⟩
    | authorizeRecord => exact ⟨trivial, h.unchanged i⟩
    | authorizeCapability => exact ⟨trivial, h.unchanged i⟩
    | openRecord => exact ⟨trivial, h.unchanged i⟩
    | resolveForeignKey => exact ⟨trivial, h.unchanged i⟩
    | quarantine => exact ⟨trivial, h.unchanged i⟩
    | spoolGet => exact ⟨trivial, h.unchanged i⟩
    | remove => exact ⟨trivial, h.unchanged i⟩
    | ledger call inputs hstep =>
        obtain ⟨hallowed, hkeys⟩ := keyInv_ledger h hpre hstep
        exact ⟨hallowed, hkeys⟩
    | writeRecords record values context =>
        refine ⟨trivial, keyInv_write h ?_ rfl⟩
        intro r hr
        rw [List.mem_singleton.1 hr]
        exact hpre
    | writeBatch items =>
        refine ⟨trivial, keyInv_write h ?_ ?_⟩
        · intro r hr
          obtain ⟨item, hitem, rfl⟩ := List.mem_map.1 hr
          exact hpre item hitem
        · rw [List.map_map]
          rfl

/-- **No silent duplicate write.** With a connector that never supports idempotency, any number of
workers, crashes, arbitrary clocks and tokens, and stores that may fail: in every reachable state at
most one write attempt on a delivery identity ended otherwise than in a proof that nothing was
written, and exactly one when the row is committed. -/
theorem at_most_one_write {ι : Type} [DecidableEq ι] (H : Host) (spool : SpoolConfig)
    (storesFail : Prop) (rt : ι → DestinationRuntime) (capabilities : ConnectorCapabilities)
    {c : Config Op Op.Res Exn World ι {job : Job // job.unforced} (List DeliveryReceipt)}
    (hc : (runtimeSystem H (contractFreeEnvironment spool storesFail) rt Job.unforced).Reaches
      anyStep (System.initial { capabilities := capabilities }) c) (key : DeliveryKey) :
    c.shared.unprovenAttempts key ≤ 1 ∧
      ∀ row, c.shared.ledger key = some row → row.state = .committed →
        c.shared.unprovenAttempts key = 1 := by
  obtain ⟨g, hg⟩ := Protocol.reaches_coherent (atMostOnce_preserves H spool storesFail rt)
    (fun _ => KeyInv.absent) hc
  exact ⟨(hg.inv key).atMostOne, (hg.inv key).committed⟩

/-- One worker delivers the sample on its own. -/
theorem Sample.reaches_delivered :
    (runtimeSystem standardHost (contractFreeEnvironment (spool standardHost) False)
      (fun _ : Unit => runtime standardHost) Job.unforced).Reaches anyStep
      (System.initial { capabilities := Sample.capabilities })
      ⟨Sample.delivered.world, fun _ => none⟩ :=
  (@Services.reaches_job _ _ _ _ (contractFreeEnvironment (spool standardHost) False)
      (fun _ : Unit => runtime standardHost) _ _ _ _ () Sample.capabilities)
    (fun _ _ => rfl) ⟨job, trivial⟩ (fun _ _ _ _ _ _ => trivial) rfl rfl
    (steps_delivered tolerates_anyCall)

/-- The row of the delivered sample is committed, so it was written exactly once. -/
theorem at_most_one_write_delivered :
    ∃ row, Sample.delivered.world.ledger (Sample.record standardHost).key = some row ∧
      row.state = .committed ∧
      Sample.delivered.world.unprovenAttempts (Sample.record standardHost).key = 1 := by
  have honce := at_most_one_write standardHost (Sample.spool standardHost) False
    (fun _ : Unit => Sample.runtime standardHost) Sample.capabilities Sample.reaches_delivered
    (Sample.record standardHost).key
  obtain ⟨row, hrow, hstate⟩ := Sample.delivered_row
  exact ⟨row, hrow, hstate, honce.2 row hrow hstate⟩

end Polymorph
