import Polymorph.Delivery.AtMostOnce
import Polymorph.Delivery.ReplayRuns

/-!
# The idempotency contract of an automatic replay

Workers over a connector whose capabilities change while no call is in progress. An unforced replay
writes only under the contract the row records, and the row's contract is the one of every earlier
write that may have taken effect, because both kinds of first write record it as they cross the
boundary. A forced replay crosses the boundary without recording the contract it writes under: the
invariant `ContractInv` survives it only when the recorded contract is the one in force, or none is
recorded.
-/

set_option autoImplicit false

namespace Polymorph

open Concurrency Prog DeliveryLedger DestinationRuntime

/-- Where a worker stands with the first write of one identity. -/
inductive AttemptPhase where
  | idle
  | scalar
  | batch
  | refused
deriving DecidableEq

/-- What a worker knows of the rows it works on, under the capabilities of its job. -/
structure ContractGhost where
  caps : Option ConnectorCapabilities
  /-- First writes between the boundary and their recorded outcome. -/
  phase : Phases AttemptPhase
  /-- States read of rows whose contract is the one in force. -/
  gated : Set (DeliveryKey × DeliveryState)
  /-- Rows armed for a replay of an earlier write. -/
  replaying : Set DeliveryKey
  /-- Those of them whose contract is the one in force. -/
  covered : Set DeliveryKey

namespace ContractGhost

/-- The ghost value of a job that reads the capabilities `caps`. -/
def fresh (caps : Option ConnectorCapabilities) : ContractGhost :=
  ⟨caps, fun _ => .idle, ∅, ∅, ∅⟩

/-- The row read passes the gate of an unforced replay. -/
def gates (g : ContractGhost) (row : LedgerRow) : Bool :=
  g.caps.any fun caps =>
    decide (row.state ∈ ambiguousOrGuardedStates) && replayContractMatches row caps

/-- A replay armed from the state `expectedState`. -/
def arm (g : ContractGhost) (key : DeliveryKey) (expectedState : DeliveryState) : ContractGhost :=
  { g with
    replaying := g.replaying ∪ {key}
    covered := g.covered ∪ {k | k = key ∧ (key, expectedState) ∈ g.gated} }

/-- The phase of the given identities noted. -/
def note (g : ContractGhost) (keys : List DeliveryKey) (phase : AttemptPhase) : ContractGhost :=
  { g with phase := g.phase.assign keys phase }

/-- A first write that answered `r`. -/
def wrote (g : ContractGhost) (keys : List DeliveryKey) (r : Except Exn (Option Int)) :
    ContractGhost :=
  g.note keys (if provenNotCommitted r then .refused else .idle)

end ContractGhost

/-- A replay that does not force an uncertain row. -/
def Job.isUnforcedReplay : Job → Bool
  | .replay _ forceUncertain => !forceUncertain
  | _ => false

/-- A replay that forces an uncertain row. -/
def Job.isForcedReplay : Job → Bool
  | .replay _ forceUncertain => forceUncertain
  | _ => false

/-- The protocol of one worker. A first write needs its crossed boundary. A replay of an earlier
write needs an armed row, and an unforced one a contract in force. -/
def contractSpec (job : Job) : Spec Op Op.Res Exn ContractGhost where
  pre
    | .ledger (.startWrite _ _ contractId), g =>
        ∃ caps, g.caps = some caps ∧ contractId = scalarIdempotencyContractId caps
    | .ledger (.startWriteMany _ contractId), g =>
        ∃ caps, g.caps = some caps ∧ contractId = batchIdempotencyContractId caps
    | .ledger (.markQuarantined record _ _ expectedState), g =>
        expectedState = .writeStarted → g.phase record.key = .refused
    | .ledger (.markQuarantinedMany items _ expectedState), g =>
        expectedState = .batchWriteStarted → ∀ item ∈ items, g.phase item.1.key = .refused
    | .writeRecords record _ _, g =>
        g.phase record.key = .scalar ∨
          record.key ∈ g.replaying ∧ (job.isForcedReplay = false → record.key ∈ g.covered)
    | .writeBatch items, g =>
        job.isUnforcedReplay = false ∧ ∀ item ∈ items, g.phase item.1.key = .batch
    | _, _ => True
  allowed
    | .capabilities, g, r => ∀ caps, r = .ok caps → ∀ caps', g.caps = some caps' → caps' = caps
    | .ledger (.rearmForRetry _ expectedState _), _, r =>
        ∀ result : ClaimResult, r = .ok result → result.state = rearmTarget expectedState
    | _, _, _ => True
  next
    | .ledger (.startWrite record claimToken contractId), g, r =>
        if r.isOk then g.note (LedgerCall.startWrite record claimToken contractId).keys .scalar
        else g
    | .ledger (.startWriteMany items contractId), g, r =>
        if r.isOk then g.note (LedgerCall.startWriteMany items contractId).keys .batch else g
    | .ledger (.get record), g, r =>
        match r with
        | .ok (some row) =>
            if g.gates row then { g with gated := g.gated ∪ {(record.key, row.state)} } else g
        | _ => g
    | .ledger (.rearmForRetry record expectedState _), g, r =>
        if r.isOk ∧ rearmTarget expectedState = .replayClaimed then g.arm record.key expectedState
        else g
    | .ledger c, g, _ =>
        if c.marks then g.note c.keys .idle else g
    | .writeRecords record _ _, g, r =>
        if g.phase record.key = .scalar then g.wrote [record.key] r else g
    | .writeBatch items, g, r => g.wrote (items.map fun item => item.1.key) r
    | _, g, _ => g

/-- The ghost protocol. A job starts with the capabilities it will read. -/
def contractProtocol {allowed : Job → Prop} :
    Protocol Op Op.Res Exn {job : Job // allowed job} ContractGhost where
  spec job := contractSpec job.1
  idle := .fresh none
  begin _ g := ∃ caps, g = .fresh (some caps)
  done _ _ := True

/-! ## The programs follow the protocol -/

section Programs

variable {H : Host} {g : ContractGhost} {caps : ConnectorCapabilities} {job : Job}

theorem contract_silent : Silent (contractSpec job) where
  pre op g hop := by
    cases op with
    | capabilities => trivial
    | authorizeRecord _ => trivial
    | authorizeCapability _ _ => trivial
    | openRecord _ _ => trivial
    | resolveForeignKey _ _ _ => trivial
    | _ => cases hop
  next op g r hop := by
    cases op with
    | capabilities => rfl
    | authorizeRecord _ => rfl
    | authorizeCapability _ _ => rfl
    | openRecord _ _ => rfl
    | resolveForeignKey _ _ _ => rfl
    | _ => cases hop

/-- Between the steps of a job: its capabilities are the ones the ghost value names. -/
def Under (caps : ConnectorCapabilities) (g : ContractGhost) : Prop := g.caps = some caps

theorem under_mark {c : LedgerCall} {r : Except Exn c.Answer} (hmarks : c.marks = true)
    (hg : Under caps g) : Under caps ((contractSpec job).next (.ledger c) g r) := by
  have hnext : (contractSpec job).next (.ledger c) g r =
      if c.marks then g.note c.keys .idle else g := by
    cases c with
    | startWrite _ _ _ => cases hmarks
    | startWriteMany _ _ => cases hmarks
    | get _ => cases hmarks
    | rearmForRetry _ _ _ => cases hmarks
    | _ => rfl
  rw [hnext, if_pos hmarks]
  exact hg

theorem under_get {record : BlindTransportRecord} {r : Except Exn (Option LedgerRow)}
    (hg : Under caps g) : Under caps ((contractSpec job).next (.ledger (.get record)) g r) := by
  simp only [contractSpec]
  split
  · split <;> exact hg
  · exact hg

theorem keeps_quarantineBeforeWrite_under {record : BlindTransportRecord}
    {reasonCode claimToken : String} {expectedState : DeliveryState}
    {batchAttemptId : Option String} {retrySafe : Bool} (hstate : expectedState ≠ .writeStarted)
    (hg : Under caps g) :
    Keeps (contractSpec job) (Under caps)
      (quarantineBeforeWrite H record reasonCode claimToken expectedState
        batchAttemptId retrySafe) g := by
  refine keeps_call trivial (fun _ _ => ?_) fun _ _ => hg
  refine keeps_attempt_call (fun h => absurd h hstate) fun r _ => ?_
  have hmarked : Under caps ((contractSpec job).next
      (.ledger (.markQuarantined record reasonCode claimToken expectedState)) g r) :=
    under_mark rfl hg
  split
  · exact keeps_pure hmarked
  · refine keeps_attempt_call trivial fun r' _ => ?_
    have hread := (@under_get _ _ job record r') hmarked
    split
    · split
      · refine keeps_attempt_call trivial fun r'' _ => ?_
        split
        · exact keeps_pure hread
        · exact keeps_pure hread
      · exact keeps_pure hread
    · exact keeps_pure hread
  · exact keeps_raise hmarked

/-- What a worker must know of a row whose record it writes. -/
structure MayWrite (job : Job) (replayAttempt : Bool) (key : DeliveryKey) (g : ContractGhost) :
    Prop where
  first : replayAttempt = false → g.phase key = .scalar
  replay : replayAttempt = true →
    key ∈ g.replaying ∧ (job.isForcedReplay = false → key ∈ g.covered)

theorem keeps_writeScalar_under {record : BlindTransportRecord} {c : ClaimedDelivery}
    {payload : Payload} (hmay : MayWrite job c.replayAttempt record.key g)
    (hg : Under caps g) :
    Keeps (contractSpec job) (Under caps) (writeScalar H record c payload) g := by
  have hpre : (contractSpec job).pre
      (.writeRecords record payload (deliveryContext H record)) g := by
    cases hreplay : c.replayAttempt with
    | false => exact .inl (hmay.first hreplay)
    | true => exact .inr (hmay.replay hreplay)
  refine keeps_attempt_call hpre fun r _ => ?_
  generalize hg₁eq : (contractSpec job).next
    (.writeRecords record payload (deliveryContext H record)) g r = g₁
  have hg₁ : Under caps g₁ := by
    subst hg₁eq
    simp only [contractSpec]
    split <;> exact hg
  have hrefused : provenNotCommitted r = true → c.replayAttempt = false →
      g₁.phase record.key = .refused := by
    intro hproven hreplay
    subst hg₁eq
    simp only [contractSpec]
    rw [if_pos (hmay.first hreplay)]
    refine (Phases.assign_mem (List.mem_singleton.2 rfl)).trans ?_
    rw [if_pos hproven]
  have hmark : ∀ {call : LedgerCall} {g : ContractGhost}, call.marks = true → Under caps g →
      (contractSpec job).pre (.ledger call) g → ∀ r : DeliveryReceipt,
      Keeps (contractSpec job) (Under caps) (ledgerCall call >>= fun _ => pure r) g :=
    fun hmarks hg hpre r => keeps_bind (keeps_ledgerCall hpre fun _ _ => under_mark hmarks hg)
      (fun _ _ hg' => keeps_pure hg') fun _ hg' => hg'
  have hunknown : Keeps (contractSpec job) (Under caps) (writeOutcomeUnknown H record c) g₁ := by
    refine keeps_call trivial (fun _ _ => ?_) fun _ _ => hg₁
    unfold ClaimedDelivery.uncertainCall
    split
    · refine hmark rfl hg₁ ?_ _
      trivial
    · refine hmark rfl hg₁ ?_ _
      trivial
  cases r with
  | ok written =>
      dsimp only
      split
      · refine keeps_attempt_bind (J := Under caps) ?_ fun r' g' hg' => ?_
        · unfold ClaimedDelivery.committedCall
          split
          · exact keeps_ledgerCall trivial fun _ _ => under_mark rfl hg₁
          · exact keeps_ledgerCall trivial fun _ _ => under_mark rfl hg₁
        · split
          · exact keeps_call trivial (fun _ _ => keeps_pure hg') fun _ _ => hg'
          · refine keeps_attempt_call trivial fun r'' _ => ?_
            split
            · exact keeps_pure hg'
            · exact keeps_pure hg'
      · exact hunknown
  | error e =>
      dsimp only
      split
      · rename_i hproven
        refine keeps_call trivial (fun _ _ => ?_) fun _ _ => hg₁
        refine hmark rfl hg₁ ?_ _
        intro hstate
        refine hrefused hproven ?_
        cases hreplay : c.replayAttempt with
        | false => rfl
        | true =>
            rw [ClaimedDelivery.writeStartedState, hreplay, if_pos rfl] at hstate
            cases hstate
      · exact hunknown

theorem keeps_crossAndWrite_under {record : BlindTransportRecord} {c : ClaimedDelivery}
    {payload : Payload} (hcaps : c.authorizedCapabilities = caps)
    (hreplay : c.replayAttempt = true →
      record.key ∈ g.replaying ∧ (job.isForcedReplay = false → record.key ∈ g.covered))
    (hg : Under caps g) :
    Keeps (contractSpec job) (Under caps) (crossAndWrite H record c payload) g := by
  unfold crossAndWrite
  cases hc : c.replayAttempt with
  | true =>
      rw [ClaimedDelivery.startCall, hc, if_pos rfl]
      refine keeps_attempt_ledgerCall trivial (fun a _ => ?_) fun e _ => ?_
      · refine keeps_writeScalar_under ⟨fun h => ?_, fun _ => hreplay hc⟩ hg
        rw [hc] at h
        cases h
      · split
        · exact keeps_pure hg
        · exact keeps_raise hg
        · rename_i h
          cases h
  | false =>
      rw [ClaimedDelivery.startCall, hc, if_neg Bool.false_ne_true]
      refine keeps_attempt_ledgerCall ⟨caps, hg, by rw [hcaps]⟩ (fun a _ => ?_) fun e _ => ?_
      · refine keeps_writeScalar_under ⟨fun _ => ?_, fun h => ?_⟩ hg
        · exact Phases.assign_mem (List.mem_singleton.2 rfl)
        · rw [hc] at h
          cases h
      · split
        · exact keeps_pure hg
        · exact keeps_raise hg
        · rename_i h
          cases h

theorem keeps_crossAndWriteBatch_under {prepared : List PreparedItem} {receipts : Receipts}
    (hjob : job.isUnforcedReplay = false) (hg : Under caps g) :
    Keeps (contractSpec job) (Under caps) (crossAndWriteBatch H prepared caps receipts) g := by
  refine keeps_attempt_call ⟨caps, hg, rfl⟩ fun started _ => ?_
  split
  · exact keeps_pure hg
  · exact keeps_pure hg
  · rename_i batchAttemptId _
    let items := prepared.map fun p => (p.record, p.item)
    generalize hg₁eq : (contractSpec job).next _ g (.ok batchAttemptId) = g₁
    have hg₁ : Under caps g₁ := by
      subst hg₁eq
      exact hg
    have hstarted : ∀ item ∈ items, g₁.phase item.1.key = .batch := by
      subst hg₁eq
      intro item hitem
      obtain ⟨p, hp, rfl⟩ := List.mem_map.1 hitem
      exact Phases.assign_mem (List.mem_map.2 ⟨_, List.mem_map.2 ⟨p, hp, rfl⟩, rfl⟩)
    refine keeps_attempt_call ⟨hjob, hstarted⟩ fun written _ => ?_
    have hrefused : provenNotCommitted written = true → ∀ item ∈ transitions prepared,
        (g₁.wrote (items.map fun item => item.1.key) written).phase item.1.key = .refused := by
      intro hproven item hitem
      obtain ⟨p, hp, rfl⟩ := mem_transitions hitem
      refine (Phases.assign_mem ?_).trans (if_pos hproven)
      exact List.mem_map.2 ⟨_, List.mem_map.2 ⟨p, hp, rfl⟩, rfl⟩
    have houtcome : ∀ {reasonCode : String} {mark : LedgerCall} {g : ContractGhost},
        mark.marks = true → (contractSpec job).pre (.ledger mark) g → Under caps g →
        Keeps (contractSpec job) (Under caps) (recordBatchOutcome prepared reasonCode mark) g :=
      fun hmarks hpre hg => keeps_call trivial
        (fun _ _ => keeps_ledgerCall hpre fun _ _ => under_mark hmarks hg) fun _ _ => hg
    cases houtcome' : batchOutcome prepared.length written with
    | none =>
        simp only []
        refine keeps_attempt_ledgerCall trivial (fun _ _ => ?_) fun _ _ => ?_
        · refine keeps_attempt_call trivial fun r _ => ?_
          split
          · exact keeps_pure hg₁
          · exact keeps_pure hg₁
        · exact keeps_attempt_call trivial fun _ _ => keeps_pure hg₁
    | some outcome =>
        simp only []
        unfold batchNotAcknowledged
        split
        · rename_i hnot
          have hproven : provenNotCommitted written = true := by
            cases written with
            | ok n =>
                rw [batchOutcome] at houtcome'
                split at houtcome'
                · cases houtcome'
                · cases houtcome'
                  cases hnot
            | error e =>
                simp only [batchOutcome, Option.some.injEq] at houtcome'
                rw [hnot] at houtcome'
                simp only [provenNotCommitted, Exn.provesNotCommitted, decide_eq_true_eq]
                cases hout : e.writeOutcome? with
                | none =>
                    rw [hout] at houtcome'
                    cases houtcome'
                | some o =>
                    rw [hout] at houtcome'
                    rw [← houtcome']
                    rfl
          refine keeps_attempt_bind (houtcome rfl (fun _ => hrefused hproven) hg₁)
            fun r g' hg' => ?_
          split
          · exact keeps_pure hg'
          · exact keeps_pure hg'
        · refine keeps_attempt_bind (houtcome rfl trivial hg₁) fun r g' hg' => ?_
          split
          · exact keeps_pure hg'
          · exact keeps_pure hg'

/-- The delivery paths follow the protocol. -/
theorem contract_deliveryRules (hjob : job.isUnforcedReplay = false) :
    DeliveryRules H (contractSpec job) (fun _ => True) (fun caps _ => Under caps) where
  silent := contract_silent
  weaken hg _ := hg
  claim _ _ _ hg := ⟨trivial, fun _ _ => hg, fun _ _ => hg⟩
  ambiguous _ _ _ hg := keeps_call trivial (fun _ _ => keeps_pure hg) fun _ _ => hg
  quarantine _ _ _ _ _ _ hg := keeps_quarantineBeforeWrite_under (by decide) hg
  write _ _ _ _ _ hg := keeps_crossAndWrite_under rfl (by rintro ⟨⟩) hg
  writeBatch _ _ _ hg := keeps_crossAndWriteBatch_under hjob hg

/-- A replay follows the protocol: unforced, it arms only rows that passed the gate. -/
theorem contract_replayRules {rt : DestinationRuntime} (recordDigest : String)
    (forceUncertain : Bool) :
    ReplayRules H rt (contractSpec (.replay recordDigest forceUncertain)) Under recordDigest forceUncertain
      (fun record row caps g => decide (row.state ∈ ambiguousOrGuardedStates) = true →
        replayContractMatches row caps = true → (record.key, row.state) ∈ g.gated) where
  silent := contract_silent
  spoolGet := by
    intro caps g hg
    refine ⟨trivial, fun _ _ => ⟨hg, fun record _ => ⟨trivial, fun r' _ => ⟨under_get hg, ?_⟩⟩⟩⟩
    rintro row rfl hstate hmatches
    have hgates : g.gates row = true := by
      rw [ContractGhost.gates, show g.caps = some caps from hg, Option.any_some, hstate, hmatches]
      rfl
    simp only [contractSpec, hgates, if_true]
    exact .inr rfl
  remove hg _ _ := ⟨trivial, fun _ _ => hg⟩
  rearm := by
    intro caps g record row hg hK _ hgate
    refine keeps_call trivial (fun rearmed hrearmed => ?_) fun e _ => ?_
    · have hstate : rearmed.state = rearmTarget row.state := hrearmed rearmed rfl
      generalize hg₁eq : (contractSpec (.replay recordDigest forceUncertain)).next
        (.ledger (.rearmForRetry record row.state rt.claimLease)) g (.ok rearmed) = g₁
      have hg₁ : Under caps g₁ := by
        subst hg₁eq
        simp only [contractSpec]
        split <;> exact hg
      have hreplay : decide (rearmed.state = .replayClaimed) = true →
          record.key ∈ g₁.replaying ∧ (forceUncertain = false → record.key ∈ g₁.covered) := by
        intro hclaimed
        rw [decide_eq_true_eq, hstate] at hclaimed
        subst hg₁eq
        simp only [contractSpec, hclaimed, and_true, Except.isOk, Except.toBool, if_true]
        refine ⟨.inr rfl, fun hunforced => .inr ⟨rfl, ?_⟩⟩
        have hgate := hgate hunforced
        rw [unforcedGate, Bool.or_eq_true, decide_eq_true_eq, Bool.and_eq_true] at hgate
        rcases hgate with hquarantined | ⟨hmem, hmatches⟩
        · rw [hquarantined] at hclaimed
          cases hclaimed
        · exact hK hmem hmatches
      split
      · exact keeps_raise hg₁
      · exact keeps_deliverClaimed contract_silent
          (fun _ _ _ => keeps_quarantineBeforeWrite_under (claimedState_ne_writeStarted _) hg₁)
          fun _ => keeps_crossAndWrite_under rfl hreplay hg₁
    · simp only [contractSpec]
      split <;> exact hg

theorem contract_body {rt : DestinationRuntime} (job : Job) :
    Keeps (contractSpec job) (fun _ => True) (job.body H rt) (.fresh (some caps)) := by
  have hstart : ∀ job, StartRule (contractSpec job) Under (fun _ => True)
      (ContractGhost.fresh (some caps)) :=
    fun _ => ⟨fun _ hcaps => congrArg some (hcaps _ rfl _ rfl), trivial, fun _ _ _ => trivial⟩
  cases job with
  | deliver record =>
      exact keeps_bind (keeps_deliver (contract_deliveryRules rfl) (hstart _) record trivial)
        (fun _ _ _ => keeps_pure trivial) fun _ _ => trivial
  | deliverMany records =>
      exact keeps_deliverMany (contract_deliveryRules rfl) (hstart _) records fun _ _ => trivial
  | replay recordDigest forceUncertain =>
      exact keeps_bind (keeps_replay (contract_replayRules recordDigest forceUncertain)
        (hstart _)) (fun _ _ _ => keeps_pure trivial) fun _ _ => trivial

end Programs

/-! ## The invariant -/

/-- What a worker knows of one row. -/
structure KeyGhost where
  phase : AttemptPhase
  gated : Set DeliveryState
  replaying : Prop
  covered : Prop

/-- A worker's knowledge of the row of an identity. -/
def ContractGhost.at (g : ContractGhost) (key : DeliveryKey) : KeyGhost :=
  ⟨g.phase key, {state | (key, state) ∈ g.gated}, key ∈ g.replaying, key ∈ g.covered⟩

theorem note_at_mem {g : ContractGhost} {keys : List DeliveryKey} {phase : AttemptPhase}
    {key : DeliveryKey} (h : key ∈ keys) :
    (g.note keys phase).at key = { g.at key with phase := phase } := by
  change KeyGhost.mk (g.phase.assign keys phase key) _ _ _ = _
  rw [Phases.assign_mem h]
  rfl

theorem note_at_notMem {g : ContractGhost} {keys : List DeliveryKey} {phase : AttemptPhase}
    {key : DeliveryKey} (h : key ∉ keys) : (g.note keys phase).at key = g.at key := by
  change KeyGhost.mk (g.phase.assign keys phase key) _ _ _ = _
  rw [Phases.assign_notMem h]
  rfl

/-- A first write has crossed the boundary, and was not proven undone. -/
def beyond (row : Option LedgerRow) : Prop :=
  ∃ r, row = some r ∧ r.state.isUnwritten = false

/-- The row is replayed or done. -/
def inReplay (row : Option LedgerRow) : Prop :=
  ∃ r, row = some r ∧ (r.state.isReplay = true ∨ r.state = .committed)

/-- The contract of the row is in force. -/
structure Matches (caps : ConnectorCapabilities) (row : LedgerRow) : Prop where
  recorded : row.idempotencyContractId.isSome = true
  inForce : row.idempotencyContractId = scalarIdempotencyContractId caps
  batch : row.currentWriteBatchAttemptId.isSome = true →
    (batchIdempotencyContractId caps).isSome = true

/-- What remains of a passed gate while other workers move the row: in a write-started state the
row may have come back to that state, out of any other state of the gate it cannot return. -/
structure Gated (caps : ConnectorCapabilities) (state : DeliveryState) (row : LedgerRow) :
    Prop where
  scalar : (scalarIdempotencyContractId caps).isSome = true
  batch : state = .batchWriteStarted → (batchIdempotencyContractId caps).isSome = true
  started : state.isWriteStarted = true → row.state = state → Matches caps row
  settled : state.isWriteStarted = false →
    row.state.isUnwritten = false ∧ row.state.isWriteStarted = false ∧ Matches caps row

/-- A row read in a state of the gate with its contract in force. -/
theorem gated_of_replayContractMatches {caps : ConnectorCapabilities} {row : LedgerRow}
    (hstate : row.state ∈ ambiguousOrGuardedStates)
    (h : replayContractMatches row caps = true) : Gated caps row.state row := by
  simp only [replayContractMatches, Bool.and_eq_true, Bool.or_eq_true, Bool.not_eq_true',
    decide_eq_true_eq, Bool.or_eq_false_iff, decide_eq_false_iff_not] at h
  obtain ⟨⟨hrecorded, hinForce⟩, hbatch⟩ := h
  have hmatches : Matches caps row := by
    refine ⟨hrecorded, hinForce, fun hsome => ?_⟩
    rcases hbatch with ⟨-, hnone⟩ | hbatch
    · rw [hsome] at hnone
      cases hnone
    · exact hbatch
  refine ⟨hinForce ▸ hrecorded, fun hstarted => ?_, fun _ _ => hmatches, fun hs => ?_⟩
  · rcases hbatch with ⟨hnot, -⟩ | hbatch
    · rw [hstarted] at hnot
      exact absurd (by decide) hnot
    · exact hbatch
  · have hcases : ∀ a ∈ ambiguousOrGuardedStates, a.isUnwritten = false := by decide
    exact ⟨hcases _ hstate, hs, hmatches⟩

theorem Gated.matches {caps : ConnectorCapabilities} {state : DeliveryState} {row : LedgerRow}
    (h : Gated caps state row) (hrow : row.state = state) : Matches caps row := by
  cases hs : state.isWriteStarted with
  | true => exact h.started hs hrow
  | false => exact (h.settled hs).2.2

/-- What ties a row to the attempts that may have written it and to the workers' knowledge. -/
structure RowInv {ι : Type} (caps : ConnectorCapabilities) (row : Option LedgerRow)
    (attempts : List WriteAttempt) (k : ι → KeyGhost) : Prop where
  owner : ∀ i j, (k i).phase ≠ .idle → (k j).phase ≠ .idle → i = j
  crossed : ∀ i, (k i).phase ≠ .idle → beyond row
  clean : ∀ i, (k i).phase ≠ .idle → inFlight row → attempts = []
  scalar : ∀ i r, (k i).phase = .scalar → row = some r →
    r.idempotencyContractId = scalarIdempotencyContractId caps ∧
      r.currentWriteBatchAttemptId = none ∧ (r.idempotencyContractId = none → attempts = [])
  batch : ∀ i r, (k i).phase = .batch → row = some r →
    r.idempotencyContractId = batchIdempotencyContractId caps ∧
      r.currentWriteBatchAttemptId.isSome = true
  unattempted : unwritten row → attempts = []
  contract : ∀ r contractId, row = some r → r.idempotencyContractId = some contractId →
    ∀ b ∈ attempts, scalarIdempotencyContractId b.capabilities = some contractId
  batchNamed : ∀ b ∈ attempts, b.batch = true →
    ∃ r, row = some r ∧ r.currentWriteBatchAttemptId.isSome = true
  replaying : ∀ i, (k i).replaying → inReplay row
  covered : ∀ i, (k i).covered → inReplay row ∧ ∀ r, row = some r → Matches caps r
  gated : ∀ i, ∀ state ∈ (k i).gated, ∃ r, row = some r ∧ Gated caps state r

namespace RowInv

variable {ι : Type} {caps : ConnectorCapabilities} {row : Option LedgerRow} {r r' : LedgerRow}
  {attempts : List WriteAttempt} {k k' : ι → KeyGhost}

theorem absent {key : DeliveryKey} :
    RowInv caps none [] (fun _ : ι => (ContractGhost.fresh none).at key) where
  owner i _ hi := absurd rfl hi
  crossed i hi := absurd rfl hi
  clean i hi := absurd rfl hi
  scalar i _ hi := by cases hi
  batch i _ hi := by cases hi
  unattempted _ := rfl
  contract _ _ h := by cases h
  batchNamed _ h := by cases h
  replaying _ h := by cases h
  covered _ h := by cases h
  gated _ _ h := by cases h

/-- Knowledge may be forgotten. -/
theorem weaken (h : RowInv caps row attempts k)
    (hphase : ∀ i, (k' i).phase = (k i).phase ∨ (k' i).phase = .idle)
    (hgated : ∀ i, (k' i).gated ⊆ (k i).gated)
    (hreplaying : ∀ i, (k' i).replaying → (k i).replaying)
    (hcovered : ∀ i, (k' i).covered → (k i).covered) : RowInv caps row attempts k' := by
  have hold : ∀ i, (k' i).phase ≠ .idle → (k' i).phase = (k i).phase := fun i hi =>
    (hphase i).resolve_right hi
  have hne : ∀ i, (k' i).phase ≠ .idle → (k i).phase ≠ .idle := fun i hi => hold i hi ▸ hi
  refine ⟨fun i j hi hj => h.owner i j (hne i hi) (hne j hj), fun i hi => h.crossed i (hne i hi),
    fun i hi => h.clean i (hne i hi), fun i r hi => h.scalar i r ?_, fun i r hi => h.batch i r ?_,
    h.unattempted, h.contract, h.batchNamed, fun i hi => h.replaying i (hreplaying i hi),
    fun i hi => h.covered i (hcovered i hi), fun i s hs => h.gated i s (hgated i hs)⟩
  · rw [← hold i (by rw [hi]; decide), hi]
  · rw [← hold i (by rw [hi]; decide), hi]

theorem idle_of_unwritten (h : RowInv caps row attempts k) (hrow : unwritten row)
    (i : ι) : (k i).phase = .idle := by
  by_contra hi
  obtain ⟨r, hr, hwritten⟩ := h.crossed i hi
  rw [hrow r hr] at hwritten
  cases hwritten

/-- Capabilities may change while no worker knows of the row. -/
theorem recast (h : RowInv caps row attempts k) {caps' : ConnectorCapabilities}
    (hphase : ∀ i, (k i).phase = .idle) (hgated : ∀ i, (k i).gated = ∅)
    (hcovered : ∀ i, ¬(k i).covered) : RowInv caps' row attempts k := by
  refine ⟨h.owner, h.crossed, h.clean, fun i r hi => ?_, fun i r hi => ?_, h.unattempted,
    h.contract, h.batchNamed, h.replaying, fun i hi => absurd hi (hcovered i), fun i s hs => ?_⟩
  · rw [hphase i] at hi
    cases hi
  · rw [hphase i] at hi
    cases hi
  · rw [hgated i] at hs
    cases hs

/-- The row moves on past the boundary, its contract and batch attempt kept. -/
theorem advance (h : RowInv caps (some r) attempts k)
    (hcontract : r'.idempotencyContractId = r.idempotencyContractId)
    (hbatch : r'.currentWriteBatchAttemptId = r.currentWriteBatchAttemptId)
    (hwritten : r'.state.isUnwritten = false) (hstarted : r'.state.isWriteStarted = false)
    (hreplay : r.state.isReplay = true ∨ r.state = .committed →
      r'.state.isReplay = true ∨ r'.state = .committed) : RowInv caps (some r') attempts k := by
  have hmatches : Matches caps r → Matches caps r' := fun hm =>
    ⟨hcontract ▸ hm.recorded, hcontract ▸ hm.inForce, hbatch ▸ hm.batch⟩
  refine ⟨h.owner, fun _ _ => ⟨r', rfl, hwritten⟩, ?_, ?_, ?_, ?_, ?_, ?_, ?_, ?_, ?_⟩
  · rintro i - ⟨_, ⟨⟩, hflight⟩
    rw [hstarted] at hflight
    cases hflight
  · rintro i _ hi ⟨⟩
    rw [hcontract, hbatch]
    exact h.scalar i r hi rfl
  · rintro i _ hi ⟨⟩
    rw [hcontract, hbatch]
    exact h.batch i r hi rfl
  · intro hunwritten
    rw [hunwritten r' rfl] at hwritten
    cases hwritten
  · rintro _ contractId ⟨⟩ hid
    exact h.contract r contractId rfl (hcontract.symm.trans hid)
  · intro b hb hb'
    obtain ⟨_, ⟨⟩, hsome⟩ := h.batchNamed b hb hb'
    exact ⟨r', rfl, hbatch ▸ hsome⟩
  · intro i hi
    obtain ⟨_, ⟨⟩, hr⟩ := h.replaying i hi
    exact ⟨r', rfl, hreplay hr⟩
  · intro i hi
    obtain ⟨⟨_, ⟨⟩, hr⟩, hm⟩ := h.covered i hi
    refine ⟨⟨r', rfl, hreplay hr⟩, ?_⟩
    rintro _ ⟨⟩
    exact hmatches (hm r rfl)
  · intro i s hs
    obtain ⟨_, ⟨⟩, hg⟩ := h.gated i s hs
    refine ⟨r', rfl, hg.scalar, hg.batch, fun hs hr' => ?_, fun hs => ?_⟩
    · rw [hr', hs] at hstarted
      cases hstarted
    · exact ⟨hwritten, hstarted, hmatches (hg.settled hs).2.2⟩

/-- The row is claimed or quarantined again, without an attempt that may have written. -/
theorem retreat (h : RowInv caps row attempts k) (hempty : attempts = [])
    (hidle : ∀ i, (k i).phase = .idle) (hunwritten : r'.state.isUnwritten = true)
    (hrow : ∀ r, row = some r → r.state.isUnwritten = true ∨ r.state.isWriteStarted = true) :
    RowInv caps (some r') attempts k := by
  have hnot : ∀ a : DeliveryState, a.isUnwritten = true ∨ a.isWriteStarted = true →
      ¬(a.isReplay = true ∨ a = .committed) := by
    intro a
    cases a <;> decide
  subst hempty
  refine ⟨h.owner, fun i hi => absurd (hidle i) hi, fun _ _ _ => rfl, ?_, ?_, fun _ => rfl, ?_, ?_,
    ?_, ?_, ?_⟩
  · intro i _ hi
    rw [hidle i] at hi
    cases hi
  · intro i _ hi
    rw [hidle i] at hi
    cases hi
  · rintro _ _ _ _ b ⟨⟩
  · rintro b ⟨⟩
  · intro i hi
    obtain ⟨r, hr, hreplay⟩ := h.replaying i hi
    exact absurd hreplay (hnot _ (hrow r hr))
  · intro i hi
    obtain ⟨⟨r, hr, hreplay⟩, -⟩ := h.covered i hi
    exact absurd hreplay (hnot _ (hrow r hr))
  · intro i s hs
    obtain ⟨r, hr, hg⟩ := h.gated i s hs
    refine ⟨r', rfl, hg.scalar, hg.batch, fun hs hr' => ?_, fun hs => ?_⟩
    · have hdisjoint : ∀ a : DeliveryState, a.isUnwritten = true → a.isWriteStarted = false := by
        intro a
        cases a <;> decide
      rw [hr'] at hunwritten
      rw [hdisjoint _ hunwritten] at hs
      cases hs
    · obtain ⟨hwritten, hstarted, -⟩ := hg.settled hs
      rcases hrow r hr with h | h
      · rw [hwritten] at h
        cases h
      · rw [hstarted] at h
        cases h

/-- A claimed row crosses the boundary; no worker's phase knows of it yet. -/
theorem start (h : RowInv caps (some r) attempts k) (hr : r.state.isUnwritten = true)
    (hgated : ∀ state, Gated caps state r → Gated caps state r') :
    RowInv caps (some r') attempts k ∧ attempts = [] ∧ ∀ i, (k i).phase = .idle := by
  have hunwritten : unwritten (some r) := by
    rintro _ ⟨⟩
    exact hr
  have hempty := h.unattempted hunwritten
  have hidle := h.idle_of_unwritten hunwritten
  have hnot : ∀ a : DeliveryState, a.isUnwritten = true → ¬(a.isReplay = true ∨ a = .committed) := by
    intro a
    cases a <;> decide
  subst hempty
  refine ⟨⟨h.owner, fun i hi => absurd (hidle i) hi, fun _ _ _ => rfl, ?_, ?_, fun _ => rfl, ?_, ?_,
    ?_, ?_, ?_⟩, rfl, hidle⟩
  · intro i _ hi
    rw [hidle i] at hi
    cases hi
  · intro i _ hi
    rw [hidle i] at hi
    cases hi
  · rintro _ _ _ _ b ⟨⟩
  · rintro b ⟨⟩
  · intro i hi
    obtain ⟨_, ⟨⟩, hreplay⟩ := h.replaying i hi
    exact absurd hreplay (hnot _ hr)
  · intro i hi
    obtain ⟨⟨_, ⟨⟩, hreplay⟩, -⟩ := h.covered i hi
    exact absurd hreplay (hnot _ hr)
  · intro i s hs
    obtain ⟨_, ⟨⟩, hg⟩ := h.gated i s hs
    exact ⟨r', rfl, hgated s hg⟩

/-- An attempt that may have written is added under the contract the row records. -/
theorem attempt (h : RowInv caps row attempts k) {a : WriteAttempt}
    (hcaps : a.capabilities = caps) (hbeyond : beyond row)
    (hflight : inFlight row → ∀ i, (k i).phase = .idle)
    (hcontract : ∀ r contractId, row = some r → r.idempotencyContractId = some contractId →
      scalarIdempotencyContractId caps = some contractId)
    (hnone : ∀ r, row = some r → r.idempotencyContractId = none → ∀ i, (k i).phase ≠ .scalar)
    (hbatch : a.batch = true → ∃ r, row = some r ∧ r.currentWriteBatchAttemptId.isSome = true) :
    RowInv caps row (a :: attempts) k := by
  obtain ⟨r₀, hr₀, hwritten⟩ := hbeyond
  refine ⟨h.owner, h.crossed, fun i hi hf => absurd (hflight hf i) hi, fun i r hi hr => ?_, h.batch,
    fun hunwritten => ?_, fun r contractId hr hid b hb => ?_, fun b hb hb' => ?_, h.replaying,
    h.covered, h.gated⟩
  · obtain ⟨hid, hbatchNone, -⟩ := h.scalar i r hi hr
    exact ⟨hid, hbatchNone, fun hcontractNone => absurd hi (hnone r hr hcontractNone i)⟩
  · rw [hunwritten r₀ hr₀] at hwritten
    cases hwritten
  · rcases List.mem_cons.1 hb with rfl | hb
    · rw [hcaps]
      exact hcontract r contractId hr hid
    · exact h.contract r contractId hr hid b hb
  · rcases List.mem_cons.1 hb with rfl | hb
    · exact hbatch hb'
    · exact h.batchNamed b hb hb'

variable [DecidableEq ι]

/-- The worker that crossed the boundary takes note of it. -/
theorem cross (h : RowInv caps (some r) [] k) (hidle : ∀ j, (k j).phase = .idle)
    (hstarted : r.state.isWriteStarted = true) (i : ι) (phase : AttemptPhase)
    (hscalar : phase = .scalar →
      r.idempotencyContractId = scalarIdempotencyContractId caps ∧
        r.currentWriteBatchAttemptId = none)
    (hbatch : phase = .batch →
      r.idempotencyContractId = batchIdempotencyContractId caps ∧
        r.currentWriteBatchAttemptId.isSome = true) :
    RowInv caps (some r) [] (Function.update k i { k i with phase := phase }) := by
  have hself : ∀ {β : Type} (f : KeyGhost → β), (∀ x : KeyGhost, f { x with phase := phase } = f x) →
      ∀ j, f (Function.update k i { k i with phase := phase } j) = f (k j) := by
    intro β f hf j
    by_cases hj : j = i
    · subst hj
      rw [Function.update_self, hf]
    · rw [Function.update_of_ne hj]
  have hphase : ∀ j, j ≠ i →
      (Function.update k i { k i with phase := phase } j).phase = .idle := by
    intro j hj
    rw [Function.update_of_ne hj]
    exact hidle j
  have hwritten : r.state.isUnwritten = false := by
    have hdisjoint : ∀ a : DeliveryState, a.isWriteStarted = true → a.isUnwritten = false := by
      intro a
      cases a <;> decide
    exact hdisjoint _ hstarted
  refine ⟨fun a b ha hb => ?_, fun _ _ => ⟨r, rfl, hwritten⟩, fun _ _ _ => rfl, ?_, ?_,
    fun _ => rfl, ?_, ?_, ?_, ?_, ?_⟩
  · have hi : ∀ j, (Function.update k i { k i with phase := phase } j).phase ≠ .idle → j = i :=
      fun j hj => by_contra fun hne => hj (hphase j hne)
    exact (hi a ha).trans (hi b hb).symm
  · rintro j _ hj ⟨⟩
    by_cases hji : j = i
    · subst hji
      rw [Function.update_self] at hj
      obtain ⟨hcontract, hnone⟩ := hscalar hj
      exact ⟨hcontract, hnone, fun _ => rfl⟩
    · rw [hphase j hji] at hj
      cases hj
  · rintro j _ hj ⟨⟩
    by_cases hji : j = i
    · subst hji
      rw [Function.update_self] at hj
      exact hbatch hj
    · rw [hphase j hji] at hj
      cases hj
  · rintro _ _ _ _ b ⟨⟩
  · rintro b ⟨⟩
  · intro j hj
    rw [hself KeyGhost.replaying fun _ => rfl] at hj
    exact h.replaying j hj
  · intro j hj
    rw [hself KeyGhost.covered fun _ => rfl] at hj
    exact h.covered j hj
  · intro j s hs
    rw [hself KeyGhost.gated fun _ => rfl] at hs
    exact h.gated j s hs

/-- A first write refused for certain. -/
theorem refuse (h : RowInv caps row attempts k) (i : ι) (hi : (k i).phase ≠ .idle) :
    RowInv caps row attempts (Function.update k i { k i with phase := .refused }) := by
  have hself : ∀ {β : Type} (f : KeyGhost → β), (∀ x : KeyGhost, ∀ p, f { x with phase := p } = f x) →
      ∀ j, f (Function.update k i { k i with phase := .refused } j) = f (k j) := by
    intro β f hf j
    by_cases hj : j = i
    · subst hj
      rw [Function.update_self, hf]
    · rw [Function.update_of_ne hj]
  have hne : ∀ j, (Function.update k i { k i with phase := .refused } j).phase ≠ .idle →
      (k j).phase ≠ .idle := by
    intro j hj
    by_cases hji : j = i
    · exact hji ▸ hi
    · rwa [Function.update_of_ne hji] at hj
  have hother : ∀ j phase, phase ≠ .refused →
      (Function.update k i { k i with phase := .refused } j).phase = phase →
      (k j).phase = phase := by
    intro j phase hphase hj
    by_cases hji : j = i
    · rw [hji, Function.update_self] at hj
      exact absurd hj.symm hphase
    · rwa [Function.update_of_ne hji] at hj
  refine ⟨fun a b ha hb => h.owner a b (hne a ha) (hne b hb), fun j hj => h.crossed j (hne j hj),
    fun j hj => h.clean j (hne j hj), fun j r hj => h.scalar j r (hother j _ (by decide) hj),
    fun j r hj => h.batch j r (hother j _ (by decide) hj), h.unattempted, h.contract, h.batchNamed,
    fun j hj => h.replaying j ?_, fun j hj => h.covered j ?_, fun j s hs => h.gated j s ?_⟩
  · rwa [hself KeyGhost.replaying fun _ _ => rfl] at hj
  · rwa [hself KeyGhost.covered fun _ _ => rfl] at hj
  · rwa [hself KeyGhost.gated fun _ _ => rfl] at hs

/-- The owner of a first write writes: no phase of the row is left unless the write was refused. -/
theorem wrote (h : RowInv caps row attempts k) {a : WriteAttempt} (hcaps : a.capabilities = caps)
    (i : ι) (hphase : (k i).phase = .scalar ∧ a.batch = false ∨ (k i).phase = .batch) :
    RowInv caps row (a :: attempts) (Function.update k i { k i with phase := .idle }) := by
  have hi : (k i).phase ≠ .idle := by
    rcases hphase with ⟨h, -⟩ | h <;> rw [h] <;> decide
  have hidle : ∀ j, (Function.update k i { k i with phase := .idle } j).phase = .idle := by
    intro j
    by_cases hj : j = i
    · subst hj
      rw [Function.update_self]
    · rw [Function.update_of_ne hj]
      by_contra hother
      exact hj (h.owner j i hother hi)
  have hsubset : ∀ j, (Function.update k i { k i with phase := .idle } j).gated = (k j).gated ∧
      (Function.update k i { k i with phase := .idle } j).replaying = (k j).replaying ∧
      (Function.update k i { k i with phase := .idle } j).covered = (k j).covered := by
    intro j
    by_cases hj : j = i
    · subst hj
      rw [Function.update_self]
      exact ⟨rfl, rfl, rfl⟩
    · rw [Function.update_of_ne hj]
      exact ⟨rfl, rfl, rfl⟩
  have hweak : RowInv caps row attempts (Function.update k i { k i with phase := .idle }) :=
    h.weaken (fun j => .inr (hidle j)) (fun j => (hsubset j).1.subset)
      (fun j => (hsubset j).2.1.mp) fun j => (hsubset j).2.2.mp
  refine hweak.attempt hcaps (h.crossed i hi) (fun _ => hidle) (fun r contractId hr hid => ?_)
    (fun _ _ _ j hj => ?_) fun hbatch => ?_
  · rcases hphase with ⟨hscalar, -⟩ | hbatch
    · exact (h.scalar i r hscalar hr).1.symm.trans hid
    · exact (batchIdempotencyContractId_eq ((h.batch i r hbatch hr).1.symm.trans hid)).1
  · rw [hidle j] at hj
    cases hj
  · rcases hphase with ⟨-, hfalse⟩ | hphase
    · rw [hbatch] at hfalse
      cases hfalse
    · obtain ⟨r, hr, -⟩ := h.crossed i hi
      exact ⟨r, hr, (h.batch i r hphase hr).2⟩

/-- The worker learns of the row: it passes a gate, or is armed for a replay. -/
theorem learn (h : RowInv caps row attempts k) (i : ι) {x : KeyGhost}
    (hphase : x.phase = (k i).phase)
    (hgated : ∀ s ∈ x.gated, s ∈ (k i).gated ∨ ∃ r, row = some r ∧ Gated caps s r)
    (hreplaying : x.replaying → (k i).replaying ∨ inReplay row)
    (hcovered : x.covered →
      (k i).covered ∨ inReplay row ∧ ∀ r, row = some r → Matches caps r) :
    RowInv caps row attempts (Function.update k i x) := by
  have hphases : ∀ j, (Function.update k i x j).phase = (k j).phase := by
    intro j
    by_cases hj : j = i
    · subst hj
      rw [Function.update_self, hphase]
    · rw [Function.update_of_ne hj]
  refine ⟨fun a b ha hb => ?_, fun j hj => ?_, fun j hj => ?_, fun j r hj => ?_, fun j r hj => ?_,
    h.unattempted, h.contract, h.batchNamed, fun j hj => ?_, fun j hj => ?_, fun j s hs => ?_⟩
  · rw [hphases] at ha hb
    exact h.owner a b ha hb
  · rw [hphases] at hj
    exact h.crossed j hj
  · rw [hphases] at hj
    exact h.clean j hj
  · rw [hphases] at hj
    exact h.scalar j r hj
  · rw [hphases] at hj
    exact h.batch j r hj
  · by_cases hji : j = i
    · subst hji
      rw [Function.update_self] at hj
      exact (hreplaying hj).elim (h.replaying j) id
    · rw [Function.update_of_ne hji] at hj
      exact h.replaying j hj
  · by_cases hji : j = i
    · subst hji
      rw [Function.update_self] at hj
      exact (hcovered hj).elim (h.covered j) id
    · rw [Function.update_of_ne hji] at hj
      exact h.covered j hj
  · by_cases hji : j = i
    · subst hji
      rw [Function.update_self] at hs
      exact (hgated s hs).elim (h.gated j s) id
    · rw [Function.update_of_ne hji] at hs
      exact h.gated j s hs

end RowInv

/-- The law of an unforced replay: an earlier attempt on its row that may have written was made
under the contract now advertised, and an atomic batch is covered by the connector's guarantee. -/
def ContractSound (later earlier : WriteAttempt) : Prop :=
  later.job.isUnforcedReplay = true → ∀ key, later.records.any (fun r => r.key = key) = true →
    earlier.unproven key = true →
      (∃ contractId, later.capabilities.idempotencyContractId = some contractId ∧
        earlier.capabilities.idempotencyContractId = some contractId) ∧
      (earlier.batch = true → ∃ batch, later.capabilities.atomicBatchWrite = some batch ∧
        batch.perItemIdempotencyAcrossBatchAndScalar = true)

/-- The attempts that may have written the record of an identity. -/
def World.unproven (w : World) (key : DeliveryKey) : List WriteAttempt :=
  w.attempts.filter fun a => a.unproven key

/-- The invariant of the system. -/
structure ContractInv {ι : Type} (w : World) (g : ι → ContractGhost) : Prop where
  caps : ∀ i caps, (g i).caps = some caps → caps = w.capabilities
  rows : ∀ key, RowInv w.capabilities (w.ledger key) (w.unproven key) fun i => (g i).at key
  sound : w.attempts.Pairwise ContractSound

section Preservation

variable {H : Host} {ι : Type} {w : World} {g : ι → ContractGhost} {i : ι}
  {inputs : LedgerInputs} {c : LedgerCall} {job : Job} {caps : ConnectorCapabilities}

/-- The columns a recorded outcome keeps, and where it leads. -/
theorem marks_transition {t : Transition} (hmarks : c.marks = true)
    (ht : c.transition? inputs = some t) :
    t.batchAttempt = .keep ∧ t.idempotencyContract = .keep ∧ t.target.isWriteStarted = false := by
  cases c with
  | claimMany _ _ => cases hmarks
  | rearmForRetry _ _ _ => cases hmarks
  | get _ => cases hmarks
  | startWrite _ _ _ => cases hmarks
  | startReplayWrite _ _ => cases hmarks
  | startWriteMany _ _ => cases hmarks
  | markQuarantined _ reasonCode _ expectedState =>
      rw [LedgerCall.transition?] at ht
      split at ht
      · cases ht
        refine ⟨rfl, rfl, ?_⟩
        rw [quarantinedTransition]
        dsimp only
        split <;> rfl
      · cases ht
  | markQuarantinedMany _ reasonCode expectedState =>
      rw [LedgerCall.transition?] at ht
      split at ht
      · cases ht
        exact ⟨rfl, rfl, rfl⟩
      · cases ht
  | markCommitted _ _ => cases ht; exact ⟨rfl, rfl, rfl⟩
  | markReplayCommitted _ _ => cases ht; exact ⟨rfl, rfl, rfl⟩
  | markCommittedMany _ => cases ht; exact ⟨rfl, rfl, rfl⟩
  | markUncertain _ _ _ => cases ht; exact ⟨rfl, rfl, rfl⟩
  | markReplayUncertain _ _ _ => cases ht; exact ⟨rfl, rfl, rfl⟩
  | markUncertainMany _ _ => cases ht; exact ⟨rfl, rfl, rfl⟩

/-- A row moved by a call that crosses no boundary and quarantines nothing past it. -/
theorem RowInv.move {row row' : Option LedgerRow} {attempts : List WriteAttempt}
    {k : ι → KeyGhost} {key : DeliveryKey} (h : RowInv caps row attempts k)
    (hmove : LedgerCall.RowMove H inputs c key row row')
    (htransition : ∀ t, c.transition? inputs = some t → t.batchAttempt = .keep ∧
      t.idempotencyContract = .keep ∧ t.target.isWriteStarted = false)
    (hquarantine : ∀ t, c.transition? inputs = some t → t.target = .quarantined → inFlight row →
      t.expected.isWriteStarted = true → key ∈ c.keys →
      attempts = [] ∧ ∀ i, (k i).phase = .idle) : RowInv caps row' attempts k := by
  have hclaimed : ∀ r, row = some r → r.state.isUnwritten = true →
      attempts = [] ∧ ∀ i, (k i).phase = .idle := by
    rintro r rfl hr
    have hunwritten : unwritten (some r) := by
      rintro _ ⟨⟩
      exact hr
    exact ⟨h.unattempted hunwritten, h.idle_of_unwritten hunwritten⟩
  cases hmove with
  | same => exact h
  | insert =>
      have hnone : unwritten none := by
        rintro _ ⟨⟩
      refine h.retreat (h.unattempted hnone) (h.idle_of_unwritten hnone) rfl ?_
      rintro _ ⟨⟩
  | @reclaim _ _ _ _ r _ _ _ hstate =>
      have hr : r.state.isUnwritten = true := by rw [hstate]; rfl
      obtain ⟨hempty, hidle⟩ := hclaimed r rfl hr
      refine h.retreat hempty hidle hr ?_
      rintro _ ⟨⟩
      exact .inl hr
  | @rearm _ _ _ instant claimExpiresAt claimToken r _ _ _ hstate hne =>
      by_cases hquarantined : r.state = .quarantined
      · have hr : r.state.isUnwritten = true := by rw [hquarantined]; rfl
        obtain ⟨hempty, hidle⟩ := hclaimed r rfl hr
        refine h.retreat hempty hidle ?_ ?_
        · change (rearmTarget r.state).isUnwritten = true
          rw [hquarantined]
          rfl
        · rintro _ ⟨⟩
          exact .inl hr
      · have htarget : rearmTarget r.state = .replayClaimed := by
          have hcases : ∀ a : DeliveryState, a ≠ .quarantined → rearmTarget a = .replayClaimed := by
            intro a
            cases a <;> decide
          exact hcases _ hquarantined
        have hnew : (rearmedRow instant claimExpiresAt claimToken r).state = .replayClaimed :=
          htarget
        refine h.advance rfl rfl ?_ ?_ fun _ => .inl ?_ <;> rw [hnew] <;> rfl
  | @transition t record claimToken instant r ht hitem hkey happlies =>
      have hstate := applies_state H happlies
      obtain ⟨hbatch, hcontract, hstarted⟩ := htransition t ht
      have hstep := transition?_states ht
      have hcolumns : (t.change instant r).idempotencyContractId = r.idempotencyContractId ∧
          (t.change instant r).currentWriteBatchAttemptId = r.currentWriteBatchAttemptId := by
        rw [Transition.change, hbatch, hcontract]
        exact ⟨rfl, rfl⟩
      cases hunwritten : t.target.isUnwritten with
      | false =>
          refine h.advance hcolumns.1 hcolumns.2 hunwritten hstarted fun hreplay => ?_
          have hcases : ∀ a b : DeliveryState, a.step b = true → a.isReplay = true ∨ a = .committed →
              b.isReplay = true ∨ b = .committed := by
            intro a b
            cases a <;> cases b <;> decide
          exact hcases _ _ hstep (hstate ▸ hreplay)
      | true =>
          have hcases : ∀ a b : DeliveryState, a.step b = true → b.isUnwritten = true →
              a.isUnwritten = true ∨ a.isWriteStarted = true ∧ b = .quarantined := by
            intro a b
            cases a <;> cases b <;> decide
          have hold : r.state.isUnwritten = true ∨ r.state.isWriteStarted = true := by
            rw [hstate]
            exact (hcases _ _ hstep hunwritten).imp id fun h => h.1
          have hfree : attempts = [] ∧ ∀ i, (k i).phase = .idle := by
            rcases hcases _ _ hstep hunwritten with hfirst | ⟨hwrite, hquarantined⟩
            · exact hclaimed r rfl (hstate ▸ hfirst)
            · exact hquarantine t ht hquarantined ⟨r, rfl, hstate ▸ hwrite⟩ hwrite
                (List.mem_map.2 ⟨_, hitem, hkey⟩)
          refine h.retreat hfree.1 hfree.2 hunwritten ?_
          rintro _ ⟨⟩
          exact hold

/-- A call that neither crosses the boundary the first time nor records an outcome. -/
theorem rowInv_still {fails : Prop} {r : Except Exn c.Answer} {s s' : Ledger}
    {attempts : DeliveryKey → List WriteAttempt}
    (h : ∀ key, RowInv caps (s key) (attempts key) fun j => (g j).at key)
    (htransition : ∀ t, c.transition? inputs = some t → t = startReplayWriteTransition)
    (hstep : StoreStep fails (c.exec H inputs) s r s') (key : DeliveryKey) :
    RowInv caps (s' key) (attempts key) fun j => (g j).at key := by
  refine (h key).move (storeStep_rowMove hstep key) (fun t ht => ?_) fun t ht htarget => ?_
  · rw [htransition t ht]
    exact ⟨rfl, rfl, rfl⟩
  · rw [htransition t ht] at htarget
    cases htarget

theorem unproven_cons (w : World) (a : WriteAttempt) (key : DeliveryKey) :
    World.unproven { w with attempts := a :: w.attempts } key =
      if a.unproven key then a :: w.unproven key else w.unproven key :=
  List.filter_cons

theorem contractId_of_scalar {caps : ConnectorCapabilities} {contractId : String}
    (h : scalarIdempotencyContractId caps = some contractId) :
    caps.idempotencyContractId = some contractId := by
  unfold scalarIdempotencyContractId at h
  split at h
  · exact h
  · cases h

/-- An unforced replay's write obeys the law with every earlier attempt. -/
theorem contractSound_write {record : BlindTransportRecord} {a : WriteAttempt}
    (h : ContractInv w g) (hrecords : a.records = [record])
    (hcaps : a.capabilities = w.capabilities)
    (hpre : (g i).phase record.key = .scalar ∨ record.key ∈ (g i).covered)
    {b : WriteAttempt} (hb : b ∈ w.attempts) : ContractSound a b := by
  intro _ key hcovers hunproven
  have hkey : record.key = key := by
    rw [hrecords, List.any_eq_true] at hcovers
    obtain ⟨r, hr, hkey⟩ := hcovers
    rw [List.mem_singleton.1 hr] at hkey
    exact of_decide_eq_true hkey
  subst hkey
  have hrow := h.rows record.key
  have hmem : b ∈ w.unproven record.key := List.mem_filter.2 ⟨hb, hunproven⟩
  have hrecorded : ∃ row, w.ledger record.key = some row ∧ Matches w.capabilities row := by
    rcases hpre with hphase | hcovered
    · have hphase' : ((g i).at record.key).phase = .scalar := hphase
      obtain ⟨row, hr, -⟩ := hrow.crossed i (by rw [hphase']; decide)
      obtain ⟨hcontract, hbatch, hnone⟩ := hrow.scalar i row hphase' hr
      refine ⟨row, hr, ?_, hcontract, fun hsome => ?_⟩
      · cases hid : row.idempotencyContractId with
        | some contractId => rfl
        | none =>
            rw [hnone hid] at hmem
            cases hmem
      · rw [hbatch] at hsome
        cases hsome
    · obtain ⟨⟨row, hr, -⟩, hmatches⟩ := hrow.covered i hcovered
      exact ⟨row, hr, hmatches row hr⟩
  obtain ⟨row, hr, hmatches⟩ := hrecorded
  obtain ⟨contractId, hid⟩ := Option.isSome_iff_exists.1 hmatches.recorded
  rw [hcaps]
  refine ⟨⟨contractId, contractId_of_scalar (hmatches.inForce ▸ hid),
    contractId_of_scalar (hrow.contract row contractId hr hid b hmem)⟩, fun hbatch => ?_⟩
  obtain ⟨row', hr', hnamed⟩ := hrow.batchNamed b hmem hbatch
  rw [hr] at hr'
  cases hr'
  obtain ⟨_, hbatchId⟩ := Option.isSome_iff_exists.1 (hmatches.batch hnamed)
  exact (batchIdempotencyContractId_eq hbatchId).2

variable [DecidableEq ι]

theorem at_update (x : ContractGhost) (key : DeliveryKey) :
    (fun j => (Function.update g i x j).at key) =
      Function.update (fun j => (g j).at key) i (x.at key) := by
  funext j
  by_cases hj : j = i
  · subst hj
    rw [Function.update_self, Function.update_self]
  · rw [Function.update_of_ne hj, Function.update_of_ne hj]

/-- A row just crossed under the capabilities `caps`. -/
def Crossed (caps : ConnectorCapabilities) (row : LedgerRow) : AttemptPhase → Prop
  | .scalar => row.state = .writeStarted ∧
      row.idempotencyContractId = scalarIdempotencyContractId caps ∧
      row.currentWriteBatchAttemptId = none
  | .batch => row.state = .batchWriteStarted ∧
      row.idempotencyContractId = batchIdempotencyContractId caps ∧
      row.currentWriteBatchAttemptId.isSome = true
  | _ => False

theorem Crossed.isWriteStarted {r : LedgerRow} {phase : AttemptPhase} (h : Crossed caps r phase) :
    r.state.isWriteStarted = true := by
  cases phase with
  | scalar => rw [h.1]; rfl
  | batch => rw [h.1]; rfl
  | idle => exact h.elim
  | refused => exact h.elim

/-- A gate passed before a row was claimed again holds after the row crosses anew. -/
theorem Crossed.gated {r r' : LedgerRow} {phase : AttemptPhase} (h : Crossed caps r' phase)
    (hr : r.state.isUnwritten = true) {state : DeliveryState} (hg : Gated caps state r) :
    Gated caps state r' := by
  refine ⟨hg.scalar, hg.batch, fun _ hstate => ?_, fun hs => ?_⟩
  · cases phase with
    | scalar =>
        obtain ⟨-, hcontract, hnone⟩ := h
        refine ⟨hcontract ▸ hg.scalar, hcontract, fun hsome => ?_⟩
        rw [hnone] at hsome
        cases hsome
    | batch =>
        obtain ⟨hnew, hcontract, -⟩ := h
        have hsome := hg.batch (hstate.symm.trans hnew)
        obtain ⟨contractId, hid⟩ := Option.isSome_iff_exists.1 hsome
        refine ⟨hcontract ▸ hsome, ?_, fun _ => hsome⟩
        rw [hcontract, hid, (batchIdempotencyContractId_eq hid).1]
    | idle => exact h.elim
    | refused => exact h.elim
  · have hwritten := (hg.settled hs).1
    rw [hr] at hwritten
    cases hwritten

/-- A call that crosses the write boundary, whether its worker hears of it or not. -/
theorem rowInv_start {phase : AttemptPhase} {fails : Prop} {r : Except Exn c.Answer} {s s' : Ledger}
    {attempts : DeliveryKey → List WriteAttempt} {x : ContractGhost}
    (h : ∀ key, RowInv caps (s key) (attempts key) fun j => (g j).at key)
    (hrecords : c.records = []) (hrearm : ∀ a b d, c ≠ .rearmForRetry a b d)
    {t : Transition} (ht : c.transition? inputs = some t) (hexpected : t.expected = .claimed)
    (hcrossed : ∀ instant row, Crossed caps (t.change instant row) phase)
    (hx : x = if r.isOk then (g i).note c.keys phase else g i)
    (hstep : StoreStep fails (c.exec H inputs) s r s') (key : DeliveryKey) :
    RowInv caps (s' key) (attempts key) fun j => (Function.update g i x j).at key := by
  have hcross : ∀ row instant, row.state = .claimed → s key = some row →
      RowInv caps (some (t.change instant row)) (attempts key) (fun j => (g j).at key) ∧
        attempts key = [] ∧ ∀ j, ((g j).at key).phase = .idle := by
    intro row instant hstate hrow
    have hunwritten : row.state.isUnwritten = true := by rw [hstate]; rfl
    have hkey := h key
    rw [hrow] at hkey
    exact hkey.start hunwritten fun _ => (hcrossed instant row).gated hunwritten
  have hmoved : RowInv caps (s' key) (attempts key) fun j => (g j).at key := by
    have hmove := storeStep_rowMove hstep key
    generalize hold : s key = old at hmove
    generalize s' key = new at hmove
    have hkey := h key
    rw [hold] at hkey
    cases hmove with
    | same => exact hkey
    | insert hmem => rw [hrecords] at hmem; cases hmem
    | reclaim hmem => rw [hrecords] at hmem; cases hmem
    | rearm hc => exact absurd hc (hrearm _ _ _)
    | @transition t' _ _ instant row ht' _ _ happlies =>
        rw [ht] at ht'
        cases ht'
        exact (hcross row instant ((applies_state H happlies).trans hexpected) hold).1
  rw [at_update]
  by_cases hnote : r.isOk = true ∧ key ∈ c.keys
  · obtain ⟨hok, hmem⟩ := hnote
    cases r with
    | error e => cases hok
    | ok a =>
        obtain ⟨item, hitem, rfl⟩ := List.mem_map.1 hmem
        rcases LedgerCall.exec_transition H ht (storeStep_ok hstep) with
          ⟨hnil, -⟩ | ⟨instant, hitems, -⟩
        · rw [hnil] at hitem
          cases hitem
        · obtain ⟨row, hrow, happlies, hnew⟩ := hitems item hitem
          obtain ⟨hstart, hempty, hidle⟩ :=
            hcross row instant ((applies_state H happlies).trans hexpected) hrow
          rw [hnew, hx, if_pos hok, note_at_mem hmem]
          rw [hempty] at hstart ⊢
          have hfacts := hcrossed instant row
          refine hstart.cross hidle hfacts.isWriteStarted i phase ?_ ?_
          · rintro rfl
            exact hfacts.2
          · rintro rfl
            exact hfacts.2
  · have hsame : x.at key = (g i).at key := by
      rw [hx]
      split
      · rename_i hok
        exact note_at_notMem fun hmem => hnote ⟨hok, hmem⟩
      · rfl
    rw [hsame, Function.update_eq_self]
    exact hmoved

/-- A call that records outcomes; a quarantine past the boundary needs its worker's refused
write. -/
theorem rowInv_mark {fails : Prop} {r : Except Exn c.Answer} {s s' : Ledger}
    {attempts : DeliveryKey → List WriteAttempt} {x : ContractGhost}
    (h : ∀ key, RowInv caps (s key) (attempts key) fun j => (g j).at key)
    (hmarks : c.marks = true)
    (hrefused : ∀ t, c.transition? inputs = some t → t.target = .quarantined →
      t.expected.isWriteStarted = true → ∀ item ∈ c.items, (g i).phase item.1.key = .refused)
    (hx : x = (g i).note c.keys .idle)
    (hstep : StoreStep fails (c.exec H inputs) s r s') (key : DeliveryKey) :
    RowInv caps (s' key) (attempts key) fun j => (Function.update g i x j).at key := by
  have hphase : ∀ j, ((Function.update g i x j).at key).phase = ((g j).at key).phase ∨
      ((Function.update g i x j).at key).phase = .idle := by
    intro j
    by_cases hj : j = i
    · subst hj
      rw [Function.update_self, hx]
      by_cases hmem : key ∈ c.keys
      · exact .inr (Phases.assign_mem hmem)
      · exact .inl (Phases.assign_notMem hmem)
    · rw [Function.update_of_ne hj]
      exact .inl rfl
  have hrest : ∀ {β : Type} (f : KeyGhost → β),
      (∀ y : KeyGhost, ∀ p, f { y with phase := p } = f y) →
      ∀ j, f ((Function.update g i x j).at key) = f ((g j).at key) := by
    intro β f hf j
    by_cases hj : j = i
    · subst hj
      rw [Function.update_self, hx]
      exact hf ((g j).at key) _
    · rw [Function.update_of_ne hj]
  refine ((h key).weaken hphase (fun j => ?_) (fun j => ?_) fun j => ?_).move
    (storeStep_rowMove hstep key) (fun t ht => marks_transition hmarks ht)
    fun t ht hquarantined hflight hexpected hmem => ?_
  · rw [hrest KeyGhost.gated fun _ _ => rfl]
  · rw [hrest KeyGhost.replaying fun _ _ => rfl]
    exact id
  · rw [hrest KeyGhost.covered fun _ _ => rfl]
    exact id
  · obtain ⟨item, hitem, rfl⟩ := List.mem_map.1 hmem
    have hown : ((g i).at item.1.key).phase ≠ .idle := by
      change (g i).phase item.1.key ≠ .idle
      rw [hrefused t ht hquarantined hexpected item hitem]
      decide
    refine ⟨(h _).clean i hown hflight, fun j => ?_⟩
    by_cases hj : j = i
    · subst hj
      rw [Function.update_self, hx]
      exact Phases.assign_mem hmem
    · rw [Function.update_of_ne hj]
      by_contra hother
      exact hj ((h _).owner j i hother hown)

/-- A row read by its worker. -/
theorem rowInv_get {fails : Prop} {record : BlindTransportRecord}
    {r : Except Exn (Option LedgerRow)} {s s' : Ledger}
    {attempts : DeliveryKey → List WriteAttempt}
    (hcaps : ∀ caps', (g i).caps = some caps' → caps' = caps)
    (h : ∀ key, RowInv caps (s key) (attempts key) fun j => (g j).at key)
    (hstep : StoreStep fails ((LedgerCall.get record).exec H inputs) s r s') (key : DeliveryKey) :
    RowInv caps (s' key) (attempts key) fun j => (Function.update g i
      ((contractSpec job).next (.ledger (.get record)) (g i) r) j).at key := by
  have hmoved := rowInv_still h (by rintro _ ⟨⟩) hstep key
  have hsame : RowInv caps (s' key) (attempts key) fun j =>
      (Function.update g i (g i) j).at key := by
    rw [Function.update_eq_self]
    exact hmoved
  cases r with
  | error e => exact hsame
  | ok found =>
      cases found with
      | none => exact hsame
      | some row =>
          simp only [contractSpec]
          split
          · rename_i hgates
            obtain ⟨-, hfound⟩ := LedgerCall.get_ok H (storeStep_ok hstep)
            have hread := (LedgerCall.get_ok H (storeStep_ok hstep)).1
            rw [at_update]
            refine hmoved.learn i rfl (fun state hstate => ?_) (fun hr => .inl hr) fun hc => .inl hc
            rcases hstate with hold | hnew
            · exact .inl hold
            · obtain ⟨rfl, rfl⟩ := Prod.mk.inj hnew
              refine .inr ⟨row, by rw [hread, ← hfound], ?_⟩
              rw [ContractGhost.gates, Option.any_eq_true] at hgates
              obtain ⟨caps', hcaps', hpassed⟩ := hgates
              obtain rfl := hcaps caps' hcaps'
              rw [Bool.and_eq_true, decide_eq_true_eq] at hpassed
              exact gated_of_replayContractMatches hpassed.1 hpassed.2
          · exact hsame

/-- A row armed for a retry. -/
theorem rowInv_rearm {fails : Prop} {record : BlindTransportRecord} {expectedState : DeliveryState}
    {leaseFor : Int} {r : Except Exn ClaimResult} {s s' : Ledger}
    {attempts : DeliveryKey → List WriteAttempt}
    (h : ∀ key, RowInv caps (s key) (attempts key) fun j => (g j).at key)
    (hstep : StoreStep fails
      ((LedgerCall.rearmForRetry record expectedState leaseFor).exec H inputs) s r s') :
    (∀ result : ClaimResult, r = .ok result → result.state = rearmTarget expectedState) ∧
    ∀ key, RowInv caps (s' key) (attempts key) fun j => (Function.update g i
      ((contractSpec job).next (.ledger (.rearmForRetry record expectedState leaseFor))
        (g i) r) j).at key := by
  have hmoved := rowInv_still h (by rintro _ ⟨⟩) hstep
  cases r with
  | error e =>
      refine ⟨by rintro _ ⟨⟩, fun key => ?_⟩
      have hnext : (contractSpec job).next
          (.ledger (.rearmForRetry record expectedState leaseFor)) (g i) (.error e) = g i := by
        simp only [contractSpec]
        rw [if_neg]
        rintro ⟨⟨⟩, -⟩
      rw [hnext, Function.update_eq_self]
      exact hmoved key
  | ok result =>
      obtain ⟨-, instant, claimExpiresAt, row', -, houtcome, hs'⟩ :=
        LedgerCall.rearmForRetry_ok H (storeStep_ok hstep)
      obtain ⟨row, hrow, -, -, hstate, rfl, hresult, -, -⟩ :=
        LedgerCall.rearmOutcome_ok H houtcome
      refine ⟨by rintro _ ⟨⟩; exact hresult, fun key => ?_⟩
      simp only [contractSpec]
      split
      · rename_i hreplay
        rw [at_update]
        have hnew : s' record.key =
            some (rearmedRow instant claimExpiresAt (inputs.claimToken 0) row) := by
          rw [hs', Function.update_self]
        have harmed : inReplay (s' record.key) := by
          refine ⟨_, hnew, .inl ?_⟩
          change (rearmTarget row.state).isReplay = true
          rw [hstate, hreplay.2]
          rfl
        refine (hmoved key).learn i rfl (fun state hs => .inl hs) (fun hr => ?_) fun hc => ?_
        · rcases hr with hold | hkey
          · exact .inl hold
          · exact .inr (by rw [show key = record.key from hkey]; exact harmed)
        · rcases hc with hold | ⟨hkey, hgated⟩
          · exact .inl hold
          · have hkey : key = record.key := hkey
            subst hkey
            refine .inr ⟨harmed, ?_⟩
            rw [hnew]
            rintro _ ⟨⟩
            obtain ⟨row₀, hrow₀, hpassed⟩ := (h record.key).gated i expectedState hgated
            rw [hrow] at hrow₀
            cases hrow₀
            have hmatches := hpassed.matches hstate
            exact ⟨hmatches.recorded, hmatches.inForce, hmatches.batch⟩
      · rw [Function.update_eq_self]
        exact hmoved key

/-- One ledger call of a worker that meets its obligation. -/
theorem rowInv_ledger {fails : Prop} {r : Except Exn c.Answer} {s s' : Ledger}
    {attempts : DeliveryKey → List WriteAttempt}
    (hcaps : ∀ caps', (g i).caps = some caps' → caps' = caps)
    (h : ∀ key, RowInv caps (s key) (attempts key) fun j => (g j).at key)
    (hpre : (contractSpec job).pre (.ledger c) (g i))
    (hstep : StoreStep fails (c.exec H inputs) s r s') :
    (contractSpec job).allowed (.ledger c) (g i) r ∧
      ∀ key, RowInv caps (s' key) (attempts key) fun j => (Function.update g i
        ((contractSpec job).next (.ledger c) (g i) r) j).at key := by
  have hmark : c.marks = true →
      (∀ t, c.transition? inputs = some t → t.target = .quarantined →
        t.expected.isWriteStarted = true → ∀ item ∈ c.items,
          (g i).phase item.1.key = .refused) →
      (contractSpec job).next (.ledger c) (g i) r = (g i).note c.keys .idle →
      ∀ key, RowInv caps (s' key) (attempts key) fun j => (Function.update g i
        ((contractSpec job).next (.ledger c) (g i) r) j).at key :=
    fun hmarks hrefused hnext => rowInv_mark h hmarks hrefused hnext hstep
  have hstill : (∀ t, c.transition? inputs = some t → t = startReplayWriteTransition) →
      (contractSpec job).next (.ledger c) (g i) r = g i →
      ∀ key, RowInv caps (s' key) (attempts key) fun j => (Function.update g i
        ((contractSpec job).next (.ledger c) (g i) r) j).at key := by
    intro htransition hnext key
    rw [hnext, Function.update_eq_self]
    exact rowInv_still h htransition hstep key
  cases c with
  | claimMany records leaseFor => exact ⟨trivial, hstill (by rintro _ ⟨⟩) rfl⟩
  | startReplayWrite record claimToken =>
      exact ⟨trivial, hstill (by rintro _ ⟨⟩; rfl) rfl⟩
  | get record => exact ⟨trivial, rowInv_get hcaps h hstep⟩
  | rearmForRetry record expectedState leaseFor => exact rowInv_rearm h hstep
  | startWrite record claimToken contractId =>
      obtain ⟨caps', hcaps', rfl⟩ := hpre
      obtain rfl := hcaps caps' hcaps'
      exact ⟨trivial, (@rowInv_start _ _ _ _ _ _ _ _ .scalar) h rfl (by rintro _ _ _ ⟨⟩) rfl rfl
        (fun _ _ => ⟨rfl, rfl, rfl⟩) rfl hstep⟩
  | startWriteMany items contractId =>
      obtain ⟨caps', hcaps', rfl⟩ := hpre
      obtain rfl := hcaps caps' hcaps'
      exact ⟨trivial, (@rowInv_start _ _ _ _ _ _ _ _ .batch) h rfl (by rintro _ _ _ ⟨⟩) rfl rfl
        (fun _ _ => ⟨rfl, rfl, rfl⟩) rfl hstep⟩
  | markCommitted record claimToken => exact ⟨trivial, hmark rfl (by rintro _ ⟨⟩ ⟨⟩) rfl⟩
  | markReplayCommitted record claimToken => exact ⟨trivial, hmark rfl (by rintro _ ⟨⟩ ⟨⟩) rfl⟩
  | markCommittedMany items => exact ⟨trivial, hmark rfl (by rintro _ ⟨⟩ ⟨⟩) rfl⟩
  | markUncertain record reasonCode claimToken =>
      exact ⟨trivial, hmark rfl (by rintro _ ⟨⟩ ⟨⟩) rfl⟩
  | markReplayUncertain record reasonCode claimToken =>
      exact ⟨trivial, hmark rfl (by rintro _ ⟨⟩ ⟨⟩) rfl⟩
  | markUncertainMany items reasonCode => exact ⟨trivial, hmark rfl (by rintro _ ⟨⟩ ⟨⟩) rfl⟩
  | markQuarantined record reasonCode claimToken expectedState =>
      refine ⟨trivial, hmark rfl ?_ rfl⟩
      intro t ht _ hstarted item hitem
      rw [List.mem_singleton.1 hitem]
      rw [LedgerCall.transition?] at ht
      split at ht
      · rename_i hmem
        cases ht
        exact hpre (quarantineStates_started _ hmem hstarted)
      · cases ht
  | markQuarantinedMany items reasonCode expectedState =>
      refine ⟨trivial, hmark rfl ?_ rfl⟩
      intro t ht _ hstarted item hitem
      rw [LedgerCall.transition?] at ht
      split at ht
      · rename_i hmem
        cases ht
        exact hpre (batchQuarantineStates_started _ hmem hstarted) item hitem
      · cases ht

theorem ContractInv.caps_update (h : ContractInv w g) {x : ContractGhost}
    (hx : x.caps = (g i).caps) (j : ι) (caps : ConnectorCapabilities)
    (hj : (Function.update g i x j).caps = some caps) : caps = w.capabilities := by
  by_cases hji : j = i
  · subst hji
    rw [Function.update_self, hx] at hj
    exact h.caps j caps hj
  · rw [Function.update_of_ne hji] at hj
    exact h.caps j caps hj

/-- A worker that is done or gone forgets what it knew. -/
theorem ContractInv.forget (h : ContractInv w g) (i : ι) :
    ContractInv w (Function.update g i (.fresh none)) := by
  refine ⟨fun j caps hj => ?_, fun key => ?_, h.sound⟩
  · by_cases hji : j = i
    · subst hji
      rw [Function.update_self] at hj
      cases hj
    · rw [Function.update_of_ne hji] at hj
      exact h.caps j caps hj
  · refine (h.rows key).weaken (fun j => ?_) (fun j => ?_) (fun j => ?_) fun j => ?_ <;>
      by_cases hji : j = i
    · subst hji
      rw [Function.update_self]
      exact .inr rfl
    · rw [Function.update_of_ne hji]
      exact .inl rfl
    · subst hji
      rw [Function.update_self]
      exact Set.empty_subset _
    · rw [Function.update_of_ne hji]
    · subst hji
      rw [Function.update_self]
      exact False.elim
    · rw [Function.update_of_ne hji]
      exact id
    · subst hji
      rw [Function.update_self]
      exact False.elim
    · rw [Function.update_of_ne hji]
      exact id

/-- A write of the worker's own first writes. -/
theorem rowInv_wrote {records : List BlindTransportRecord} {a : WriteAttempt}
    (h : ContractInv w g) (hrecords : a.records = records) (hcaps : a.capabilities = w.capabilities)
    (hphase : ∀ record ∈ records, (g i).phase record.key = .scalar ∧ a.batch = false ∨
      (g i).phase record.key = .batch) (key : DeliveryKey) :
    RowInv w.capabilities (w.ledger key) (World.unproven { w with attempts := a :: w.attempts } key)
      fun j => (Function.update g i
        ((g i).wrote (records.map BlindTransportRecord.key) a.outcome) j).at key := by
  rw [unproven_cons, at_update]
  have hunproven : a.unproven key =
      (records.any (fun r => r.key = key) && !provenNotCommitted a.outcome) := by
    rw [WriteAttempt.unproven, hrecords]
  by_cases hmem : key ∈ records.map BlindTransportRecord.key
  · obtain ⟨record, hrecord, rfl⟩ := List.mem_map.1 hmem
    have hcovers : records.any (fun r => r.key = record.key) = true :=
      List.any_eq_true.2 ⟨record, hrecord, decide_eq_true rfl⟩
    have hown : ((g i).at record.key).phase = .scalar ∧ a.batch = false ∨
        ((g i).at record.key).phase = .batch := hphase record hrecord
    rw [hunproven, hcovers, Bool.true_and, ContractGhost.wrote, note_at_mem hmem]
    cases hproven : provenNotCommitted a.outcome with
    | true =>
        refine (h.rows record.key).refuse i ?_
        rcases hown with ⟨h, -⟩ | h <;> rw [h] <;> decide
    | false => exact (h.rows record.key).wrote hcaps i hown
  · have hcovers : records.any (fun r => r.key = key) = false := by
      rw [List.any_eq_false]
      intro record hrecord hkey
      exact hmem (List.mem_map.2 ⟨record, hrecord, of_decide_eq_true hkey⟩)
    rw [hunproven, hcovers, Bool.false_and, if_neg Bool.false_ne_true, ContractGhost.wrote,
      note_at_notMem hmem, Function.update_eq_self]
    exact h.rows key

/-- A replayed write under the recorded contract, or with nothing recorded and no other worker. -/
theorem rowInv_replayed {record : BlindTransportRecord} {a : WriteAttempt}
    (h : ContractInv w g) (hrecords : a.records = [record])
    (hcaps : a.capabilities = w.capabilities) (hbatch : a.batch = false)
    (hphase : (g i).phase record.key ≠ .scalar) (hreplaying : record.key ∈ (g i).replaying)
    (hcontract : record.key ∈ (g i).covered ∨ (provenNotCommitted a.outcome = false →
      ∀ row, w.ledger record.key = some row → row.state.isReplay = true ∨ row.state = .committed →
        (∃ contractId, row.idempotencyContractId = some contractId ∧
          scalarIdempotencyContractId w.capabilities = some contractId) ∨
        row.idempotencyContractId = none ∧ ∀ j, j ≠ i → g j = .fresh none)) (key : DeliveryKey) :
    RowInv w.capabilities (w.ledger key) (World.unproven { w with attempts := a :: w.attempts } key)
      fun j => (g j).at key := by
  rw [unproven_cons]
  cases hunproven : a.unproven key with
  | false => exact h.rows key
  | true =>
      have hkey : record.key = key ∧ provenNotCommitted a.outcome = false := by
        rw [WriteAttempt.unproven, hrecords, Bool.and_eq_true, Bool.not_eq_true',
          List.any_eq_true] at hunproven
        obtain ⟨⟨r, hr, hkey⟩, hproven⟩ := hunproven
        rw [List.mem_singleton.1 hr] at hkey
        exact ⟨of_decide_eq_true hkey, hproven⟩
      obtain ⟨rfl, hproven⟩ := hkey
      have hrow := h.rows record.key
      obtain ⟨r₀, hr₀, hreplay⟩ := hrow.replaying i hreplaying
      have hnot : ∀ a : DeliveryState, a.isReplay = true ∨ a = .committed →
          a.isUnwritten = false ∧ a.isWriteStarted = false := by
        intro a
        cases a <;> decide
      have hin : ∀ r, w.ledger record.key = some r →
          (∃ contractId, r.idempotencyContractId = some contractId ∧
            scalarIdempotencyContractId w.capabilities = some contractId) ∨
          r.idempotencyContractId = none ∧ ∀ j, j ≠ i → g j = .fresh none := by
        intro r hr
        rcases hcontract with hcovered | hcontract
        · have hmatches := (hrow.covered i hcovered).2 r hr
          obtain ⟨contractId, hid⟩ := Option.isSome_iff_exists.1 hmatches.recorded
          exact .inl ⟨contractId, hid, hmatches.inForce ▸ hid⟩
        · rw [hr₀] at hr
          cases hr
          exact hcontract hproven r₀ hr₀ hreplay
      refine hrow.attempt hcaps ⟨r₀, hr₀, (hnot _ hreplay).1⟩ ?_ ?_ ?_ ?_
      · rintro ⟨r, hr, hflight⟩
        rw [hr₀] at hr
        cases hr
        rw [(hnot _ hreplay).2] at hflight
        cases hflight
      · intro r contractId hr hid
        rcases hin r hr with ⟨contractId', hid', hscalar⟩ | ⟨hnone, -⟩
        · rw [hid] at hid'
          cases hid'
          exact hscalar
        · rw [hnone] at hid
          cases hid
      · intro r hr hnone j hj
        rcases hin r hr with ⟨contractId', hid', -⟩ | ⟨-, hothers⟩
        · rw [hnone] at hid'
          cases hid'
        · by_cases hji : j = i
          · subst hji
            exact hphase hj
          · rw [hothers j hji] at hj
            cases hj
      · intro hb
        rw [hbatch] at hb
        cases hb

end Preservation

/-! ## The system -/

/-- A connector whose capabilities change between calls, workers that crash, stores that may
fail. -/
def changingEnvironment (spool : SpoolConfig) (storesFail : Prop) : Environment where
  spool := spool
  advertised w caps := caps = w.capabilities
  storesFail := storesFail
  mayCrash := True
  quiet w w' := ∃ caps, w' = { w with capabilities := caps }

/-- A forced replay that may have written did so under the contract its row records, or under none
recorded while no other call was in progress. -/
def forcedUnderContract {ι : Type} :
    StepCondition Op Op.Res Exn World ι {_job : Job // True} (List DeliveryReceipt) :=
  fun c i op =>
    match op with
    | .writeRecords record _ _ => fun r => ∀ job p, c.worker i = some (job, p) →
        job.1.isForcedReplay = true → provenNotCommitted r = false →
        ∀ row, c.shared.ledger record.key = some row →
          row.state.isReplay = true ∨ row.state = .committed →
          (∃ contractId, row.idempotencyContractId = some contractId ∧
            scalarIdempotencyContractId c.shared.capabilities = some contractId) ∨
          row.idempotencyContractId = none ∧ ∀ j, j ≠ i → c.worker j = none
    | _ => fun _ => True

theorem contract_next_caps (job : Job) (op : Op) (g : ContractGhost) (r : Except Exn op.Res) :
    ((contractSpec job).next op g r).caps = g.caps := by
  cases op with
  | ledger c =>
      cases c with
      | startWrite _ _ _ => simp only [contractSpec]; split <;> rfl
      | startWriteMany _ _ => simp only [contractSpec]; split <;> rfl
      | rearmForRetry _ _ _ => simp only [contractSpec]; split <;> rfl
      | get record =>
          simp only [contractSpec]
          split
          · split <;> rfl
          · rfl
      | _ => rfl
  | writeRecords _ _ _ => simp only [contractSpec]; split <;> rfl
  | _ => rfl

theorem contract_preserves {ι : Type} [DecidableEq ι] (H : Host) (spool : SpoolConfig)
    (storesFail : Prop) (rt : ι → DestinationRuntime) :
    contractProtocol.Preserves
      (runtimeSystem H (changingEnvironment spool storesFail) rt fun _ => True)
      forcedUnderContract ContractInv where
  body i job x hx := by
    obtain ⟨caps, rfl⟩ := hx
    exact contract_body job.1
  start {w g} i job h hidle := by
    refine ⟨.fresh (some w.capabilities), ⟨_, rfl⟩, fun j caps hj => ?_, fun key => ?_, h.sound⟩
    · by_cases hji : j = i
      · subst hji
        rw [Function.update_self] at hj
        cases hj
        rfl
      · rw [Function.update_of_ne hji] at hj
        exact h.caps j caps hj
    · rw [at_update]
      have hsame : (ContractGhost.fresh (some w.capabilities)).at key = (g i).at key := by
        rw [hidle]
        rfl
      rw [hsame, Function.update_eq_self]
      exact h.rows key
  finish i job h _ := h.forget i
  crash i _ h := h.forget i
  quiet h hquiet := by
    obtain ⟨caps, rfl⟩ := hquiet
    exact ⟨by rintro _ _ ⟨⟩, fun key => (h.rows key).recast (fun _ => rfl) (fun _ => rfl)
      fun _ hcovered => hcovered.elim, h.sound⟩
  call {c g i job op k r s'} hc hworker hpre hcond hexec := by
    have h : ContractInv c.shared g := hc.inv
    have hsame : ContractInv c.shared (Function.update g i (g i)) := by
      rw [Function.update_eq_self]
      exact h
    cases hexec with
    | capabilities hcaps =>
        refine ⟨fun caps hr caps' hcaps' => ?_, hsame⟩
        exact (h.caps i caps' hcaps').trans (hcaps caps hr).symm
    | authorizeRecord => exact ⟨trivial, hsame⟩
    | authorizeCapability => exact ⟨trivial, hsame⟩
    | openRecord => exact ⟨trivial, hsame⟩
    | resolveForeignKey => exact ⟨trivial, hsame⟩
    | quarantine => exact ⟨trivial, ⟨hsame.caps, hsame.rows, hsame.sound⟩⟩
    | spoolGet => exact ⟨trivial, ⟨hsame.caps, hsame.rows, hsame.sound⟩⟩
    | remove => exact ⟨trivial, ⟨hsame.caps, hsame.rows, hsame.sound⟩⟩
    | ledger call inputs hstep =>
        obtain ⟨hallowed, hrows⟩ := rowInv_ledger (h.caps i) h.rows hpre hstep
        exact ⟨hallowed, h.caps_update (contract_next_caps job.1 _ (g i) _), hrows, h.sound⟩
    | writeRecords record values context r =>
        refine ⟨trivial, h.caps_update
          (contract_next_caps job.1 (.writeRecords record values context) (g i) r),
          fun key => ?_, ?_⟩
        · simp only [contractProtocol, contractSpec]
          split
          · rename_i hphase
            refine (@rowInv_wrote _ _ _ _ _ [record]) h rfl rfl (fun r hr => ?_) key
            rw [List.mem_singleton.1 hr]
            exact .inl ⟨hphase, rfl⟩
          · rename_i hphase
            obtain ⟨hreplaying, hcovered⟩ := hpre.resolve_left hphase
            rw [Function.update_eq_self]
            refine rowInv_replayed h rfl rfl rfl hphase hreplaying ?_ key
            cases hforced : job.1.isForcedReplay with
            | false => exact .inl (hcovered hforced)
            | true =>
                refine .inr fun hproven row hrow hstate => ?_
                refine (hcond job _ hworker hforced hproven row hrow hstate).imp id ?_
                rintro ⟨hnone, hothers⟩
                refine ⟨hnone, fun j hj => ?_⟩
                have hlocal := hc.worker j
                rwa [hothers j hj] at hlocal
        · refine List.pairwise_cons.2 ⟨fun b hb hunforced => ?_, h.sound⟩
          have hforced : job.1.isForcedReplay = false := by
            cases hjob : job.1 with
            | replay _ forceUncertain =>
                rw [hjob] at hunforced
                simpa [Job.isUnforcedReplay, Job.isForcedReplay] using hunforced
            | _ => rfl
          refine contractSound_write (i := i) h rfl rfl ?_ hb hunforced
          exact hpre.imp id fun hreplay => hreplay.2 hforced
    | writeBatch items r =>
        refine ⟨trivial, h.caps_update (contract_next_caps job.1 (.writeBatch items) (g i) r),
          fun key => ?_, ?_⟩
        · have hkeys : (items.map fun item => item.1.key) =
              (items.map Prod.fst).map BlindTransportRecord.key := by
            rw [List.map_map]
            rfl
          change RowInv _ _ _ fun j => (Function.update g i
            ((g i).wrote (items.map fun item => item.1.key) r) j).at key
          rw [hkeys]
          refine rowInv_wrote h rfl rfl (fun record hrecord => ?_) key
          obtain ⟨item, hitem, rfl⟩ := List.mem_map.1 hrecord
          exact .inr (hpre.2 item hitem)
        · refine List.pairwise_cons.2 ⟨fun b hb hunforced => ?_, h.sound⟩
          rw [hpre.1] at hunforced
          cases hunforced

/-- **Automatic replays rely only on the contract of the earlier writes, when forced replays keep
to it.** Workers, crashes, failing stores, capabilities that change between calls: in every run
whose forced replays write under the contract their row records, an unforced replay writes only
under the contract of every earlier attempt on its row that may have written. -/
theorem replay_contract_sound {ι : Type} [DecidableEq ι] (H : Host) (spool : SpoolConfig)
    (storesFail : Prop) (rt : ι → DestinationRuntime) (capabilities : ConnectorCapabilities)
    {c : Config Op Op.Res Exn World ι {_job : Job // True} (List DeliveryReceipt)}
    (hc : (runtimeSystem H (changingEnvironment spool storesFail) rt fun _ => True).Reaches
      forcedUnderContract (System.initial { capabilities := capabilities }) c) :
    c.shared.attempts.Pairwise ContractSound := by
  have hinitial : ContractInv { capabilities := capabilities }
      (fun _ : ι => ContractGhost.fresh none) :=
    ⟨by rintro _ _ ⟨⟩, fun _ => RowInv.absent, List.Pairwise.nil⟩
  obtain ⟨g, hg⟩ := Protocol.reaches_coherent (contract_preserves H spool storesFail rt) hinitial hc
  exact hg.inv.sound

/-! ## A replay under the contract of the first write only -/

namespace Sample

/-- A connector whose writes are idempotent under a contract. -/
def idempotent (contractId : String) : ConnectorCapabilities :=
  { writeRecords := true, supportsIdempotency := true, idempotencyContractId := some contractId }

theorem validContract (contractId : String)
    (h : idempotencyContractIdOk standardHost contractId = true) :
    validateOptionalContractId standardHost
      (scalarIdempotencyContractId (idempotent contractId)) = .ok () := by
  change validateIdempotencyContractId standardHost contractId = .ok ()
  rw [validateIdempotencyContractId, if_pos h]
  rfl

theorem orders_ok : idempotencyContractIdOk standardHost "orders" = true := by
  decide

theorem billing_ok : idempotencyContractIdOk standardHost "billing" = true := by
  decide

/-- One worker without and one with a capability authorizer. -/
noncomputable def runtimes (i : Bool) : DestinationRuntime :=
  if i then runtime standardHost else guarded standardHost

noncomputable def changingSystem :
    System Op Op.Res Exn World Bool {_job : Job // True} (List DeliveryReceipt) :=
  runtimeSystem standardHost (changingEnvironment (spool standardHost) False) runtimes
    fun _ => True

/-- The session before the first delivery. -/
def contracted : Session := { world := { capabilities := idempotent "orders" } }

/-- A first delivery whose outcome stays unknown. -/
noncomputable def unknownFirst :
    FirstDelivery standardHost (services (.error (.other "timeout"))) (runtime standardHost)
      (record standardHost) payload contracted :=
  firstDelivery standardHost (.error (.other "timeout")) contracted rfl rfl
    (validContract "orders" orders_ok)

/-- The replay of the sample. -/
noncomputable def replayJob (force : Bool) : Job :=
  .replay ((record standardHost).digest standardHost) force

variable {cond : StepCondition Op Op.Res Exn World Bool {_job : Job // True}
  (List DeliveryReceipt)}

theorem reaches_opened
    (hcond : ∀ c p op r, c.worker true = some (⟨job, trivial⟩, p) → cond c true op r) :
    changingSystem.Reaches cond (System.initial contracted.world)
      ⟨(unknownFirst.uncertain job (.other "timeout")).world, fun _ => none⟩ := by
  have hsteps := @FirstDelivery.steps_uncertain _ _ _ _ _ _ (spool standardHost) job _ unknownFirst
    tolerates_anyCall _ (admitted rfl) rfl rfl
  exact (@Services.reaches_job _ _ _ _ (changingEnvironment (spool standardHost) False) runtimes _ _
      _ (fun _ => none) true (idempotent "orders"))
    (fun _ h => h.symm) ⟨job, trivial⟩ (fun c p op r hw _ => hcond c p op r hw) rfl rfl
    (steps_bind hsteps)

/-- A replay under the contract `contractId`, forced or under the recorded contract. -/
theorem reaches_replayed {s : Session} {contractId : String} {force : Bool}
    (h : LeftUncertain standardHost (record standardHost) (some "orders") s)
    (hcaps : s.world.capabilities = idempotent contractId)
    (hvalid : idempotencyContractIdOk standardHost contractId = true)
    (hgate : force = true ∨ contractId = "orders")
    (hcond : ∀ c p op r, c.worker false = some (⟨replayJob force, trivial⟩, p) →
      cond c false op r) :
    ∃ s' : Session, changingSystem.Reaches cond ⟨s.world, fun _ => none⟩
        ⟨s'.world, fun _ => none⟩ ∧
      LeftUncertain standardHost (record standardHost) (some "orders") s' ∧
      s'.world.capabilities = idempotent contractId ∧
      s'.world.attempts = ⟨replayJob force, [record standardHost], false, idempotent contractId,
        .error (.other "timeout")⟩ :: s.world.attempts := by
  have hadvertised : validateOptionalContractId standardHost
      (scalarIdempotencyContractId s.world.capabilities) = .ok () :=
    hcaps ▸ validContract contractId hvalid
  have hgate' : force = true ∨ ∃ id, some "orders" = some id ∧
      scalarIdempotencyContractId s.world.capabilities = some id := by
    refine hgate.imp id fun hid => ⟨"orders", rfl, ?_⟩
    rw [hcaps, hid]
    rfl
  obtain ⟨receipt, s', hsteps, hafter, hcaps', hattempts⟩ := (@steps_replay_unknown _
      (replayJob force) _ _ (.other "timeout")) tolerates_anyCall h
    (validContract "orders" orders_ok) (by rw [hcaps]; rfl) hadvertised force hgate' rfl
  refine ⟨s', ?_, hafter, hcaps'.trans hcaps, by rw [hattempts, hcaps]⟩
  exact (@Services.reaches_job _ _ _ _ (changingEnvironment (spool standardHost) False) runtimes _ _
      _ (fun _ => none) false (idempotent contractId))
    (fun _ h => h.symm) ⟨replayJob force, trivial⟩ (fun c p op r hw _ => hcond c p op r hw) rfl
    hcaps (steps_bind hsteps)

/-- While all workers are idle, the connector may come to advertise another contract. -/
theorem reaches_advertise (w : World) (contractId : String) :
    changingSystem.Reaches cond ⟨w, fun _ => none⟩
      ⟨{ w with capabilities := idempotent contractId }, fun _ => none⟩ :=
  .single (.quiet (fun _ => rfl) ⟨_, rfl⟩)

/-- The condition on forced replays holds of every other job. -/
theorem forcedUnderContract_of_unforced {c : Config Op Op.Res Exn World Bool {_job : Job // True}
      (List DeliveryReceipt)} {i : Bool} {job : {_job : Job // True}}
    {p : RuntimeM (List DeliveryReceipt)} (hw : c.worker i = some (job, p))
    (hjob : job.1.isForcedReplay = false) (op : Op) (r : Except Exn op.Res) :
    forcedUnderContract c i op r := by
  cases op with
  | writeRecords record values context =>
      intro job' p' hw' hforced
      rw [hw] at hw'
      cases hw'
      rw [hjob] at hforced
      cases hforced
  | _ => trivial

end Sample

/-- A delivery of unknown outcome and its replay under the same contract. -/
theorem replay_contract_sound_orders :
    ∃ later earlier : WriteAttempt, later.job = Sample.replayJob false ∧
      earlier.job = Sample.job ∧ ContractSound later earlier := by
  obtain ⟨s', hreaches, -, -, hattempts⟩ := @Sample.reaches_replayed
    forcedUnderContract _ "orders" false
    (Sample.unknownFirst.leftUncertain Sample.job (.other "timeout")) rfl Sample.orders_ok (.inr rfl)
    fun _ _ op r hw => Sample.forcedUnderContract_of_unforced hw rfl op r
  have hsound := replay_contract_sound standardHost (Sample.spool standardHost) False
    Sample.runtimes (Sample.idempotent "orders")
    ((Sample.reaches_opened
      fun _ _ op r hw => Sample.forcedUnderContract_of_unforced hw rfl op r).trans hreaches)
  change List.Pairwise ContractSound s'.world.attempts at hsound
  rw [hattempts] at hsound
  exact ⟨_, _, rfl, rfl, (List.pairwise_cons.1 hsound).1 _ (List.mem_cons_self ..)⟩

/-- A forced replay under another contract leaves the recorded contract behind: a later replay
relies on it although the forced one may have written. -/
theorem forced_replay_breaks_contract :
    ¬∀ c : Config Op Op.Res Exn World Bool {_job : Job // True} (List DeliveryReceipt),
      Sample.changingSystem.Reaches anyStep
        (System.initial { capabilities := Sample.idempotent "orders" }) c →
      c.shared.attempts.Pairwise ContractSound := by
  intro hsound
  have hanyStep (i : Bool) (job : {_job : Job // True}) (c : Config Op Op.Res Exn World Bool
      {_job : Job // True} (List DeliveryReceipt)) (p : RuntimeM (List DeliveryReceipt)) (op : Op)
      (r : Except Exn op.Res) (_ : c.worker i = some (job, p)) : anyStep c i op r := trivial
  have hopen := Sample.unknownFirst.leftUncertain Sample.job (.other "timeout")
  obtain ⟨forced, hforced, hafter, -, hattempts⟩ := (@Sample.reaches_replayed anyStep _ _ true)
      (hopen.advertise (Sample.idempotent "billing")) rfl Sample.billing_ok
    (.inl rfl) (hanyStep _ _)
  obtain ⟨replayed, hreplayed, -, -, hattempts'⟩ := (@Sample.reaches_replayed anyStep _ _ false)
      (hafter.advertise (Sample.idempotent "orders")) rfl Sample.orders_ok
    (.inr rfl) (hanyStep _ _)
  have hpairwise := hsound _ ((Sample.reaches_opened (hanyStep _ _)).trans
    ((Sample.reaches_advertise _ _).trans (hforced.trans
      ((Sample.reaches_advertise _ _).trans hreplayed))))
  change List.Pairwise ContractSound replayed.world.attempts at hpairwise
  rw [hattempts'] at hpairwise
  have hpair := (List.pairwise_cons.1 hpairwise).1
    ⟨Sample.replayJob true, [Sample.record standardHost], false, Sample.idempotent "billing",
      .error (.other "timeout")⟩ (hattempts ▸ List.mem_cons_self ..)
  have hkey : [Sample.record standardHost].any
      (fun r => r.key = (Sample.record standardHost).key) = true := by simp
  obtain ⟨⟨contractId, hlater, hearlier⟩, -⟩ := hpair rfl (Sample.record standardHost).key hkey
    (by rw [WriteAttempt.unproven, hkey]; rfl)
  have hsame : "orders" = "billing" := Option.some.inj (hlater.trans hearlier.symm)
  exact absurd hsame (by decide)

end Polymorph
