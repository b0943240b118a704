import Polymorph.Delivery.FreshDelivery

/-!
# Replaying a sealed record

The run of `replay` on a record whose last write may have taken effect, against a connector that
leaves the outcome unknown once more: the row keeps the contract of the first write, whatever the
connector advertises at the replay.
-/

set_option autoImplicit false

namespace Polymorph

open Concurrency Prog DeliveryLedger DestinationRuntime Transaction

/-- A row whose last scalar write may have taken effect, with the record sealed. -/
structure LeftUncertain (H : Host) (record : BlindTransportRecord) (contractId : Option String)
    (s : Session) : Prop where
  row : ∃ row, s.world.ledger record.key = some row ∧ row.recordDigest = record.digest H ∧
    row.planDigest = record.planDigest ∧
    (row.state = .uncertain ∨ row.state = .replayUncertain) ∧
    row.idempotencyContractId = contractId ∧ row.currentWriteBatchAttemptId = none
  entry : ∃ reasonCode instant, s.world.spool (record.digest H) =
    some (SealedSpool.rowOf record reasonCode instant record.canonicalWire)

/-- What an environment may do between jobs keeps rows and entries. -/
theorem LeftUncertain.advertise {H : Host} {record : BlindTransportRecord}
    {contractId : Option String} {s : Session} (h : LeftUncertain H record contractId s)
    (caps : ConnectorCapabilities) :
    LeftUncertain H record contractId { s with world := { s.world with capabilities := caps } } :=
  ⟨h.row, h.entry⟩

theorem FirstDelivery.leftUncertain {H : Host} {S : Services} {rt : DestinationRuntime}
    {record : BlindTransportRecord} {payload : Payload} {s : Session}
    (h : FirstDelivery H S rt record payload s) (job : Job) (e : Exn) :
    LeftUncertain H record (scalarIdempotencyContractId s.world.capabilities)
      (h.uncertain job e) where
  row := by
    have hrow := ((h.started.wrote job record payload (deliveryContext H record) (.error e)).sealed
      S H record "write_outcome_unknown").moved_row S record h.claim.uncertainTransition
      h.startedRow
    exact ⟨_, hrow, rfl, rfl, .inl rfl, rfl, rfl⟩
  entry := ⟨_, _, h.uncertain_entry job e⟩

/-- The capabilities cover the write that a row records under the contract `contractId`. -/
theorem replayContractMatches_of_eq {row : LedgerRow} {caps : ConnectorCapabilities}
    {contractId : String} (hid : row.idempotencyContractId = some contractId)
    (hcaps : scalarIdempotencyContractId caps = some contractId)
    (hstate : row.state = .uncertain ∨ row.state = .replayUncertain)
    (hbatch : row.currentWriteBatchAttemptId = none) : replayContractMatches row caps = true := by
  have hscalar : decide (row.state ∈ batchAmbiguousWriteStates) = false := by
    rcases hstate with h | h <;> rw [h] <;> decide
  rw [replayContractMatches, hid, hcaps, hscalar, hbatch]
  simp

theorem batchAttemptFromRow_scalar {row : LedgerRow}
    (hstate : row.state = .uncertain ∨ row.state = .replayUncertain)
    (hbatch : row.currentWriteBatchAttemptId = none) : batchAttemptFromRow row = .ok none := by
  rw [batchAttemptFromRow, hbatch]
  rcases hstate with h | h <;> rw [h] <;> rfl

theorem idempotencyContractFromRow_valid {H : Host} {row : LedgerRow}
    (h : validateOptionalContractId H row.idempotencyContractId = .ok ()) :
    idempotencyContractFromRow H row = .ok row.idempotencyContractId := by
  unfold idempotencyContractFromRow
  cases hid : row.idempotencyContractId with
  | none => rfl
  | some contractId =>
      rw [hid, validateOptionalContractId, validateIdempotencyContractId] at h
      split at h
      · rename_i hok
        simp only [hok, if_true]
        rfl
      · cases h

/-- Reading a row. -/
theorem get_of_row {H : Host} {record : BlindTransportRecord} {row : LedgerRow} {ledger : Ledger}
    (hrow : ledger record.key = some row)
    (hstate : row.state = .uncertain ∨ row.state = .replayUncertain)
    (hcontract : validateOptionalContractId H row.idempotencyContractId = .ok ())
    (hbatch : row.currentWriteBatchAttemptId = none) :
    DeliveryLedger.get H record ledger = .ok (some row) ledger := by
  unfold DeliveryLedger.get
  rw [Transaction.bind_apply, selectRow_apply, hrow]
  simp only [batchAttemptFromRow_scalar hstate hbatch, idempotencyContractFromRow_valid hcontract]
  rfl

/-- Arming a retry of an uncertain row. -/
theorem rearmForRetry_of_row {H : Host} {record : BlindTransportRecord} {row : LedgerRow}
    {ledger : Ledger} {instant claimExpiresAt : Utc.Instant} {claimToken : String}
    {leaseFor : Int} (hrow : ledger record.key = some row)
    (hdigest : row.recordDigest = record.digest H) (hplan : row.planDigest = record.planDigest)
    (hstate : row.state = .uncertain ∨ row.state = .replayUncertain)
    (hcontract : validateOptionalContractId H row.idempotencyContractId = .ok ())
    (hbatch : row.currentWriteBatchAttemptId = none)
    (hlease : validateLeaseDuration leaseFor = .ok ())
    (hexpiry : expiry instant leaseFor = .ok claimExpiresAt) :
    rearmForRetry H (.ok (.aware instant)) claimToken record row.state leaseFor ledger =
      .ok ⟨.recovered, .replayClaimed, record.digest H, some claimToken, some claimExpiresAt, none⟩
        (Function.update ledger record.key
          (some (rearmedRow instant claimExpiresAt claimToken row))) := by
  have hopen : row.state ≠ .committed ∧ row.state ∉ [DeliveryState.claimed, .replayClaimed] ∧
      rearmTarget row.state = .replayClaimed := by
    rcases hstate with h | h <;> rw [h] <;> decide
  have houtcome : rearmOutcome H instant claimExpiresAt claimToken record row.state
      (ledger record.key) =
      .ok (⟨.recovered, .replayClaimed, record.digest H, some claimToken, some claimExpiresAt,
        none⟩, rearmedRow instant claimExpiresAt claimToken row) := by
    rw [hrow, rearmOutcome, if_neg (by simp [hdigest, hplan]), if_neg fun h => hopen.2.1 h.1,
      batchAttemptFromRow_scalar hstate hbatch, idempotencyContractFromRow_valid hcontract]
    simp only [hopen.2.2]
  have hrecord : rearmRecord H instant claimExpiresAt claimToken record row.state ledger =
      .ok ⟨.recovered, .replayClaimed, record.digest H, some claimToken, some claimExpiresAt, none⟩
        (Function.update ledger record.key
          (some (rearmedRow instant claimExpiresAt claimToken row))) := by
    rw [rearmRecord_apply, houtcome]
  unfold rearmForRetry
  rw [if_neg hopen.1]
  dsimp only
  rw [lift_ok_bind hlease,
    lift_ok_bind (show now (.ok (.aware instant)) = .ok instant from rfl), lift_ok_bind hexpiry]
  exact transaction_of_ok hrecord

namespace Sample

/-- The sample's runtime with a capability authorizer. -/
def guarded (H : Host) : DestinationRuntime := { runtime H with authorizer := true }

theorem opened_unauthorized (H : Host) (outcome : Except Exn (Option Int)) {c : ClaimedDelivery}
    (hc : c.authorizedPrivateKey = none) :
    (services outcome).toAgent.Returns H (openClaimed (record H) c) (.ok payload) := by
  intro S hS P hP spool job s
  have hkey : S.answer H spool job (.authorizeRecord (record H)) s = (.ok [], s) := by
    rw [Services.answer, show S.authorizeRecord = (services outcome).authorizeRecord from
      congrArg Agent.authorizeRecord hS]
    rfl
  have hpayload : S.answer H spool job (.openRecord (record H) []) s = (.ok payload, s) := by
    rw [Services.answer, show S.openRecord = (services outcome).openRecord from
      congrArg Agent.openRecord hS]
    rfl
  unfold openClaimed
  rw [hc]
  exact (steps_call (hP _ _ rfl) hkey).trans (steps_perform (hP _ _ rfl) hpayload)

section Replay

variable {H : Host} {job : Job} {s : Session} {contractId : Option String} {e : Exn}
  {P : (op : Op) → Except Exn op.Res → Prop} (hP : Tolerates P)

include hP

/-- The replay of a row that was read, past its gate. -/
theorem steps_rearmAndDeliver {row : LedgerRow}
    (hrow : s.world.ledger (record H).key = some row)
    (hdigest : row.recordDigest = (record H).digest H)
    (hplan : row.planDigest = (record H).planDigest)
    (hstate : row.state = .uncertain ∨ row.state = .replayUncertain)
    (hcontract : validateOptionalContractId H row.idempotencyContractId = .ok ())
    (hbatch : row.currentWriteBatchAttemptId = none)
    (hadmitted : SealedSpool.Admitted H (spool H) s.world.spool (record H))
    (hadvertised : validateOptionalContractId H
      (scalarIdempotencyContractId s.world.capabilities) = .ok ())
    (he : e.provesNotCommitted = false) :
    ∃ r s', (services (.error e)).Steps H (spool H) job P
        ((guarded H).rearmAndDeliver H (record H) row s.world.capabilities) s (pure r) s' ∧
      LeftUncertain H (record H) row.idempotencyContractId s' ∧
      s'.world.capabilities = s.world.capabilities ∧
      s'.world.attempts =
        ⟨job, [record H], false, s.world.capabilities, .error e⟩ :: s.world.attempts := by
  let c : ClaimedDelivery :=
    { claimToken := "token", replayAttempt := true
      historicalIdempotencyContractId := row.idempotencyContractId
      authorizedCapabilities := s.world.capabilities }
  let rearmed := rearmedRow instant expiresAt "token" row
  let s₁ := s.withLedger (Function.update s.world.ledger (record H).key (some rearmed))
  have hrearm : (LedgerCall.rearmForRetry (record H) row.state (guarded H).claimLease).exec H
      ((services (.error e)).inputs s.storeCalls) s.world.ledger =
      .ok ⟨.recovered, .replayClaimed, (record H).digest H, some "token", some expiresAt, none⟩
        (Function.update s.world.ledger (record H).key (some rearmed)) :=
    rearmForRetry_of_row hrow hdigest hplan hstate hcontract hbatch (by rfl) expiry_instant
  have hfenced : rearmed.Fenced H (record H) .replayClaimed "token" := by
    refine ⟨hdigest, hplan, ?_, rfl⟩
    change rearmTarget row.state = _
    rcases hstate with h | h <;> rw [h] <;> rfl
  have hlive : rearmed.LiveAt instant := ⟨expiresAt, rfl, by decide⟩
  have hrearmed : s₁.world.ledger (record H).key = some rearmed :=
    s.withLedger_row s.world.ledger (record H).key rearmed
  have hdeliver := @steps_deliverClaimed_write _ (spool H) (services (.error e)) job s₁ _ c _ _ hP
    (guarded H) _
    (checked_opened H (.error e) true (opened_unauthorized H (.error e) (c := c) rfl)) rfl
    validateClaimToken_token hadvertised hrearmed hfenced hlive
  let s₂ := s₁.moved (services (.error e)) (record H) c.startTransition rearmed
  have hstarted : s₂.world.ledger (record H).key =
      some (c.startTransition.change instant rearmed) := Session.moved_row ..
  let s₃ := s₂.wrote job (record H) payload (deliveryContext H (record H)) (.error e)
  have hunknown := @steps_writeOutcomeUnknown _ (spool H) (services (.error e)) job s₃ _ c _ _ hP
    hadmitted validateClaimToken_token hstarted
    (fenced_change hfenced)
  refine ⟨receipt H (record H) .quarantined (some "write_outcome_unknown") c.writeRetrySafe
    c.batchAttemptId, _, ?_, ⟨⟨_, (s₃.sealed (services (.error e)) H (record H)
    "write_outcome_unknown").moved_row (services (.error e)) (record H) c.uncertainTransition
    (c.startTransition.change instant rearmed), hdigest, hplan, .inr rfl, rfl, hbatch⟩,
    ⟨_, _, s₃.sealed_entry (services (.error e)) H (record H) "write_outcome_unknown"⟩⟩, rfl, rfl⟩
  unfold rearmAndDeliver
  refine (steps_call (hP.ledger _ _) (answer_ledger hrearm)).trans ?_
  refine hdeliver.trans ((steps_writeScalar_unknown hP rfl he).trans hunknown)

/-- A replay of the sample that passes its gate and whose write is left open again. -/
theorem steps_replay_unknown (h : LeftUncertain H (record H) contractId s)
    (hcontract : validateOptionalContractId H contractId = .ok ())
    (hwrite : s.world.capabilities.writeRecords = true)
    (hadvertised : validateOptionalContractId H
      (scalarIdempotencyContractId s.world.capabilities) = .ok ())
    (force : Bool)
    (hgate : force = true ∨ ∃ id, contractId = some id ∧
      scalarIdempotencyContractId s.world.capabilities = some id)
    (he : e.provesNotCommitted = false) :
    ∃ r s', (services (.error e)).Steps H (spool H) job P
        ((guarded H).replay H ((record H).digest H) force) s (pure r) s' ∧
      LeftUncertain H (record H) contractId s' ∧
      s'.world.capabilities = s.world.capabilities ∧
      s'.world.attempts =
        ⟨job, [record H], false, s.world.capabilities, .error e⟩ :: s.world.attempts := by
  obtain ⟨row, hrow, hdigest, hplan, hstate, rfl, hbatch⟩ := h.row
  obtain ⟨reasonCode, instant', hentry⟩ := h.entry
  let s₁ := (s.withSpool s.world.spool).withLedger s.world.ledger
  have hadmitted : SealedSpool.Admitted H (spool H) s₁.world.spool (record H) := by
    refine ⟨withinLimits H, fun entry h => ?_⟩
    rw [show s₁.world.spool = s.world.spool from rfl, hentry] at h
    cases h
    exact ⟨reasonCode, instant', rfl⟩
  obtain ⟨r, s', hsteps, hafter⟩ := (@steps_rearmAndDeliver _ job s₁) hP hrow hdigest
    hplan hstate hcontract hbatch hadmitted hadvertised he
  refine ⟨r, s', ?_, hafter⟩
  have hread : (services (.error e)).answer H (spool H) job .capabilities s =
      (.ok s.world.capabilities, s) := rfl
  have hcapability (operation : CapabilityOperation) (s : Session) :
      (services (.error e)).Steps H (spool H) job P
        ((guarded H).authorizeCapability operation (record H)) s (pure ()) s :=
    steps_authorizeCapability hP rfl
  have hgates : ((decide (row.state ∈ ambiguousOrGuardedStates) &&
      !replayContractMatches row s.world.capabilities && !force) = true) = False := by
    rcases hgate with rfl | ⟨id, hid, hcaps⟩
    · simp
    · simp [replayContractMatches_of_eq hid hcaps hstate hbatch]
  have hforce : requiresForce force row = force := by
    cases force with
    | false => rfl
    | true => rcases hstate with h | h <;> rw [requiresForce, h] <;> rfl
  have hnot : row.state ≠ .committed ∧ row.state ≠ .claimed := by
    rcases hstate with h | h <;> rw [h] <;> decide
  have hreplayRow : (services (.error e)).Steps H (spool H) job P
      ((guarded H).replayRow H force ((record H).digest H) (record H) row s.world.capabilities) s₁
      (pure r) s' := by
    unfold replayRow
    rw [if_neg hnot.1, if_neg (hgates ▸ id), if_neg (fun h => hnot.2 h.1), hforce]
    cases force with
    | false => exact hsteps
    | true => exact (steps_bind (hcapability .forceUncertainReplay s₁)).trans hsteps
  unfold replay
  refine (steps_call (hP.silent _ _ rfl) hread).trans ?_
  rw [if_neg (by rw [hwrite]; decide)]
  refine (steps_call (hP.spoolGet _ _) (answer_spoolGet
    (SealedSpool.getRecord_sealed (withinLimits H) hentry))).trans ?_
  refine (steps_bind (hcapability .replay _)).trans ?_
  have hget : (LedgerCall.get (record H)).exec H
      ((services (.error e)).inputs (s.withSpool s.world.spool).storeCalls)
      (s.withSpool s.world.spool).world.ledger = .ok (some row) s.world.ledger :=
    get_of_row hrow hstate hcontract hbatch
  exact (steps_call (hP.ledger (.get (record H)) (some row)) (answer_ledger hget)).trans hreplayRow

end Replay

end Sample

end Polymorph
