import Polymorph.Delivery.LedgerProvenance
import Polymorph.Delivery.FreshDelivery
import Polymorph.Delivery.SpoolSpec

/-!
# False quarantine alarms

Spool entries of committed records. The ghost of a worker holds the records it has claimed, the
identities for which it has crossed the write boundary, the entries it has sealed and still
reconciles, and the digests it is about to remove. `AlarmInv` says that every entry of a committed
row is still some worker's duty. A worker that seals an ambiguous claim takes on no duty, so the
invariant survives only when the row is not yet committed, or another worker's cleanup is ahead.
-/

set_option autoImplicit false

namespace Polymorph

open Concurrency Prog Transaction DeliveryLedger DestinationRuntime

/-- The reason codes of a sealed ambiguous claim. -/
def ambiguousReasons : List String :=
  ["previous_write_started_ambiguous", "previous_delivery_ambiguous"]

theorem ambiguousReason_mem (state : DeliveryState) : ambiguousReason state ∈ ambiguousReasons := by
  unfold ambiguousReason
  split <;> simp [ambiguousReasons]

theorem beforeWriteReasons_notAmbiguous {reasonCode : String}
    (h : reasonCode ∈ beforeWriteReasons) : reasonCode ∉ ambiguousReasons := by
  revert reasonCode
  decide

/-- The calls that cross the write boundary for the first time. -/
def LedgerCall.starts : LedgerCall → Bool
  | .startWrite _ _ _ | .startWriteMany _ _ => true
  | _ => false

/-- The digest and the identity under which a record is sealed. -/
def BlindTransportRecord.entry (H : Host) (record : BlindTransportRecord) :
    String × DeliveryKey := (record.digest H, record.key)

/-- What a worker has claimed and crossed, and what it owes the spool. -/
structure SpoolDuty where
  known : Set BlindTransportRecord
  crossed : Set DeliveryKey
  pending : Set (String × DeliveryKey)
  removing : Set String

namespace SpoolDuty

/-- Nothing claimed and nothing owed. -/
def empty : SpoolDuty := ⟨∅, ∅, ∅, ∅⟩

variable (H : Host)

/-- The sealed record is still to be reconciled, or its row is the worker's own write. -/
def Owes (g : SpoolDuty) (record : BlindTransportRecord) : Prop :=
  record.entry H ∈ g.pending ∨ record.key ∈ g.crossed

/-- The identities of a call crossed. -/
def cross (g : SpoolDuty) (c : LedgerCall) : SpoolDuty :=
  { g with crossed := g.crossed ∪ {key | key ∈ c.keys} }

/-- The outcome of the rows of a call recorded; a commit leaves their digests to be removed. -/
def settle (g : SpoolDuty) (c : LedgerCall) : SpoolDuty :=
  { g with
    crossed := g.crossed \ {key | key ∈ c.keys}
    pending := g.pending \ {entry | ∃ item ∈ c.items, entry = item.1.entry H}
    removing :=
      if c.commits then g.removing ∪ {d | ∃ item ∈ c.items, d = item.1.digest H}
      else g.removing }

/-- The row of a sealed record read back. -/
def reconcile (g : SpoolDuty) (record : BlindTransportRecord) (row : Option LedgerRow) :
    SpoolDuty :=
  { g with
    pending := g.pending \ {record.entry H}
    removing :=
      if row.any (fun row => row.state = .committed) then g.removing ∪ {record.digest H}
      else g.removing }

/-- Records sealed outside the worker's own writes. -/
def addSealed (g : SpoolDuty) (records : List BlindTransportRecord) : SpoolDuty :=
  { g with
    pending := g.pending ∪
      {entry | ∃ record ∈ records, record.key ∉ g.crossed ∧ entry = record.entry H} }

end SpoolDuty

/-- The store calls on which a reconciliation depends do not fail: a read and a removal return, and
a fenced mark returns or refuses with `IntegrityError`. -/
def Op.answers : (op : Op) → Except Exn op.Res → Prop
  | .remove _, r => r.isOk = true
  | .ledger (.get _), r => r.isOk = true
  | .ledger (.markQuarantined _ _ _ _), r => ∀ e, r = .error e → e.isIntegrityError = true
  | _, _ => True

/-- The protocol of one worker that never replays. -/
def falseAlarmSpec (H : Host) : Spec Op Op.Res Exn SpoolDuty where
  pre
    | .quarantine records _, g => ∀ r ∈ records, r ∈ g.known
    | .remove digests, g => ∀ d ∈ digests, d ∈ g.removing
    | .ledger (.get record), g => g.Owes H record
    | .ledger (.rearmForRetry _ _ _), _ => False
    | .ledger (.startReplayWrite _ _), _ => False
    | .ledger (.markQuarantined record _ _ expectedState), g =>
        (expectedState = .claimed → g.Owes H record) ∧
          (expectedState ≠ .claimed → record.key ∈ g.crossed)
    | .ledger c, g => c.marks = true → ∀ item ∈ c.items, item.1.key ∈ g.crossed
    | _, _ => True
  allowed op _ r := op.answers r
  next
    | .quarantine records reasonCode, g, r =>
        if r.isOk = true ∧ reasonCode ∉ ambiguousReasons then g.addSealed H records else g
    | .remove digests, g, _ => { g with removing := g.removing \ {d | d ∈ digests} }
    | .ledger (.claimMany records _), g, r =>
        if r.isOk then { g with known := g.known ∪ {record | record ∈ records} } else g
    | .ledger (.get record), g, r =>
        match r with
        | .ok row => g.reconcile H record row
        | .error _ => g
    | .ledger c, g, r =>
        if r.isOk = false then g
        else if c.starts then g.cross c
        else if c.marks then g.settle H c
        else g
    | _, g, _ => g

/-- Between the steps of a job that has claimed `K`: nothing is owed. -/
structure Settled (_ : ConnectorCapabilities) (K : List BlindTransportRecord) (g : SpoolDuty) :
    Prop where
  known : ∀ r ∈ K, r ∈ g.known
  pending : g.pending = ∅
  removing : g.removing = ∅

/-- The ghost protocol: a finished job owes nothing. -/
def falseAlarmProtocol (H : Host) {J : Type} : Protocol Op Op.Res Exn J SpoolDuty where
  spec _ := falseAlarmSpec H
  idle := .empty
  begin _ g := g = .empty
  done _ g := g.pending = ∅ ∧ g.removing = ∅

/-! ## The programs follow the protocol -/

section Programs

variable {H : Host} {g : SpoolDuty} {caps : ConnectorCapabilities}
  {K : List BlindTransportRecord} {record : BlindTransportRecord}

theorem falseAlarm_silent : Silent (falseAlarmSpec H) where
  pre op g hop := by
    cases op with
    | capabilities => trivial
    | authorizeRecord _ => trivial
    | authorizeCapability _ _ => trivial
    | openRecord _ _ => trivial
    | resolveForeignKey _ _ _ => trivial
    | _ => cases hop
  next op g r hop := by
    cases op with
    | capabilities => rfl
    | authorizeRecord _ => rfl
    | authorizeCapability _ _ => rfl
    | openRecord _ _ => rfl
    | resolveForeignKey _ _ _ => rfl
    | _ => cases hop

/-- Sealing one's own writes takes on no duty. -/
theorem Settled.addSealed {records : List BlindTransportRecord} (hg : Settled caps K g)
    (hcrossed : ∀ r ∈ records, r.key ∈ g.crossed) : Settled caps K (g.addSealed H records) := by
  refine ⟨hg.known, ?_, hg.removing⟩
  change g.pending ∪ _ = ∅
  rw [hg.pending, Set.empty_union, Set.eq_empty_iff_forall_notMem]
  rintro entry ⟨r, hr, hnot, -⟩
  exact hnot (hcrossed r hr)

theorem Settled.next_quarantine {records : List BlindTransportRecord} {reasonCode : String}
    {r : Except Exn Unit} (hg : Settled caps K g)
    (hcrossed : ∀ r ∈ records, r.key ∈ g.crossed) :
    Settled caps K ((falseAlarmSpec H).next (.quarantine records reasonCode) g r) := by
  simp only [falseAlarmSpec]
  split
  · exact hg.addSealed hcrossed
  · exact hg

theorem crossed_next_quarantine {records : List BlindTransportRecord} {reasonCode : String}
    {r : Except Exn Unit} :
    ((falseAlarmSpec H).next (.quarantine records reasonCode) g r).crossed = g.crossed := by
  simp only [falseAlarmSpec]
  split <;> rfl

/-- An outcome that is not a commit settles its rows and leaves nothing to remove. -/
theorem Settled.settle {c : LedgerCall} (hg : Settled caps K g) (hcommits : c.commits = false) :
    Settled caps K (g.settle H c) := by
  refine ⟨hg.known, ?_, ?_⟩
  · change g.pending \ _ = ∅
    rw [hg.pending, Set.empty_sdiff]
  · change (if c.commits then _ else g.removing) = ∅
    rw [hcommits, if_neg Bool.false_ne_true, hg.removing]

/-- After a commit the removal of the committed digests settles the job. -/
theorem Settled.commit_remove {c : LedgerCall} {digests : List String} (hg : Settled caps K g)
    (hcommits : c.commits = true) (hdigests : digests = c.items.map fun item => item.1.digest H) :
    (∀ d ∈ digests, d ∈ (g.settle H c).removing) ∧
      Settled caps K
        { g.settle H c with removing := (g.settle H c).removing \ {d | d ∈ digests} } := by
  have hremoving : (g.settle H c).removing = {d | ∃ item ∈ c.items, d = item.1.digest H} := by
    change (if c.commits then _ else g.removing) = _
    rw [hcommits, if_pos rfl, hg.removing, Set.empty_union]
  have hmem : ∀ d, d ∈ digests ↔ ∃ item ∈ c.items, d = item.1.digest H := by
    intro d
    rw [hdigests, List.mem_map]
    constructor
    · rintro ⟨item, hitem, rfl⟩
      exact ⟨item, hitem, rfl⟩
    · rintro ⟨item, hitem, rfl⟩
      exact ⟨item, hitem, rfl⟩
  refine ⟨fun d hd => hremoving ▸ (hmem d).1 hd, hg.known, ?_, ?_⟩
  · change g.pending \ _ = ∅
    rw [hg.pending, Set.empty_sdiff]
  · change (g.settle H c).removing \ _ = ∅
    rw [hremoving, Set.sdiff_eq_empty]
    exact fun d hd => (hmem d).2 hd

theorem keeps_quarantineBeforeWrite_settled {reasonCode claimToken : String}
    {batchAttemptId : Option String} {retrySafe : Bool}
    (hreason : reasonCode ∈ beforeWriteReasons) (hrecord : record ∈ K) (hg : Settled caps K g) :
    Keeps (falseAlarmSpec H) (Settled caps K)
      (quarantineBeforeWrite H record reasonCode claimToken .claimed batchAttemptId retrySafe)
      g := by
  have hnot := beforeWriteReasons_notAmbiguous hreason
  refine keeps_call (fun r hr => List.mem_singleton.1 hr ▸ hg.known record hrecord)
    (fun _ _ => ?_) fun e _ => ?_
  · -- Sealed: from here on at most this record is owed.
    have hseal : (falseAlarmSpec H).next (.quarantine [record] reasonCode) g (.ok ()) =
        g.addSealed H [record] := if_pos ⟨rfl, hnot⟩
    rw [hseal]
    have howes : (g.addSealed H [record]).Owes H record := by
      by_cases hcrossed : record.key ∈ g.crossed
      · exact .inr hcrossed
      · exact .inl (.inr ⟨record, List.mem_singleton.2 rfl, hcrossed, rfl⟩)
    have hpending : (g.addSealed H [record]).pending \ {record.entry H} = ∅ := by
      change (g.pending ∪ _) \ _ = ∅
      rw [hg.pending, Set.empty_union, Set.sdiff_eq_empty]
      rintro entry ⟨r, hr, -, rfl⟩
      rw [List.mem_singleton.1 hr]
      rfl
    refine keeps_attempt_call ⟨fun _ => howes, fun h => absurd rfl h⟩ fun r hr => ?_
    split
    · refine keeps_pure ⟨hg.known, ?_, hg.removing⟩
      change (g.addSealed H [record]).pending \ _ = ∅
      rw [Set.sdiff_eq_empty] at hpending ⊢
      exact fun entry hentry => ⟨_, List.mem_singleton.2 rfl, hpending hentry⟩
    · refine keeps_attempt_call howes fun r' hr' => ?_
      cases r' with
      | error e => cases hr'
      | ok found =>
          have hreconciled : ∀ row, (∀ r, row = some r → r.state ≠ .committed) →
              Settled caps K ((g.addSealed H [record]).reconcile H record row) := by
            intro row hrow
            refine ⟨hg.known, hpending, ?_⟩
            change (if row.any _ then _ else g.removing) = ∅
            rw [if_neg, hg.removing]
            rw [Option.any_eq_true]
            rintro ⟨r, hr, hstate⟩
            exact hrow r hr (of_decide_eq_true hstate)
          cases found with
          | none => exact keeps_pure (hreconciled none fun r hr => nomatch hr)
          | some row =>
              dsimp only
              split
              · rename_i hcommitted
                have hremoving : ((g.addSealed H [record]).reconcile H record (some row)).removing =
                    {record.digest H} := by
                  change (if (some row).any _ then g.removing ∪ _ else _) = _
                  rw [if_pos (by simpa using hcommitted), hg.removing, Set.empty_union]
                refine keeps_attempt_call (fun d hd => ?_) fun r'' _ => ?_
                · exact hremoving ▸ List.mem_singleton.1 hd
                · have hdone : Settled caps K ((falseAlarmSpec H).next (.remove [record.digest H])
                      ((g.addSealed H [record]).reconcile H record (some row)) r'') := by
                    refine ⟨hg.known, hpending, ?_⟩
                    change _ \ _ = ∅
                    rw [hremoving, Set.sdiff_eq_empty]
                    exact fun d hd => List.mem_singleton.2 hd
                  split
                  · exact keeps_pure hdone
                  · exact keeps_pure hdone
              · rename_i hcommitted
                refine keeps_pure (hreconciled _ ?_)
                rintro _ ⟨⟩
                exact hcommitted
    · rename_i e hne
      have hintegrity : Exn.isIntegrityError e = true := hr e rfl
      cases e with
      | integrityError message => exact absurd rfl (hne message)
      | _ => cases hintegrity
  · exact hg

/-- A call that records an outcome and is not a commit, past the boundary. -/
theorem keeps_mark_settled {c : LedgerCall} (hg : Settled caps K g)
    (hpre : (falseAlarmSpec H).pre (.ledger c) g)
    (hnext : ∀ r, (falseAlarmSpec H).next (.ledger c) g r =
      if r.isOk = false then g else g.settle H c) (hcommits : c.commits = false) :
    Keeps (falseAlarmSpec H) (Settled caps K) (ledgerCall c) g := by
  refine keeps_ledgerCall hpre fun r _ => ?_
  rw [hnext]
  split
  · exact hg
  · exact hg.settle hcommits

theorem keeps_writeScalar_settled {c : ClaimedDelivery} {payload : Payload}
    (hrecord : record ∈ K) (hreplay : c.replayAttempt = false) (hcrossed : record.key ∈ g.crossed)
    (hg : Settled caps K g) :
    Keeps (falseAlarmSpec H) (Settled caps K) (writeScalar H record c payload) g := by
  have hmem : ∀ r ∈ [record], r ∈ g.known := fun r hr =>
    List.mem_singleton.1 hr ▸ hg.known record hrecord
  have hown : ∀ r ∈ [record], r.key ∈ g.crossed := fun r hr =>
    List.mem_singleton.1 hr ▸ hcrossed
  have hmark : ∀ {call : LedgerCall} {g' : SpoolDuty}, Settled caps K g' →
      (falseAlarmSpec H).pre (.ledger call) g' →
      (∀ r, (falseAlarmSpec H).next (.ledger call) g' r =
        if r.isOk = false then g' else g'.settle H call) → call.commits = false →
      ∀ r : DeliveryReceipt, Keeps (falseAlarmSpec H) (Settled caps K)
        (ledgerCall call >>= fun _ => pure r) g' := fun hg' hpre hnext hcommits r =>
    keeps_bind (keeps_mark_settled hg' hpre hnext hcommits) (fun _ _ hg' => keeps_pure hg')
      fun _ hg' => hg'
  have hunknown : Keeps (falseAlarmSpec H) (Settled caps K) (writeOutcomeUnknown H record c) g := by
    refine keeps_call hmem (fun a _ => ?_) fun _ _ => hg.next_quarantine hown
    have hown' : record.key ∈ ((falseAlarmSpec H).next
        (.quarantine [record] "write_outcome_unknown") g (.ok a)).crossed := by
      rw [crossed_next_quarantine]
      exact hcrossed
    rw [ClaimedDelivery.uncertainCall, hreplay, if_neg Bool.false_ne_true]
    refine hmark (hg.next_quarantine hown) ?_ (fun _ => rfl) rfl _
    intro _ item hitem
    rw [List.mem_singleton.1 hitem]
    exact hown'
  refine keeps_attempt_call trivial fun r _ => ?_
  cases r with
  | ok written =>
      dsimp only
      split
      · unfold writeAcknowledged
        rw [ClaimedDelivery.committedCall, hreplay, if_neg Bool.false_ne_true]
        refine keeps_attempt_ledgerCall (fun _ item hitem => ?_) (fun _ _ => ?_) fun _ _ => ?_
        · rw [List.mem_singleton.1 hitem]
          exact hcrossed
        · obtain ⟨hpre, hdone⟩ := @Settled.commit_remove H _ _ _
            (.markCommitted record c.claimToken) [record.digest H] hg rfl rfl
          refine keeps_attempt_call hpre fun r' _ => ?_
          split
          · exact keeps_pure hdone
          · exact keeps_pure hdone
        · exact keeps_call hmem (fun _ _ => keeps_pure (hg.next_quarantine hown))
            fun _ _ => hg.next_quarantine hown
      · exact hunknown
  | error e =>
      dsimp only
      split
      · refine keeps_call hmem (fun a _ => ?_) fun _ _ => hg.next_quarantine hown
        have hown' : record.key ∈ ((falseAlarmSpec H).next
            (.quarantine [record] "write_not_committed") g (.ok a)).crossed := by
          rw [crossed_next_quarantine]
          exact hcrossed
        have hstate : c.writeStartedState = .writeStarted := by
          rw [ClaimedDelivery.writeStartedState, hreplay, if_neg Bool.false_ne_true]
        rw [hstate]
        refine hmark (hg.next_quarantine hown) ?_ (fun _ => rfl) rfl _
        exact ⟨by rintro ⟨⟩, fun _ => hown'⟩
      · exact hunknown

theorem keeps_crossAndWrite_settled {c : ClaimedDelivery} {payload : Payload}
    (hrecord : record ∈ K) (hreplay : c.replayAttempt = false) (hg : Settled caps K g) :
    Keeps (falseAlarmSpec H) (Settled caps K) (crossAndWrite H record c payload) g := by
  unfold crossAndWrite
  rw [ClaimedDelivery.startCall, hreplay, if_neg Bool.false_ne_true]
  refine keeps_attempt_ledgerCall (by intro h; cases h) (fun a _ => ?_) fun e _ => ?_
  · refine keeps_writeScalar_settled hrecord hreplay ?_ ⟨hg.known, hg.pending, hg.removing⟩
    exact .inr (List.mem_singleton.2 rfl)
  · split
    · exact keeps_pure hg
    · exact keeps_raise hg
    · rename_i h
      cases h

theorem keeps_crossAndWriteBatch_settled {prepared : List PreparedItem} {receipts : Receipts}
    (hprepared : ∀ p ∈ prepared, p.record ∈ K) (hg : Settled caps K g) :
    Keeps (falseAlarmSpec H) (Settled caps K) (crossAndWriteBatch H prepared caps receipts) g := by
  refine keeps_attempt_call (fun h => nomatch h) fun started _ => ?_
  split
  · exact keeps_pure hg
  · exact keeps_pure hg
  · rename_i batchAttemptId _
    generalize hg₁eq : (falseAlarmSpec H).next _ g (.ok batchAttemptId) = g₁
    have hg₁ : Settled caps K g₁ := by
      subst hg₁eq
      exact ⟨hg.known, hg.pending, hg.removing⟩
    have hitems : ∀ item ∈ transitions prepared, item.1.key ∈ g₁.crossed := by
      subst hg₁eq
      intro item hitem
      have hkey : item.1.key ∈ (LedgerCall.startWriteMany (transitions prepared)
          (batchIdempotencyContractId caps)).keys := List.mem_map.2 ⟨item, hitem, rfl⟩
      exact .inr hkey
    have hmem : ∀ r ∈ prepared.map PreparedItem.record, r ∈ g₁.known := by
      intro r hr
      obtain ⟨p, hp, rfl⟩ := List.mem_map.1 hr
      exact hg₁.known _ (hprepared p hp)
    have hown : ∀ r ∈ prepared.map PreparedItem.record, r.key ∈ g₁.crossed := by
      intro r hr
      obtain ⟨p, hp, rfl⟩ := List.mem_map.1 hr
      exact hitems _ (List.mem_map.2 ⟨p, hp, rfl⟩)
    have houtcome : ∀ {reasonCode : String} {mark : LedgerCall},
        (∀ g', (∀ item ∈ transitions prepared, item.1.key ∈ g'.crossed) →
          (falseAlarmSpec H).pre (.ledger mark) g') →
        (∀ g' r, (falseAlarmSpec H).next (.ledger mark) g' r =
          if r.isOk = false then g' else g'.settle H mark) → mark.commits = false →
        Keeps (falseAlarmSpec H) (Settled caps K)
          (recordBatchOutcome prepared reasonCode mark) g₁ := by
      intro reasonCode mark hpre hnext hcommits
      refine keeps_call hmem (fun _ _ => ?_) fun _ _ => hg₁.next_quarantine hown
      refine keeps_mark_settled (hg₁.next_quarantine hown) (hpre _ ?_) (hnext _) hcommits
      rw [crossed_next_quarantine]
      exact hitems
    refine keeps_attempt_call trivial fun written _ => ?_
    split
    · unfold batchNotAcknowledged
      split
      · refine keeps_attempt_bind (houtcome (fun _ h _ => h) (fun _ _ => rfl) rfl)
          fun r _ hg' => ?_
        split
        · exact keeps_pure hg'
        · exact keeps_pure hg'
      · refine keeps_attempt_bind (houtcome (fun _ h _ => h) (fun _ _ => rfl) rfl)
          fun r _ hg' => ?_
        split
        · exact keeps_pure hg'
        · exact keeps_pure hg'
    · unfold batchAcknowledged
      refine keeps_attempt_ledgerCall (fun _ => hitems) (fun _ _ => ?_) fun _ _ => ?_
      · have hdigests : (prepared.map fun p => p.record.digest H) =
            (LedgerCall.markCommittedMany (transitions prepared)).items.map
              fun item => item.1.digest H := by
          change _ = (transitions prepared).map _
          rw [transitions, List.map_map]
          rfl
        obtain ⟨hpre, hdone⟩ := hg₁.commit_remove (H := H) rfl hdigests
        refine keeps_attempt_call hpre fun r _ => ?_
        split
        · exact keeps_pure hdone
        · exact keeps_pure hdone
      · exact keeps_attempt_call hmem fun _ _ => keeps_pure (hg₁.next_quarantine hown)

/-- The delivery paths follow the protocol. -/
theorem falseAlarm_deliveryRules :
    DeliveryRules H (falseAlarmSpec H) (fun _ => True) Settled where
  silent := falseAlarm_silent
  weaken hg hK := ⟨fun r hr => hg.known r (hK hr), hg.pending, hg.removing⟩
  claim records _ _ hg := by
    refine ⟨by rintro ⟨⟩, fun _ _ => ?_, fun _ _ => hg⟩
    exact ⟨fun r hr => .inr hr, hg.pending, hg.removing⟩
  ambiguous := by
    intro caps g K record claim hrecord hg
    have hnext : ∀ r, (falseAlarmSpec H).next
        (.quarantine [record] (ambiguousReason claim.state)) g r = g := fun r =>
      if_neg fun h => h.2 (ambiguousReason_mem claim.state)
    refine keeps_call (fun r hr => List.mem_singleton.1 hr ▸ hg.known record hrecord)
      (fun _ _ => ?_) fun _ _ => ?_
    · rw [hnext]
      exact keeps_pure hg
    · rw [hnext]
      exact hg
  quarantine _ _ _ _ hreason hrecord hg := keeps_quarantineBeforeWrite_settled hreason hrecord hg
  write _ _ _ _ hrecord hg := keeps_crossAndWrite_settled hrecord rfl hg
  writeBatch _ _ hprepared hg := keeps_crossAndWriteBatch_settled hprepared hg

/-- The jobs that never replay. -/
def Job.delivers : Job → Prop
  | .replay _ _ => False
  | _ => True

theorem falseAlarm_body {rt : DestinationRuntime} (job : Job) (hjob : job.delivers) :
    Keeps (falseAlarmSpec H) (fun g => g.pending = ∅ ∧ g.removing = ∅) (job.body H rt) .empty := by
  have hstart : StartRule (falseAlarmSpec H) (Settled · [])
      (fun g => g.pending = ∅ ∧ g.removing = ∅) SpoolDuty.empty :=
    ⟨fun _ _ => ⟨by rintro r ⟨⟩, rfl, rfl⟩, ⟨rfl, rfl⟩, fun _ _ h => ⟨h.pending, h.removing⟩⟩
  cases job with
  | deliver record =>
      exact keeps_bind (keeps_deliver falseAlarm_deliveryRules hstart record trivial)
        (fun _ _ hg => keeps_pure hg) fun _ hg => hg
  | deliverMany records =>
      exact keeps_deliverMany falseAlarm_deliveryRules hstart records fun _ _ => trivial
  | replay _ _ => cases hjob

end Programs

/-! ## The invariant -/

section Invariant

variable {H : Host} {ι : Type} {rows rows' : Ledger} {spool spool' : Spool} {g : ι → SpoolDuty}
  {i : ι} {inputs : LedgerInputs} {c : LedgerCall} {x : SpoolDuty}

/-- What ties the two stores to the duties of the workers. -/
structure AlarmInv (H : Host) (rows : Ledger) (spool : Spool) (g : ι → SpoolDuty) : Prop where
  known : ∀ i, ∀ r ∈ (g i).known, ∃ row, rows r.key = some row ∧ row.recordDigest = r.digest H
  entries : ∀ d s, spool d = some s → ∃ row, rows s.key = some row ∧ row.recordDigest = d
  crossed : ∀ i, ∀ key ∈ (g i).crossed, inFlight (rows key)
  owner : ∀ i j, ∀ key ∈ (g i).crossed, key ∈ (g j).crossed → i = j
  covered : ∀ d s, spool d = some s → rows.Committed s.key →
    ∃ i, (d, s.key) ∈ (g i).pending ∨ d ∈ (g i).removing

theorem inFlight_notCommitted {key : DeliveryKey} (h : inFlight (rows key)) :
    ¬rows.Committed key := by
  rintro ⟨row, hrow, hcommitted⟩
  obtain ⟨row', hrow', hstarted⟩ := h
  rw [hrow] at hrow'
  cases hrow'
  rw [hcommitted] at hstarted
  cases hstarted

/-- A row keeps its digest. -/
theorem digest_stays (hmove : ∀ key, LedgerCall.RowMove H inputs c key (rows key) (rows' key))
    {key : DeliveryKey} {d : String} (h : ∃ row, rows key = some row ∧ row.recordDigest = d) :
    ∃ row, rows' key = some row ∧ row.recordDigest = d := by
  obtain ⟨row, hrow, hdigest⟩ := h
  have hkey := hmove key
  rw [hrow] at hkey
  obtain ⟨row', hrow', hstep⟩ := rowMove_some H hkey
  exact ⟨row', hrow', hstep.recordDigest.trans hdigest⟩

/-- A call of another worker's cannot have moved a row in flight, unless it marks it. -/
theorem AlarmInv.ledger_of [DecidableEq ι] (h : AlarmInv H rows spool g)
    (hmove : ∀ key, LedgerCall.RowMove H inputs c key (rows key) (rows' key))
    (hknown : ∀ r ∈ x.known, r ∈ (g i).known ∨
      ∃ row, rows' r.key = some row ∧ row.recordDigest = r.digest H)
    (hcrossed : ∀ j, ∀ key ∈ (Function.update g i x j).crossed, inFlight (rows' key))
    (howner : ∀ j, j ≠ i → ∀ key ∈ x.crossed, key ∉ (g j).crossed)
    (hcovered : ∀ d s, spool d = some s → rows'.Committed s.key →
      ((d, s.key) ∈ x.pending ∨ d ∈ x.removing) ∨
        rows.Committed s.key ∧ (((d, s.key) ∈ (g i).pending ∨ d ∈ (g i).removing) →
          (d, s.key) ∈ x.pending ∨ d ∈ x.removing)) :
    AlarmInv H rows' spool (Function.update g i x) := by
  refine ⟨fun j r hr => ?_, fun d s hs => digest_stays hmove (h.entries d s hs), hcrossed, ?_, ?_⟩
  · by_cases hj : j = i
    · subst hj
      rw [Function.update_self] at hr
      rcases hknown r hr with hold | hnew
      · exact digest_stays hmove (h.known j r hold)
      · exact hnew
    · rw [Function.update_of_ne hj] at hr
      exact digest_stays hmove (h.known j r hr)
  · intro j k key hj hk
    by_cases hji : j = i <;> by_cases hki : k = i
    · exact hji.trans hki.symm
    · rw [hji, Function.update_self] at hj
      rw [Function.update_of_ne hki] at hk
      exact absurd hk (howner k hki key hj)
    · rw [hki, Function.update_self] at hk
      rw [Function.update_of_ne hji] at hj
      exact absurd hj (howner j hji key hk)
    · rw [Function.update_of_ne hji] at hj
      rw [Function.update_of_ne hki] at hk
      exact h.owner j k key hj hk
  · intro d s hs hcommitted
    rcases hcovered d s hs hcommitted with hnew | ⟨hold, hkeep⟩
    · exact ⟨i, by rwa [Function.update_self]⟩
    · obtain ⟨j, hj⟩ := h.covered d s hs hold
      by_cases hji : j = i
      · subst hji
        exact ⟨j, by rw [Function.update_self]; exact hkeep hj⟩
      · exact ⟨j, by rwa [Function.update_of_ne hji]⟩

/-- A transition leaves the rows of other identities alone. -/
theorem transitioned_other {t : Transition} (hmoved : LedgerCall.Transitioned H t c rows rows')
    {key : DeliveryKey} (hkey : key ∉ c.keys) : rows' key = rows key := by
  rcases hmoved with ⟨-, rfl⟩ | ⟨instant, -, hothers⟩
  · rfl
  · exact hothers key fun item hitem heq => hkey (List.mem_map.2 ⟨item, hitem, heq⟩)

/-- A transition moves the rows it names. -/
theorem transitioned_item {t : Transition} (hmoved : LedgerCall.Transitioned H t c rows rows')
    {item : BlindTransportRecord × String} (hitem : item ∈ c.items) :
    ∃ row row', rows item.1.key = some row ∧ row.state = t.expected ∧
      row.recordDigest = item.1.digest H ∧ rows' item.1.key = some row' ∧
      row'.state = t.target := by
  rcases hmoved with ⟨hnil, -⟩ | ⟨instant, hitems, -⟩
  · rw [hnil] at hitem
    cases hitem
  · obtain ⟨row, hrow, happlies, hnew⟩ := hitems item hitem
    exact ⟨row, _, hrow, applies_state H happlies, applies_digest happlies, hnew, rfl⟩

/-- A call that crosses the write boundary. -/
theorem AlarmInv.start [DecidableEq ι] {t : Transition} (h : AlarmInv H rows spool g)
    (hmove : ∀ key, LedgerCall.RowMove H inputs c key (rows key) (rows' key))
    (hmoved : LedgerCall.Transitioned H t c rows rows') (hexpected : t.expected = .claimed)
    (htarget : t.target.isWriteStarted = true) :
    AlarmInv H rows' spool (Function.update g i ((g i).cross c)) := by
  have hfree : ∀ key ∈ c.keys, ¬inFlight (rows key) := by
    rintro key hkey ⟨r, hr, hstarted⟩
    obtain ⟨item, hitem, rfl⟩ := List.mem_map.1 hkey
    obtain ⟨row, _, hrow, hstate, -⟩ := transitioned_item hmoved hitem
    rw [hrow] at hr
    cases hr
    rw [hstate, hexpected] at hstarted
    cases hstarted
  have hstarted : ∀ key ∈ c.keys, inFlight (rows' key) := by
    intro key hkey
    obtain ⟨item, hitem, rfl⟩ := List.mem_map.1 hkey
    obtain ⟨_, row', -, -, -, hrow', hstate⟩ := transitioned_item hmoved hitem
    exact ⟨row', hrow', hstate ▸ htarget⟩
  have hold : ∀ j, ∀ key ∈ (g j).crossed, inFlight (rows' key) := by
    intro j key hkey
    have hflight := h.crossed j key hkey
    rwa [transitioned_other hmoved fun hmem => hfree key hmem hflight]
  refine h.ledger_of hmove (fun r hr => .inl hr) (fun j key hkey => ?_) (fun j hj key hkey => ?_)
    fun d s hs hcommitted => ?_
  · by_cases hj : j = i
    · subst hj
      rw [Function.update_self] at hkey
      rcases hkey with hkey | hkey
      · exact hold j key hkey
      · exact hstarted key hkey
    · rw [Function.update_of_ne hj] at hkey
      exact hold j key hkey
  · rcases hkey with hkey | hkey
    · exact fun hother => hj (h.owner j i key hother hkey)
    · exact fun hother => hfree key hkey (h.crossed j key hother)
  · have hother : s.key ∉ c.keys := fun hmem =>
      inFlight_notCommitted (hstarted _ hmem) hcommitted
    refine .inr ⟨?_, id⟩
    rwa [Ledger.Committed, ← transitioned_other hmoved hother]

/-- A call that records outcomes: of the worker's own writes, or of rows still claimed. -/
theorem AlarmInv.mark [DecidableEq ι] {t : Transition} (h : AlarmInv H rows spool g)
    (hmove : ∀ key, LedgerCall.RowMove H inputs c key (rows key) (rows' key))
    (hmoved : LedgerCall.Transitioned H t c rows rows')
    (hown : t.expected = .claimed ∨ ∀ item ∈ c.items, item.1.key ∈ (g i).crossed)
    (hcommits : t.target = .committed → c.commits = true) :
    AlarmInv H rows' spool (Function.update g i ((g i).settle H c)) := by
  have hothers : ∀ j, j ≠ i → ∀ key ∈ (g j).crossed, key ∉ c.keys := by
    intro j hj key hkey hmem
    obtain ⟨item, hitem, rfl⟩ := List.mem_map.1 hmem
    rcases hown with hclaimed | hcrossed
    · obtain ⟨r, hr, hstarted⟩ := h.crossed j _ hkey
      obtain ⟨row, _, hrow, hstate, -⟩ := transitioned_item hmoved hitem
      rw [hrow] at hr
      cases hr
      rw [hstate, hclaimed] at hstarted
      cases hstarted
    · exact hj (h.owner j i _ hkey (hcrossed item hitem))
  refine h.ledger_of hmove (fun r hr => .inl hr) (fun j key hkey => ?_) (fun j hj key hkey => ?_)
    fun d s hs hcommitted => ?_
  · by_cases hj : j = i
    · subst hj
      rw [Function.update_self] at hkey
      rw [transitioned_other hmoved hkey.2]
      exact h.crossed j key hkey.1
    · rw [Function.update_of_ne hj] at hkey
      rw [transitioned_other hmoved (hothers j hj key hkey)]
      exact h.crossed j key hkey
  · exact fun hother => hj (h.owner j i key hother hkey.1)
  · by_cases hmem : s.key ∈ c.keys
    · -- Committed by this call: the entry's digest is the record's own.
      obtain ⟨item, hitem, hkey⟩ := List.mem_map.1 hmem
      obtain ⟨row, row', hrow, -, hdigest, hrow', hstate⟩ := transitioned_item hmoved hitem
      obtain ⟨row₀, hrow₀, hd⟩ := h.entries d s hs
      obtain ⟨row₁, hrow₁, hcommitted₁⟩ := hcommitted
      rw [← hkey, hrow] at hrow₀
      rw [← hkey, hrow'] at hrow₁
      cases hrow₀
      cases hrow₁
      have hcommit := hcommits (hstate.symm.trans hcommitted₁)
      refine .inl (.inr ?_)
      simp only [SpoolDuty.settle, hcommit, if_true]
      exact .inr ⟨item, hitem, hd.symm.trans hdigest⟩
    · refine .inr ⟨?_, ?_⟩
      · rwa [Ledger.Committed, ← transitioned_other hmoved hmem]
      · rintro (hpending | hremoving)
        · refine .inl ⟨hpending, ?_⟩
          rintro ⟨item, hitem, hentry⟩
          exact hmem (List.mem_map.2 ⟨item, hitem, (congrArg Prod.snd hentry).symm⟩)
        · refine .inr ?_
          simp only [SpoolDuty.settle]
          split
          · exact .inl hremoving
          · exact hremoving

/-- A claim. -/
theorem AlarmInv.claimMany [DecidableEq ι] {records : List BlindTransportRecord} {leaseFor : Int}
    {results : List ClaimResult} (h : AlarmInv H rows spool g)
    (hrun : (LedgerCall.claimMany records leaseFor).exec H inputs rows = .ok results rows') :
    AlarmInv H rows' spool
      (Function.update g i { g i with known := (g i).known ∪ {record | record ∈ records} }) := by
  have hmove := LedgerCall.exec_rowMove H hrun
  have hold : ∀ j, ∀ key ∈ (g j).crossed, inFlight (rows' key) := by
    intro j key hkey
    obtain ⟨r, hr, hstarted⟩ := h.crossed j key hkey
    have hmoved := hmove key
    rw [hr] at hmoved
    generalize hnew : rows' key = new at hmoved
    cases hmoved with
    | same => exact ⟨r, rfl, hstarted⟩
    | reclaim _ _ _ hstate =>
        rw [hstate] at hstarted
        cases hstarted
    | transition ht _ _ _ => cases ht
    | rearm hc => cases hc
  refine h.ledger_of hmove (fun r hr => ?_) (fun j key hkey => ?_) (fun j hj key hkey => ?_)
    fun d s hs hcommitted => .inr ⟨?_, id⟩
  · rcases hr with hr | hr
    · exact .inl hr
    · exact .inr (LedgerCall.claimMany_digest H hrun r hr)
  · by_cases hj : j = i
    · subst hj
      rw [Function.update_self] at hkey
      exact hold j key hkey
    · rw [Function.update_of_ne hj] at hkey
      exact hold j key hkey
  · exact fun hother => hj (h.owner j i key hother hkey)
  · obtain ⟨row', hrow', hstate⟩ := hcommitted
    have hmoved := hmove s.key
    rw [hrow'] at hmoved
    generalize hrow : rows s.key = old at hmoved
    cases hmoved with
    | same => exact ⟨row', hrow, hstate⟩
    | insert _ _ => cases hstate
    | @reclaim _ _ _ _ row _ _ _ hclaimed =>
        change row.state = _ at hstate
        rw [hclaimed] at hstate
        cases hstate
    | transition ht _ _ _ => cases ht
    | rearm hc => cases hc

/-- A row read back. -/
theorem AlarmInv.get [DecidableEq ι] {record : BlindTransportRecord} {found : Option LedgerRow}
    (h : AlarmInv H rows spool g)
    (hrun : (LedgerCall.get record).exec H inputs rows = .ok found rows') :
    AlarmInv H rows' spool (Function.update g i ((g i).reconcile H record found)) := by
  obtain ⟨rfl, rfl⟩ := LedgerCall.get_ok H hrun
  refine @AlarmInv.ledger_of _ _ _ _ _ _ _ inputs _ _ _ h (LedgerCall.exec_rowMove H hrun) (fun r hr => .inl hr)
    (fun j key hkey => ?_) (fun j hj key hkey => ?_) fun d s hs hcommitted => ?_
  · by_cases hj : j = i
    · subst hj
      rw [Function.update_self] at hkey
      exact h.crossed j key hkey
    · rw [Function.update_of_ne hj] at hkey
      exact h.crossed j key hkey
  · exact fun hother => hj (h.owner j i key hother hkey)
  · by_cases hentry : (d, s.key) = record.entry H
    · obtain ⟨rfl, hkey⟩ := Prod.mk.inj hentry
      obtain ⟨row, hrow, hstate⟩ := hcommitted
      refine .inl (.inr ?_)
      rw [hkey] at hrow
      simp only [SpoolDuty.reconcile, hrow, Option.any_some, hstate, decide_true, if_true]
      exact .inr rfl
    · refine .inr ⟨hcommitted, ?_⟩
      rintro (hpending | hremoving)
      · exact .inl ⟨hpending, hentry⟩
      · refine .inr ?_
        simp only [SpoolDuty.reconcile]
        split
        · exact .inl hremoving
        · exact hremoving

/-- A call that raised changed neither the rows nor the worker's duties. -/
theorem AlarmInv.ledger_error [DecidableEq ι] {fails : Prop} {e : Exn}
    (hfails : ¬fails) (h : AlarmInv H rows spool g)
    (hstep : StoreStep fails (c.exec H inputs) rows (.error e) rows') :
    AlarmInv H rows' spool
      (Function.update g i ((falseAlarmSpec H).next (.ledger c) (g i) (.error e))) := by
  have hnext : (falseAlarmSpec H).next (.ledger c) (g i) (.error e) = g i := by
    cases c <;> rfl
  have hsame : rows' = rows := by
    cases hstep with
    | raised hrun => exact LedgerCall.exec_atomic H inputs c _ _ _ hrun
    | failed => rfl
    | failedAfter hfail => exact absurd hfail hfails
  rw [hnext, hsame, Function.update_eq_self]
  exact h

/-- A quarantine that returned made its transition. -/
theorem quarantined_transition? {record : BlindTransportRecord} {reasonCode claimToken : String}
    {expectedState : DeliveryState} {u : Unit}
    (hrun : (LedgerCall.markQuarantined record reasonCode claimToken expectedState).exec H inputs
      rows = .ok u rows') :
    (LedgerCall.markQuarantined record reasonCode claimToken expectedState).transition? inputs =
      some (quarantinedTransition reasonCode expectedState) := by
  change DeliveryLedger.markQuarantined H _ _ _ _ _ rows = _ at hrun
  unfold DeliveryLedger.markQuarantined at hrun
  split at hrun
  · rename_i hstate
    rw [LedgerCall.transition?, if_pos hstate]
  · exact (throw_eq_ok_iff.1 hrun).elim

theorem quarantinedMany_transition? {items : List (BlindTransportRecord × String)}
    {reasonCode : String} {expectedState : DeliveryState} {u : Unit}
    (hrun : (LedgerCall.markQuarantinedMany items reasonCode expectedState).exec H inputs rows =
      .ok u rows') :
    (LedgerCall.markQuarantinedMany items reasonCode expectedState).transition? inputs =
      some (quarantinedManyTransition reasonCode expectedState) := by
  change DeliveryLedger.markQuarantinedMany H _ _ _ _ rows = _ at hrun
  unfold DeliveryLedger.markQuarantinedMany at hrun
  split at hrun
  · rename_i hstate
    rw [LedgerCall.transition?, if_pos hstate]
  · exact (throw_eq_ok_iff.1 hrun).elim

/-- A ledger call of a worker that meets its obligation. -/
theorem AlarmInv.ledger [DecidableEq ι] {a : c.Answer}
    (h : AlarmInv H rows spool g) (hpre : (falseAlarmSpec H).pre (.ledger c) (g i))
    (hrun : c.exec H inputs rows = .ok a rows') :
    AlarmInv H rows' spool
      (Function.update g i ((falseAlarmSpec H).next (.ledger c) (g i) (.ok a))) := by
  have hmove := LedgerCall.exec_rowMove H hrun
  have hmark : ∀ {t : Transition}, c.transition? inputs = some t →
      (t.expected = .claimed ∨ ∀ item ∈ c.items, item.1.key ∈ (g i).crossed) →
      AlarmInv H rows' spool (Function.update g i ((g i).settle H c)) := fun ht hown =>
    h.mark hmove (LedgerCall.exec_transition H ht hrun) hown (commits_of_target ht)
  cases c with
  | claimMany records leaseFor => exact h.claimMany hrun
  | get record => exact h.get hrun
  | rearmForRetry record expectedState leaseFor => exact hpre.elim
  | startReplayWrite record claimToken => exact hpre.elim
  | startWrite record claimToken contractId =>
      exact h.start hmove (LedgerCall.exec_transition H rfl hrun) rfl rfl
  | startWriteMany items contractId =>
      exact h.start hmove (LedgerCall.exec_transition H rfl hrun) rfl rfl
  | markCommitted record claimToken => exact hmark rfl (.inr (hpre rfl))
  | markReplayCommitted record claimToken => exact hmark rfl (.inr (hpre rfl))
  | markCommittedMany items => exact hmark rfl (.inr (hpre rfl))
  | markUncertain record reasonCode claimToken => exact hmark rfl (.inr (hpre rfl))
  | markReplayUncertain record reasonCode claimToken => exact hmark rfl (.inr (hpre rfl))
  | markUncertainMany items reasonCode => exact hmark rfl (.inr (hpre rfl))
  | markQuarantinedMany items reasonCode expectedState =>
      exact hmark (quarantinedMany_transition? hrun) (.inr (hpre rfl))
  | markQuarantined record reasonCode claimToken expectedState =>
      refine hmark (quarantined_transition? hrun) ?_
      by_cases hclaimed : expectedState = .claimed
      · exact .inl hclaimed
      · refine .inr fun item hitem => ?_
        rw [List.mem_singleton.1 hitem]
        exact hpre.2 hclaimed

/-- Records sealed by a worker that has claimed them. Whoever takes on no duty for an entry of a
committed row must find the row's cleanup ahead. -/
theorem AlarmInv.quarantine [DecidableEq ι] {config : SpoolConfig}
    {records : List BlindTransportRecord} {reasonCode : String} {instant : Utc.Instant}
    (h : AlarmInv H rows spool g) (hpre : ∀ r ∈ records, r ∈ (g i).known)
    (hahead : reasonCode ∈ ambiguousReasons → ∀ r ∈ records, rows.Committed r.key →
      ∃ j, r.entry H ∈ (g j).pending ∨ r.digest H ∈ (g j).removing)
    (hrun : SealedSpool.quarantineMany H config instant records reasonCode spool = .ok () spool') :
    AlarmInv H rows spool' (Function.update g i
      ((falseAlarmSpec H).next (.quarantine records reasonCode) (g i) (.ok ()))) := by
  generalize hx : (falseAlarmSpec H).next (.quarantine records reasonCode) (g i) (.ok ()) = x
  have hnext : x.known = (g i).known ∧ x.crossed = (g i).crossed ∧
      x.removing = (g i).removing ∧ (g i).pending ⊆ x.pending := by
    subst hx
    simp only [falseAlarmSpec]
    split
    · exact ⟨rfl, rfl, rfl, fun _ he => .inl he⟩
    · exact ⟨rfl, rfl, rfl, fun _ he => he⟩
  obtain ⟨hknown, hcrossed, hremoving, hpending⟩ := hnext
  have hsame : ∀ {β : Type} (f : SpoolDuty → β), f x = f (g i) → ∀ j,
      f (Function.update g i x j) = f (g j) := by
    intro β f hf j
    by_cases hj : j = i
    · subst hj
      rw [Function.update_self, hf]
    · rw [Function.update_of_ne hj]
  have hgrows : ∀ d key, (∃ j, (d, key) ∈ (g j).pending ∨ d ∈ (g j).removing) →
      ∃ j, (d, key) ∈ (Function.update g i x j).pending ∨
        d ∈ (Function.update g i x j).removing := by
    rintro d key ⟨j, hj⟩
    refine ⟨j, ?_⟩
    by_cases hji : j = i
    · subst hji
      rw [Function.update_self, hremoving]
      exact hj.imp (fun he => hpending he) id
    · rwa [Function.update_of_ne hji]
  obtain ⟨-, -, hinserted⟩ := SealedSpool.quarantineMany_ok hrun
  refine ⟨fun j r hr => ?_, fun d s hs => ?_, fun j key hkey => ?_, fun j k key hj hk => ?_,
    fun d s hs hcommitted => ?_⟩
  · rw [hsame SpoolDuty.known hknown] at hr
    exact h.known j r hr
  · rcases hinserted d s hs with ⟨s₀, hs₀, hstored⟩ | ⟨r, hr, rfl, hstored⟩
    · rw [show s.key = s₀.key from congrArg Prod.snd hstored]
      exact h.entries d s₀ hs₀
    · rw [show s.key = r.key from congrArg Prod.snd hstored]
      exact h.known i r (hpre r hr)
  · rw [hsame SpoolDuty.crossed hcrossed] at hkey
    exact h.crossed j key hkey
  · rw [hsame SpoolDuty.crossed hcrossed] at hj hk
    exact h.owner j k key hj hk
  · rcases hinserted d s hs with ⟨s₀, hs₀, hstored⟩ | ⟨r, hr, rfl, hstored⟩
    · have hkey : s.key = s₀.key := congrArg Prod.snd hstored
      rw [hkey] at hcommitted ⊢
      exact hgrows _ _ (h.covered d s₀ hs₀ hcommitted)
    · have hkey : s.key = r.key := congrArg Prod.snd hstored
      rw [hkey] at hcommitted ⊢
      by_cases hreason : reasonCode ∈ ambiguousReasons
      · exact hgrows _ _ (hahead hreason r hr hcommitted)
      · refine ⟨i, .inl ?_⟩
        rw [Function.update_self, ← hx]
        have hfree : r.key ∉ (g i).crossed := fun hkey =>
          inFlight_notCommitted (h.crossed i _ hkey) hcommitted
        simp only [falseAlarmSpec]
        rw [if_pos ⟨rfl, hreason⟩]
        exact .inr ⟨r, hr, hfree, rfl⟩

/-- Digests removed. -/
theorem AlarmInv.remove [DecidableEq ι] {digests : List String} {n : Nat}
    (h : AlarmInv H rows spool g) (hrun : SealedSpool.removeMany digests spool = .ok n spool') :
    AlarmInv H rows spool' (Function.update g i
      { g i with removing := (g i).removing \ {d | d ∈ digests} }) := by
  have hspool := SealedSpool.removeMany_ok hrun
  subst hspool
  have hkept : ∀ d s, (if d ∈ digests then none else spool d) = some s →
      d ∉ digests ∧ spool d = some s := by
    intro d s hs
    split at hs
    · cases hs
    · rename_i hd
      exact ⟨hd, hs⟩
  have hsame : ∀ {β : Type} (f : SpoolDuty → β),
      f { g i with removing := (g i).removing \ {d | d ∈ digests} } = f (g i) → ∀ j,
      f (Function.update g i { g i with removing := (g i).removing \ {d | d ∈ digests} } j) =
        f (g j) := by
    intro β f hf j
    by_cases hj : j = i
    · subst hj
      rw [Function.update_self, hf]
    · rw [Function.update_of_ne hj]
  refine ⟨fun j r hr => ?_, fun d s hs => h.entries d s (hkept d s hs).2, fun j key hkey => ?_,
    fun j k key hj hk => ?_, fun d s hs hcommitted => ?_⟩
  · rw [hsame SpoolDuty.known rfl] at hr
    exact h.known j r hr
  · rw [hsame SpoolDuty.crossed rfl] at hkey
    exact h.crossed j key hkey
  · rw [hsame SpoolDuty.crossed rfl] at hj hk
    exact h.owner j k key hj hk
  · obtain ⟨hd, hs⟩ := hkept d s hs
    obtain ⟨j, hj⟩ := h.covered d s hs hcommitted
    refine ⟨j, ?_⟩
    by_cases hji : j = i
    · subst hji
      rw [Function.update_self]
      exact hj.imp id fun hremoving => ⟨hremoving, hd⟩
    · rwa [Function.update_of_ne hji]

/-- A worker that owes nothing forgets what it knew. -/
theorem AlarmInv.forget [DecidableEq ι] (h : AlarmInv H rows spool g)
    (hpending : (g i).pending = ∅) (hremoving : (g i).removing = ∅) :
    AlarmInv H rows spool (Function.update g i .empty) := by
  have hsubset : ∀ {β : Type} (f : SpoolDuty → Set β), f .empty = ∅ → ∀ j,
      f (Function.update g i .empty j) ⊆ f (g j) := by
    intro β f hf j
    by_cases hj : j = i
    · rw [hj, Function.update_self, hf]
      exact Set.empty_subset _
    · rw [Function.update_of_ne hj]
  refine ⟨fun j r hr => h.known j r (hsubset SpoolDuty.known rfl j hr), h.entries,
    fun j key hkey => h.crossed j key (hsubset SpoolDuty.crossed rfl j hkey),
    fun j k key hj hk => h.owner j k key (hsubset SpoolDuty.crossed rfl j hj)
      (hsubset SpoolDuty.crossed rfl k hk), fun d s hs hcommitted => ?_⟩
  obtain ⟨j, hj⟩ := h.covered d s hs hcommitted
  have hne : j ≠ i := by
    rintro rfl
    rw [hpending, hremoving] at hj
    exact hj.elim id id
  exact ⟨j, by rwa [Function.update_of_ne hne]⟩

end Invariant

/-! ## The system -/

/-- Workers that neither crash nor replay, and stores that lose nothing. -/
def steadyEnvironment (spool : SpoolConfig) : Environment where
  spool := spool
  advertised _ _ := True
  storesFail := False
  mayCrash := False
  quiet _ _ := False

/-- A call of a worker that leads to the removal of a sealed record of a committed row. -/
def Op.cleansUp (H : Host) (record : BlindTransportRecord) : Op → Prop
  | .remove digests => record.digest H ∈ digests
  | .ledger (.get read) => read.entry H = record.entry H
  | .ledger (.markQuarantined marked _ _ expectedState) =>
      expectedState = .claimed ∧ marked.entry H = record.entry H
  | _ => False

/-- Configurations of workers that never replay. -/
abbrev DeliveryConfig (ι : Type) : Type :=
  Config Op Op.Res Exn World ι {job : Job // job.delivers} (List DeliveryReceipt)

/-- Some worker's next call cleans up after the record. -/
def CleanupAhead {ι : Type} (H : Host) (c : DeliveryConfig ι) (record : BlindTransportRecord) :
    Prop :=
  ∃ j job op k, c.worker j = some (job, .call op k) ∧ op.cleansUp H record

/-- The store calls of reconciliations do not fail. -/
def storesAnswer {ι : Type} {allowed : Job → Prop} :
    StepCondition Op Op.Res Exn World ι {job : Job // allowed job} (List DeliveryReceipt) :=
  fun _ _ op r => op.answers r

/-- An ambiguous claim is sealed only while its row is not committed, or with the row's cleanup
ahead. -/
def sealsBeforeCleanup {ι : Type} (H : Host) :
    StepCondition Op Op.Res Exn World ι {job : Job // job.delivers} (List DeliveryReceipt) :=
  fun c _ op _ =>
    match op with
    | .quarantine records reasonCode => reasonCode ∈ ambiguousReasons → ∀ r ∈ records,
        c.shared.ledger.Committed r.key → CleanupAhead H c r
    | _ => True

theorem falseAlarm_preserves {ι : Type} [DecidableEq ι] (H : Host) (spool : SpoolConfig)
    (rt : ι → DestinationRuntime) :
    (falseAlarmProtocol H).Preserves
      (runtimeSystem H (steadyEnvironment spool) rt Job.delivers)
      (fun c i op r => storesAnswer c i op r ∧ sealsBeforeCleanup H c i op r)
      (fun w g => AlarmInv H w.ledger w.spool g) where
  body i job _ hx := hx ▸ falseAlarm_body job.1 job.2
  start {_ g} i job h hidle := ⟨g i, hidle, by rwa [Function.update_eq_self]⟩
  finish i job h hdone := h.forget hdone.1 hdone.2
  crash _ hcrash := hcrash.elim
  quiet _ hquiet := hquiet.elim
  call {c g i job op k r s'} hc hworker hpre hcond hexec := by
    have h : AlarmInv H c.shared.ledger c.shared.spool g := hc.inv
    have hsame : AlarmInv H c.shared.ledger c.shared.spool (Function.update g i (g i)) := by
      rw [Function.update_eq_self]
      exact h
    refine ⟨hcond.1, ?_⟩
    cases hexec with
    | capabilities => exact hsame
    | authorizeRecord => exact hsame
    | authorizeCapability => exact hsame
    | openRecord => exact hsame
    | resolveForeignKey => exact hsame
    | writeRecords => exact hsame
    | writeBatch => exact hsame
    | spoolGet recordDigest hstep =>
        have hspool := (storeStep_readOnly (SealedSpool.readOnly_getRecord recordDigest) hstep)
        subst hspool
        exact hsame
    | @ledger _ call inputs r ledger' hstep =>
        cases r with
        | error e => exact h.ledger_error id hstep
        | ok a => exact h.ledger hpre (storeStep_ok hstep)
    | @remove _ digests r spool' hstep =>
        cases r with
        | error e => cases hcond.1
        | ok n => exact h.remove (storeStep_ok hstep)
    | @quarantine _ records reasonCode instant r spool' hstep =>
        cases r with
        | error e =>
            have hnext : (falseAlarmSpec H).next (.quarantine records reasonCode) (g i)
                (.error e) = g i := by
              simp only [falseAlarmSpec]
              rw [if_neg]
              rintro ⟨⟨⟩, -⟩
            change AlarmInv H _ _ (Function.update g i
              ((falseAlarmSpec H).next (.quarantine records reasonCode) (g i) (.error e)))
            rw [hnext]
            cases hstep with
            | raised hrun =>
                rw [SealedSpool.atomic_quarantineMany _ _ _ _ _ _ hrun]
                exact hsame
            | failed hfail => exact hfail.elim
            | failedAfter hfail => exact hfail.elim
        | ok u =>
            refine h.quarantine hpre (fun hreason record hrecord hcommitted => ?_)
              (storeStep_ok hstep)
            obtain ⟨j, job', op', k', hworker', hcleans⟩ :=
              hcond.2 hreason record hrecord hcommitted
            have hlocal := hc.worker j
            rw [hworker'] at hlocal
            have hpre' : (falseAlarmSpec H).pre op' (g j) := hlocal.1
            have howes : ∀ r' : BlindTransportRecord, r'.entry H = record.entry H →
                (g j).Owes H r' → record.entry H ∈ (g j).pending := by
              rintro r' hentry (hpending | hcrossed)
              · exact hentry ▸ hpending
              · -- The row of a worker's own write is not committed.
                have hkey : r'.key = record.key := congrArg Prod.snd hentry
                exact absurd hcommitted (inFlight_notCommitted (hkey ▸ h.crossed j _ hcrossed))
            cases op' with
            | remove digests => exact ⟨j, .inr (hpre' _ hcleans)⟩
            | ledger call =>
                cases call with
                | get read => exact ⟨j, .inl (howes read hcleans hpre')⟩
                | markQuarantined marked _ _ expectedState =>
                    exact ⟨j, .inl (howes marked hcleans.2 (hpre'.1 hcleans.1))⟩
                | _ => exact hcleans.elim
            | _ => exact hcleans.elim

/-- **No false quarantine alarm, when no ambiguous claim is sealed too late.** Whatever the
interleaving of the workers' deliveries: if store calls do not fail, and every ambiguous claim is
sealed while its row is not committed or its cleanup is still ahead, then once all calls have
returned no entry of the spool belongs to a committed row. -/
theorem no_false_alarm {ι : Type} [DecidableEq ι] (H : Host) (spool : SpoolConfig)
    (rt : ι → DestinationRuntime) (capabilities : ConnectorCapabilities) {c : DeliveryConfig ι}
    (hc : (runtimeSystem H (steadyEnvironment spool) rt Job.delivers).Reaches
      (fun c i op r => storesAnswer c i op r ∧ sealsBeforeCleanup H c i op r)
      (System.initial { capabilities := capabilities }) c)
    (hidle : ∀ i, c.worker i = none) (d : String) (row : SpoolRow)
    (hrow : c.shared.spool d = some row) : ¬c.shared.ledger.Committed row.key := by
  have hinitial : AlarmInv H Ledger.empty Spool.empty (fun _ : ι => SpoolDuty.empty) :=
    ⟨by rintro _ _ ⟨⟩, by rintro _ _ ⟨⟩, by rintro _ _ ⟨⟩, by rintro _ _ _ ⟨⟩,
      by rintro _ _ ⟨⟩⟩
  obtain ⟨g, hg⟩ := Protocol.reaches_coherent (falseAlarm_preserves H spool rt) hinitial hc
  intro hcommitted
  obtain ⟨i, hi⟩ := hg.inv.covered d row hrow hcommitted
  have hlocal := hg.worker i
  rw [hidle i] at hlocal
  rw [show g i = SpoolDuty.empty from hlocal] at hi
  exact hi.elim id id

/-- The calls of a run whose stores answer and which seals no ambiguous claim. -/
def steadyCall (op : Op) (r : Except Exn op.Res) : Prop :=
  op.answers r ∧ ∀ records reasonCode, op = .quarantine records reasonCode →
    reasonCode ∉ ambiguousReasons

theorem notMem_ambiguousReasons {reasonCode : String}
    (h : ∀ state, reasonCode ≠ ambiguousReason state) : reasonCode ∉ ambiguousReasons := by
  intro hmem
  rcases List.mem_cons.1 hmem with rfl | hmem
  · exact h .writeStarted rfl
  · rw [List.mem_singleton.1 hmem] at h
    exact h .uncertain rfl

theorem answers_ok (op : Op) (a : op.Res) : op.answers (.ok a) := by
  cases op with
  | ledger c =>
      cases c with
      | markQuarantined _ _ _ _ => intro e he; cases he
      | get _ => rfl
      | _ => trivial
  | remove _ => rfl
  | _ => trivial

theorem answers_silent (op : Op) (r : Except Exn op.Res) (h : op.isSilent = true) :
    op.answers r := by
  cases op with
  | capabilities => trivial
  | authorizeRecord _ => trivial
  | authorizeCapability _ _ => trivial
  | openRecord _ _ => trivial
  | resolveForeignKey _ _ _ => trivial
  | _ => cases h

theorem tolerates_steadyCall : Tolerates steadyCall where
  silent op r h := ⟨answers_silent op r h, by rintro _ _ rfl; cases h⟩
  write _ _ _ _ := ⟨trivial, by rintro _ _ ⟨⟩⟩
  ledger c a := ⟨answers_ok (.ledger c) a, by rintro _ _ ⟨⟩⟩
  remove digests n := ⟨answers_ok (.remove digests) n, by rintro _ _ ⟨⟩⟩
  spoolGet _ _ := ⟨trivial, by rintro _ _ ⟨⟩⟩
  quarantine _ _ h := ⟨trivial, by rintro _ _ ⟨⟩; exact notMem_ambiguousReasons h⟩

theorem tolerates_answers : Tolerates fun op r => op.answers r where
  silent := answers_silent
  write _ _ _ _ := trivial
  ledger c a := answers_ok (.ledger c) a
  remove digests n := answers_ok (.remove digests) n
  spoolGet _ _ := trivial
  quarantine _ _ _ := trivial

namespace Sample

/-- Two workers with the sample's runtime on a steady environment. -/
noncomputable def steadySystem :
    System Op Op.Res Exn World Bool {job : Job // job.delivers} (List DeliveryReceipt) :=
  runtimeSystem standardHost (steadyEnvironment (spool standardHost))
    (fun _ => runtime standardHost) Job.delivers

/-- One worker delivers the sample, and the outcome of its write stays unknown. -/
theorem reaches_steady :
    steadySystem.Reaches
      (fun c i op r => storesAnswer c i op r ∧ sealsBeforeCleanup standardHost c i op r)
      (System.initial { capabilities := Sample.capabilities })
      ⟨unresolved.world, fun _ => none⟩ := by
  obtain ⟨receipts, hsteps⟩ := steps_unresolved tolerates_steadyCall
  refine (@Services.reaches_job _ _ _ _ (steadyEnvironment (spool standardHost))
      (fun _ => runtime standardHost) Job.delivers _ _ (fun _ => none) true Sample.capabilities)
          (fun _ _ => trivial)
    ⟨job, trivial⟩ (fun c p op r _ h => ⟨h.1, ?_⟩) rfl rfl hsteps
  cases op with
  | quarantine records reasonCode => exact fun hmem => absurd hmem (h.2 _ _ rfl)
  | _ => trivial

end Sample

/-- The entry of the sample's unresolved delivery does not belong to a committed row. -/
theorem no_false_alarm_unresolved :
    ∃ row, Sample.unresolved.world.spool ((Sample.record standardHost).digest standardHost) =
      some row ∧ ¬Sample.unresolved.world.ledger.Committed row.key := by
  refine ⟨_, Sample.unresolved_entry, ?_⟩
  exact no_false_alarm standardHost (Sample.spool standardHost)
    (fun _ : Bool => Sample.runtime standardHost) Sample.capabilities Sample.reaches_steady
    (fun _ => rfl) _ _ Sample.unresolved_entry

/-! ## An ambiguous claim sealed too late -/

namespace Sample

/-- The sample's first delivery against a connector that acknowledges it. -/
noncomputable def owner :
    FirstDelivery standardHost (services (.ok (some 1))) (runtime standardHost)
      (record standardHost) payload start :=
  firstDelivery standardHost (.ok (some 1)) start start_writes start_fresh start_contract

/-- What a second worker learns while the owner's write is under way. -/
noncomputable def lateClaim : ClaimResult :=
  ⟨.ambiguous, .writeStarted, (record standardHost).digest standardHost, none, none, none⟩

/-- The session after the second worker's claim, which leaves the row as it is. -/
noncomputable def contested : Session :=
  owner.started.withLedger (Function.update owner.started.world.ledger (record standardHost).key
    (some owner.startedRow))

/-- The session after the owner's commit and cleanup. -/
noncomputable def settled : Session :=
  ((contested.wrote job (record standardHost) payload
    (deliveryContext standardHost (record standardHost)) (.ok (some 1))).moved
      (services (.ok (some 1))) (record standardHost) (committedTransition .writeStarted)
      owner.startedRow).removed standardHost (record standardHost)

/-- The session after the second worker sealed its claim. -/
noncomputable def alarmed : Session :=
  settled.sealed (services (.ok (some 1))) standardHost (record standardHost)
    (ambiguousReason .writeStarted)

/-- The return of a job that delivers one record. -/
abbrev single (p : RuntimeM DeliveryReceipt) : RuntimeM (List DeliveryReceipt) := do
  let r ← p
  pure [r]

variable {P : (op : Op) → Except Exn op.Res → Prop} (hP : Tolerates P)

include hP

theorem steps_owner_started :
    (services (.ok (some 1))).Steps standardHost (spool standardHost) job P
      (job.body standardHost (runtime standardHost)) start
      (single (writeScalar standardHost (record standardHost) owner.claim payload))
      owner.started :=
  (owner.steps_started hP).bind_left _

theorem steps_contested :
    (services (.ok (some 1))).Steps standardHost (spool standardHost) job P
      (job.body standardHost (runtime standardHost)) owner.started
      (single (deliverAmbiguous standardHost (record standardHost) lateClaim)) contested := by
  have hread : (services (.ok (some 1))).answer standardHost (spool standardHost) job .capabilities
      owner.started = (.ok owner.started.world.capabilities, owner.started) := rfl
  have houtcome : claimOutcome standardHost instant expiresAt (record standardHost) "token"
      (owner.started.world.ledger (record standardHost).key) =
      .ok (lateClaim, owner.startedRow) := by
    rw [owner.started_row, claimOutcome, if_neg (not_or.2
      ⟨not_not.2 owner.startedRow_fenced.recordDigest, not_not.2 owner.startedRow_fenced.planDigest⟩)]
    rfl
  refine Prog.Steps.bind_left ((steps_call (hP.silent _ _ rfl) hread).trans ?_) _
  exact @steps_deliver_ambiguous _ _ (services (.ok (some 1))) _ _ _ _ hP _ _ [] _ _ _ rfl rfl rfl
    (by rfl) expiry_instant houtcome rfl

theorem steps_settled :
    (services (.ok (some 1))).Steps standardHost (spool standardHost) job P
      (single (writeScalar standardHost (record standardHost) owner.claim payload)) contested
      (pure [receipt standardHost (record standardHost) .delivered none false none]) settled := by
  have hrow : contested.world.ledger (record standardHost).key = some owner.startedRow := by
    rw [contested, Session.withLedger_ledger, Function.update_self]
  refine steps_bind ((steps_writeScalar_committed hP rfl).trans ?_)
  exact steps_writeAcknowledged hP owner.token hrow owner.startedRow_fenced

omit hP in
theorem steps_alarmed (hquarantine : P (.quarantine [record standardHost]
      (ambiguousReason .writeStarted)) (.ok ())) :
    ∃ receipts, (services (.ok (some 1))).Steps standardHost (spool standardHost) job P
      (single (deliverAmbiguous standardHost (record standardHost) lateClaim)) settled
      (pure receipts) alarmed := by
  have hempty : settled.world.spool ((record standardHost).digest standardHost) = none :=
    if_pos (List.mem_singleton.2 rfl)
  exact ⟨_, steps_bind ((@steps_deliverAmbiguous _ _ _ _ _ _ _ lateClaim) (admitted hempty)
      hquarantine)⟩

omit hP in
theorem alarmed_row : alarmed.world.ledger.Committed (record standardHost).key := by
  have hrow := (contested.wrote job (record standardHost) payload
    (deliveryContext standardHost (record standardHost)) (.ok (some 1))).moved_row
      (services (.ok (some 1))) (record standardHost) (committedTransition .writeStarted)
      owner.startedRow
  exact ⟨_, hrow, rfl⟩

omit hP in
theorem alarmed_entry :
    ∃ row, alarmed.world.spool ((record standardHost).digest standardHost) = some row ∧
      row.key = (record standardHost).key :=
  ⟨_, Function.update_self .., rfl⟩

omit hP in
/-- The owner of a claim commits and cleans up after a second worker found the write under way and
before that worker seals its claim. -/
theorem reaches_alarmed :
    ∃ c, steadySystem.Reaches storesAnswer (System.initial { capabilities := Sample.capabilities })
      c ∧ (∀ i, c.worker i = none) ∧ c.shared = alarmed.world := by
  have hP : Tolerates fun op r => op.answers r := tolerates_answers
  let deliverSample : {job : Job // job.delivers} := ⟨job, trivial⟩
  have hsteps {s s' : Session} {p q : RuntimeM (List DeliveryReceipt)}
      (i : Bool) (workers : Bool → Option ({job : Job // job.delivers} × _))
      (hs : s.world.capabilities = Sample.capabilities)
      (h : (services (.ok (some 1))).Steps standardHost (spool standardHost) job
        (fun op r => op.answers r) p s q s') :
      steadySystem.Reaches storesAnswer
        ⟨s.world, Function.update workers i (some (deliverSample, p))⟩
        ⟨s'.world, Function.update workers i (some (deliverSample, q))⟩ :=
    (@Services.reaches_steps _ _ _ _ (steadyEnvironment (spool standardHost))
        (fun _ => runtime standardHost) _ _ _ _ _ Sample.capabilities)
      (fun _ _ => trivial) (fun _ _ _ _ _ h => h) hs h
  obtain ⟨receipts, halarmed⟩ := steps_alarmed (P := fun op r => op.answers r) trivial
  let idle : Bool → Option ({job : Job // job.delivers} × RuntimeM (List DeliveryReceipt)) :=
    fun _ => none
  let writing := some (deliverSample,
    single (writeScalar standardHost (record standardHost) owner.claim payload))
  let sealing := some (deliverSample,
    single (deliverAmbiguous standardHost (record standardHost) lateClaim))
  have howner := hsteps true idle rfl (steps_owner_started hP)
  have hcontested := hsteps false (Function.update idle true writing) rfl (steps_contested hP)
  have hsettled := hsteps true (Function.update idle false sealing) rfl (steps_settled hP)
  have halarmed := hsteps false (Function.update idle true none) rfl halarmed
  rw [Function.update_comm (by decide : true ≠ false)] at halarmed
  have hfinish := (@System.Step.finish _ _ _ _ _ _ _ _ steadySystem storesAnswer
      ⟨settled.world, Function.update (Function.update idle false sealing) true
      (some (deliverSample,
        pure [receipt standardHost (record standardHost) .delivered none false none]))⟩) true rfl
  rw [Function.update_idem] at hfinish
  have howned : steadySystem.Reaches storesAnswer
      ⟨contested.world, Function.update (Function.update idle true writing) false sealing⟩
      ⟨settled.world, Function.update (Function.update idle false sealing) true none⟩ := by
    rw [Function.update_comm (by decide)]
    exact hsettled.tail hfinish
  refine ⟨_, .head (.start true deliverSample rfl) (howner.trans (.head
    (.start false deliverSample rfl) (hcontested.trans (howned.trans (halarmed.tail
    (.finish false rfl)))))), ?_, rfl⟩
  intro i
  cases i <;> rfl

end Sample

/-- A stale worker's copy survives the commit: all calls have returned, the row is committed, and
its spool entry is still there. -/
theorem false_alarm :
    ∃ c : DeliveryConfig Bool,
      Sample.steadySystem.Reaches storesAnswer
        (System.initial { capabilities := Sample.capabilities }) c ∧
      (∀ i, c.worker i = none) ∧
      ∃ d row, c.shared.spool d = some row ∧ c.shared.ledger.Committed row.key := by
  obtain ⟨c, hc, hidle, hshared⟩ := Sample.reaches_alarmed
  obtain ⟨row, hrow, hkey⟩ := Sample.alarmed_entry
  refine ⟨c, hc, hidle, (Sample.record standardHost).digest standardHost, row, ?_, ?_⟩
  · rw [hshared]
    exact hrow
  · rw [hshared, hkey]
    exact Sample.alarmed_row

end Polymorph
