import Polymorph.Delivery.LedgerProvenance
import Polymorph.Delivery.FreshDelivery
import Polymorph.Delivery.SpoolSpec

/-!
# Recoverability of quarantined records

A row parked for a later replay has its record in the spool. The ghost of a worker is its knowledge
of the two stores: the digests it has sealed and the identities it has seen committed. A row is
parked only under a digest its worker has sealed, and a digest is removed only for an identity seen
committed. Another worker may remove a sealed digest in between, but only once the row is committed,
and then the row can no longer be parked. The hash is assumed injective on the contents of the
records in play.
-/

set_option autoImplicit false

namespace Polymorph

open Concurrency Prog Transaction DeliveryLedger DestinationRuntime

/-- The states in which a row waits for a replay. -/
def DeliveryState.isParked : DeliveryState → Bool
  | .quarantined | .uncertain | .batchUncertain | .replayUncertain | .replayQuarantined => true
  | _ => false

/-- The calls that park their rows. -/
def LedgerCall.parks : LedgerCall → Bool
  | .markUncertain _ _ _ | .markReplayUncertain _ _ _ | .markUncertainMany _ _
  | .markQuarantined _ _ _ _ | .markQuarantinedMany _ _ _ => true
  | _ => false

/-- What a worker knows of the stores. -/
structure StoreKnowledge where
  sealed : Set String
  committed : Set DeliveryKey

namespace StoreKnowledge

/-- Nothing is known. -/
def empty : StoreKnowledge := ⟨∅, ∅⟩

def addSealed (g : StoreKnowledge) (digests : Set String) : StoreKnowledge :=
  { g with sealed := g.sealed ∪ digests }

def addCommitted (g : StoreKnowledge) (keys : Set DeliveryKey) : StoreKnowledge :=
  { g with committed := g.committed ∪ keys }

end StoreKnowledge

section Protocol

variable (H : Host) (T : Set String)

/-- The protocol of one worker over records whose contents lie in `T`. -/
def recoverySpec : Spec Op Op.Res Exn StoreKnowledge where
  pre
    | .ledger c, g =>
        (∀ r ∈ c.records, r.contentText ∈ T) ∧
          (c.parks = true → ∀ item ∈ c.items, item.1.digest H ∈ g.sealed)
    | .quarantine records _, _ => ∀ r ∈ records, r.contentText ∈ T
    | .remove digests, g =>
        ∀ d ∈ digests, ∃ r : BlindTransportRecord,
          r.contentText ∈ T ∧ r.digest H = d ∧ r.key ∈ g.committed
    | _, _ => True
  allowed
    | .spoolGet recordDigest, _, r =>
        ∀ record : BlindTransportRecord, r = .ok (some record) →
          record.contentText ∈ T ∧ record.digest H = recordDigest
    | _, _, _ => True
  next
    | .quarantine records _, g, r =>
        if r.isOk then g.addSealed {d | ∃ record ∈ records, record.digest H = d} else g
    | .ledger (.get record), g, r =>
        match r with
        | .ok (some row) =>
            if row.state = .committed then g.addCommitted {record.key} else g
        | _ => g
    | .ledger c, g, r =>
        if r.isOk && c.commits then g.addCommitted {k | ∃ item ∈ c.items, item.1.key = k} else g
    | _, g, _ => g

/-- The ghost protocol. -/
def recoveryProtocol {J : Type} : Protocol Op Op.Res Exn J StoreKnowledge where
  spec _ := recoverySpec H T
  idle := .empty
  begin _ g := g = .empty
  done _ _ := True

end Protocol

/-! ## The programs follow the protocol -/

section Programs

variable {H : Host} {T : Set String}

theorem recovery_silent : Silent (recoverySpec H T) where
  pre op g hop := by
    cases op with
    | capabilities => trivial
    | authorizeRecord _ => trivial
    | authorizeCapability _ _ => trivial
    | openRecord _ _ => trivial
    | resolveForeignKey _ _ _ => trivial
    | _ => cases hop
  next op g r hop := by
    cases op with
    | capabilities => rfl
    | authorizeRecord _ => rfl
    | authorizeCapability _ _ => rfl
    | openRecord _ _ => rfl
    | resolveForeignKey _ _ _ => rfl
    | _ => cases hop

variable {I : Prop} {g : StoreKnowledge} {record : BlindTransportRecord}

/-- A ledger call that parks nothing is free. -/
theorem recovery_pre_ledger {c : LedgerCall} (hrecords : c.records = [])
    (hparks : c.parks = false) : (recoverySpec H T).pre (.ledger c) g := by
  refine ⟨fun r hr => ?_, fun h => ?_⟩
  · rw [hrecords] at hr
    cases hr
  · rw [hparks] at h
    cases h

/-- A call that parks the records it has just sealed. -/
theorem recovery_pre_parks {c : LedgerCall} {records : List BlindTransportRecord}
    (hrecords : c.records = []) (hitems : ∀ item ∈ c.items, item.1 ∈ records) :
    (recoverySpec H T).pre (.ledger c)
      (g.addSealed {d | ∃ record ∈ records, record.digest H = d}) := by
  refine ⟨fun r hr => ?_, fun _ item hitem => .inr ⟨item.1, hitems item hitem, rfl⟩⟩
  rw [hrecords] at hr
  cases hr

theorem keeps_quarantineBeforeWrite_recovery (hrecord : record.contentText ∈ T)
    {reasonCode claimToken : String} {expectedState : DeliveryState}
    {batchAttemptId : Option String} {retrySafe : Bool} (hI : I) :
    Keeps (recoverySpec H T) (fun _ => I)
      (quarantineBeforeWrite H record reasonCode claimToken expectedState
        batchAttemptId retrySafe) g := by
  have hmem : ∀ r ∈ [record], r.contentText ∈ T := fun r hr => List.mem_singleton.1 hr ▸ hrecord
  refine keeps_call hmem (fun _ _ => ?_) fun _ _ => hI
  have hparks : (recoverySpec H T).pre
      (.ledger (.markQuarantined record reasonCode claimToken expectedState))
      (g.addSealed {d | ∃ r ∈ [record], r.digest H = d}) :=
    recovery_pre_parks rfl fun item hitem => by rw [List.mem_singleton.1 hitem]; exact .head _
  refine keeps_attempt_call hparks fun r _ => ?_
  split
  · exact keeps_pure hI
  · refine keeps_attempt_call (recovery_pre_ledger rfl rfl) fun r' _ => ?_
    split
    · rename_i row
      split
      · rename_i hcommitted
        refine keeps_attempt_call (fun d hd => ?_) fun r'' _ => ?_
        · refine ⟨record, hrecord, (List.mem_singleton.1 hd).symm, ?_⟩
          simp only [recoverySpec, hcommitted, if_true]
          exact .inr rfl
        · split
          · exact keeps_pure hI
          · exact keeps_pure hI
      · exact keeps_pure hI
    · exact keeps_pure hI
  · exact keeps_raise hI

theorem keeps_writeScalar_recovery (hrecord : record.contentText ∈ T) {c : ClaimedDelivery}
    {payload : Payload} (hI : I) :
    Keeps (recoverySpec H T) (fun _ => I) (writeScalar H record c payload) g := by
  have hmem : ∀ r ∈ [record], r.contentText ∈ T := fun r hr => List.mem_singleton.1 hr ▸ hrecord
  have hpark : ∀ {call : LedgerCall} {g : StoreKnowledge}, call.records = [] →
      (∀ item ∈ call.items, item.1 = record) → (recoverySpec H T).pre (.ledger call)
        (g.addSealed {d | ∃ r ∈ [record], r.digest H = d}) := fun hrecords hitems =>
    recovery_pre_parks hrecords fun item hitem => List.mem_singleton.2 (hitems item hitem)
  have hunknown : ∀ g, Keeps (recoverySpec H T) (fun _ => I) (writeOutcomeUnknown H record c) g := by
    intro g
    refine keeps_call hmem (fun _ _ => ?_) fun _ _ => hI
    refine keeps_bind (J := fun _ => I) ?_ (fun _ _ hg' => keeps_pure hg') fun _ hg' => hg'
    refine keeps_ledgerCall (hpark ?_ ?_) fun _ _ => hI
    · cases hc : c.replayAttempt <;> simp only [ClaimedDelivery.uncertainCall, hc] <;> rfl
    · intro item hitem
      cases hc : c.replayAttempt <;> simp only [ClaimedDelivery.uncertainCall, hc] at hitem <;>
        rw [List.mem_singleton.1 hitem]
  refine keeps_attempt_call trivial fun r _ => ?_
  cases r with
  | ok written =>
      dsimp only
      split
      · have hcall : c.committedCall record = .markReplayCommitted record c.claimToken ∨
            c.committedCall record = .markCommitted record c.claimToken := by
          unfold ClaimedDelivery.committedCall
          split
          · exact .inl rfl
          · exact .inr rfl
        have hremove : ∀ g : StoreKnowledge, record.key ∈ g.committed →
            (recoverySpec H T).pre (.remove [record.digest H]) g := fun g hg d hd =>
          ⟨record, hrecord, (List.mem_singleton.1 hd).symm, hg⟩
        unfold writeAcknowledged
        rcases hcall with hcall | hcall <;> rw [hcall]
        · refine keeps_attempt_ledgerCall (recovery_pre_ledger rfl rfl) (fun _ _ => ?_) fun _ _ => ?_
          · refine keeps_attempt_call (hremove _ (.inr ⟨_, .head _, rfl⟩)) fun r' _ => ?_
            split
            · exact keeps_pure hI
            · exact keeps_pure hI
          · exact keeps_call hmem (fun _ _ => keeps_pure hI) fun _ _ => hI
        · refine keeps_attempt_ledgerCall (recovery_pre_ledger rfl rfl) (fun _ _ => ?_) fun _ _ => ?_
          · refine keeps_attempt_call (hremove _ (.inr ⟨_, .head _, rfl⟩)) fun r' _ => ?_
            split
            · exact keeps_pure hI
            · exact keeps_pure hI
          · exact keeps_call hmem (fun _ _ => keeps_pure hI) fun _ _ => hI
      · exact hunknown _
  | error e =>
      dsimp only
      split
      · refine keeps_call hmem (fun _ _ => ?_) fun _ _ => hI
        refine keeps_bind (J := fun _ => I) ?_ (fun _ _ hg' => keeps_pure hg') fun _ hg' => hg'
        refine keeps_ledgerCall (hpark rfl fun item hitem => ?_) fun _ _ => hI
        rw [List.mem_singleton.1 hitem]
      · exact hunknown _

theorem keeps_crossAndWrite_recovery (hrecord : record.contentText ∈ T) {c : ClaimedDelivery}
    {payload : Payload} (hI : I) :
    Keeps (recoverySpec H T) (fun _ => I) (crossAndWrite H record c payload) g := by
  have hcall : c.startCall record = .startReplayWrite record c.claimToken ∨
      c.startCall record =
        .startWrite record c.claimToken (scalarIdempotencyContractId c.authorizedCapabilities) := by
    unfold ClaimedDelivery.startCall
    split
    · exact .inl rfl
    · exact .inr rfl
  unfold crossAndWrite
  rcases hcall with hcall | hcall <;> rw [hcall]
  all_goals
    refine keeps_attempt_ledgerCall (recovery_pre_ledger rfl rfl)
      (fun _ _ => keeps_writeScalar_recovery hrecord hI) fun e _ => ?_
    split
    · exact keeps_pure hI
    · exact keeps_raise hI
    · exact keeps_writeScalar_recovery hrecord hI

theorem keeps_crossAndWriteBatch_recovery {prepared : List PreparedItem}
    {caps : ConnectorCapabilities} {receipts : Receipts}
    (hprepared : ∀ p ∈ prepared, p.record.contentText ∈ T) (hI : I) :
    Keeps (recoverySpec H T) (fun _ => I) (crossAndWriteBatch H prepared caps receipts) g := by
  have hmem : ∀ r ∈ prepared.map PreparedItem.record, r.contentText ∈ T := by
    intro r hr
    obtain ⟨p, hp, rfl⟩ := List.mem_map.1 hr
    exact hprepared p hp
  have hitems : ∀ item ∈ transitions prepared, item.1 ∈ prepared.map PreparedItem.record := by
    intro item hitem
    obtain ⟨p, hp, rfl⟩ := List.mem_map.1 hitem
    exact List.mem_map_of_mem hp
  have houtcome : ∀ {reasonCode : String} {mark : LedgerCall} {g : StoreKnowledge},
      mark.records = [] → mark.items = transitions prepared →
      Keeps (recoverySpec H T) (fun _ => I) (recordBatchOutcome prepared reasonCode mark) g := by
    intro reasonCode mark g hrecords hmark
    refine keeps_call hmem (fun _ _ => ?_) fun _ _ => hI
    exact keeps_ledgerCall (recovery_pre_parks hrecords (hmark ▸ hitems)) fun _ _ => hI
  refine keeps_attempt_call (recovery_pre_ledger rfl rfl) fun started _ => ?_
  split
  · exact keeps_pure hI
  · exact keeps_pure hI
  · rename_i batchAttemptId
    refine keeps_attempt_call trivial fun written _ => ?_
    split
    · unfold batchNotAcknowledged
      split
      · refine keeps_attempt_bind (houtcome rfl rfl) fun r _ _ => ?_
        split
        · exact keeps_pure hI
        · exact keeps_pure hI
      · refine keeps_attempt_bind (houtcome rfl rfl) fun r _ _ => ?_
        split
        · exact keeps_pure hI
        · exact keeps_pure hI
    · unfold batchAcknowledged
      refine keeps_attempt_ledgerCall (recovery_pre_ledger rfl rfl) (fun _ _ => ?_) fun _ _ => ?_
      · refine keeps_attempt_call (fun d hd => ?_) fun r _ => ?_
        · obtain ⟨p, hp, rfl⟩ := List.mem_map.1 hd
          exact ⟨p.record, hprepared p hp, rfl,
            .inr ⟨(p.record, p.claimToken), List.mem_map_of_mem hp, rfl⟩⟩
        · split
          · exact keeps_pure hI
          · exact keeps_pure hI
      · exact keeps_attempt_call hmem fun _ _ => keeps_pure hI

/-- The contents of the records a job has claimed are in play. -/
def InPlay (T : Set String) (_ : ConnectorCapabilities) (K : List BlindTransportRecord)
    (_ : StoreKnowledge) : Prop :=
  ∀ r ∈ K, r.contentText ∈ T

/-- The delivery paths follow the protocol. -/
theorem recovery_deliveryRules :
    DeliveryRules H (recoverySpec H T) (fun r => r.contentText ∈ T) (InPlay T) where
  silent := recovery_silent
  weaken hg hK := fun r hr => hg r (hK hr)
  claim records _ hrecords hg := by
    refine ⟨⟨hrecords, fun h => ?_⟩, fun _ _ => hrecords, fun _ _ => hg⟩
    cases h
  ambiguous record _ hrecord hg :=
    keeps_call (fun _ hr => List.mem_singleton.1 hr ▸ hg record hrecord)
      (fun _ _ => keeps_pure hg) fun _ _ => hg
  quarantine record _ _ _ _ hrecord hg := keeps_quarantineBeforeWrite_recovery (hg record hrecord) hg
  write record _ _ _ hrecord hg := keeps_crossAndWrite_recovery (hg record hrecord) hg
  writeBatch _ _ hprepared hg :=
    keeps_crossAndWriteBatch_recovery (fun p hp => hg p.record (hprepared p hp)) hg

/-- A replay follows the protocol, forced or not. -/
theorem recovery_replayRules {rt : DestinationRuntime} (recordDigest : String)
    (forceUncertain : Bool) :
    ReplayRules H rt (recoverySpec H T) (fun _ _ => True) recordDigest forceUncertain
      (fun record row _ g => record.contentText ∈ T ∧ record.digest H = recordDigest ∧
        (row.state = .committed → record.key ∈ g.committed)) where
  silent := recovery_silent
  spoolGet _ := by
    refine ⟨trivial, fun r hr => ⟨trivial, fun record hrecord => ?_⟩⟩
    obtain ⟨hcontent, hdigest⟩ := hr record hrecord
    refine ⟨recovery_pre_ledger rfl rfl, fun r' _ => ⟨trivial, fun row hrow => ?_⟩⟩
    refine ⟨hcontent, hdigest, fun hcommitted => ?_⟩
    subst hrow
    simp only [recoverySpec, hcommitted, if_true]
    exact .inr rfl
  remove _ hK hcommitted := by
    obtain ⟨hcontent, hdigest, hkey⟩ := hK
    refine keeps_mono (J := fun _ => True) ⟨fun d hd => ?_, fun _ _ => trivial⟩ fun _ h => h
    exact ⟨_, hcontent, hdigest.trans (List.mem_singleton.1 hd).symm, hkey hcommitted⟩
  rearm _ hK _ _ := by
    refine keeps_call (recovery_pre_ledger rfl rfl) (fun rearmed _ => ?_) fun _ _ => trivial
    split
    · exact keeps_raise trivial
    · exact keeps_deliverClaimed recovery_silent
        (fun _ _ _ => keeps_quarantineBeforeWrite_recovery hK.1 trivial)
        fun _ => keeps_crossAndWrite_recovery hK.1 trivial

/-- The jobs over records whose contents lie in `T`. A replay takes its record from the spool. -/
def Job.Over (T : Set String) : Job → Prop
  | .deliver record => record.contentText ∈ T
  | .deliverMany records => ∀ r ∈ records, r.contentText ∈ T
  | .replay _ _ => True

theorem recovery_body {rt : DestinationRuntime} (job : Job) (hjob : job.Over T) :
    Keeps (recoverySpec H T) (fun _ => True) (job.body H rt) g := by
  have hstart : StartRule (recoverySpec H T) (InPlay T · []) (fun _ => True) g :=
    ⟨fun _ _ => by rintro r ⟨⟩, trivial, fun _ _ _ => trivial⟩
  cases job with
  | deliver record =>
      exact keeps_bind (keeps_deliver recovery_deliveryRules hstart record hjob)
        (fun _ _ _ => keeps_pure trivial) fun _ _ => trivial
  | deliverMany records =>
      exact keeps_deliverMany recovery_deliveryRules hstart records hjob
  | replay recordDigest forceUncertain =>
      exact keeps_bind (keeps_replay (recovery_replayRules recordDigest forceUncertain)
        ⟨fun _ _ => trivial, trivial, fun _ _ _ => trivial⟩)
        (fun _ _ _ => keeps_pure trivial) fun _ _ => trivial

end Programs

/-! ## The invariant -/

section Invariant

variable {H : Host} {T : Set String} {config : SpoolConfig} {ι : Type}

/-- What the invariant says of the two stores alone. -/
structure StoresInv (H : Host) (T : Set String) (config : SpoolConfig) (rows : Ledger)
    (spool : Spool) : Prop where
  origin : ∀ key row, rows key = some row → ∃ r : BlindTransportRecord,
    r.contentText ∈ T ∧ r.key = key ∧ row.recordDigest = r.digest H
  wires : ∀ d row, spool d = some row → ∃ r : BlindTransportRecord,
    r.contentText ∈ T ∧ row.wireJson = r.canonicalWire
  parked : ∀ key row, rows key = some row → row.state.isParked = true →
    SealedSpool.Recoverable H config spool row.recordDigest

/-- What a worker knows is true of the stores. A sealed digest is lost only to a commit. -/
structure KnowledgeInv (H : Host) (T : Set String) (config : SpoolConfig) (rows : Ledger)
    (spool : Spool) (g : StoreKnowledge) : Prop where
  sealed : ∀ d ∈ g.sealed, SealedSpool.Recoverable H config spool d ∨
    ∃ r : BlindTransportRecord, r.contentText ∈ T ∧ r.digest H = d ∧ rows.Committed r.key
  committed : ∀ key ∈ g.committed, rows.Committed key

/-- The invariant of the system. -/
structure RecoveryInv (H : Host) (T : Set String) (config : SpoolConfig) (w : World)
    (g : ι → StoreKnowledge) : Prop where
  stores : StoresInv H T config w.ledger w.spool
  known : ∀ i, KnowledgeInv H T config w.ledger w.spool (g i)

/-- The content determines the identity of a record. -/
theorem key_eq_of_contentText_eq {r r' : BlindTransportRecord}
    (h : r.contentText = r'.contentText) : r.key = r'.key := by
  rw [BlindTransportRecord.key, BlindTransportRecord.key,
    BlindTransportRecord.tenant_eq_of_contentText_eq h,
    BlindTransportRecord.destinationConnector_eq_of_contentText_eq h,
    BlindTransportRecord.transferId_eq_of_contentText_eq h,
    BlindTransportRecord.recordId_eq_of_contentText_eq h]

/-- Records in play with one digest have one identity. -/
theorem key_eq_of_digest_eq (hT : Set.InjOn H.sha256Hex T) {r r' : BlindTransportRecord}
    (hr : r.contentText ∈ T) (hr' : r'.contentText ∈ T) (h : r.digest H = r'.digest H) :
    r.key = r'.key :=
  key_eq_of_contentText_eq (hT hr hr' h)

theorem KnowledgeInv.empty {rows : Ledger} {spool : Spool} :
    KnowledgeInv H T config rows spool .empty :=
  ⟨by rintro d ⟨⟩, by rintro key ⟨⟩⟩

theorem KnowledgeInv.addSealed {rows : Ledger} {spool : Spool} {g : StoreKnowledge}
    {digests : Set String} (h : KnowledgeInv H T config rows spool g)
    (hsealed : ∀ d ∈ digests, SealedSpool.Recoverable H config spool d) :
    KnowledgeInv H T config rows spool (g.addSealed digests) := by
  refine ⟨fun d hd => ?_, h.committed⟩
  rcases hd with hd | hd
  · exact h.sealed d hd
  · exact .inl (hsealed d hd)

theorem KnowledgeInv.addCommitted {rows : Ledger} {spool : Spool} {g : StoreKnowledge}
    {keys : Set DeliveryKey} (h : KnowledgeInv H T config rows spool g)
    (hcommitted : ∀ key ∈ keys, rows.Committed key) :
    KnowledgeInv H T config rows spool (g.addCommitted keys) := by
  refine ⟨h.sealed, fun key hkey => ?_⟩
  rcases hkey with hkey | hkey
  · exact h.committed key hkey
  · exact hcommitted key hkey

/-- The spool keeps every wire. -/
theorem KnowledgeInv.keepsWires {rows : Ledger} {spool spool' : Spool} {g : StoreKnowledge}
    (h : KnowledgeInv H T config rows spool g) (hkeeps : SealedSpool.KeepsWires spool spool') :
    KnowledgeInv H T config rows spool' g :=
  ⟨fun d hd => (h.sealed d hd).imp hkeeps.recoverable id, h.committed⟩

/-- A call that returned parks a row only when it is a parking call. -/
theorem transition?_parks {inputs : LedgerInputs} {c : LedgerCall} {t : Transition}
    (h : c.transition? inputs = some t) (ht : t.target.isParked = true) : c.parks = true := by
  cases c with
  | claimMany _ _ => cases h
  | rearmForRetry _ _ _ => cases h
  | get _ => cases h
  | markQuarantined _ _ _ _ => rfl
  | markQuarantinedMany _ _ _ => rfl
  | markUncertain _ _ _ => rfl
  | markReplayUncertain _ _ _ => rfl
  | markUncertainMany _ _ => rfl
  | startWrite _ _ _ => cases h; cases ht
  | startReplayWrite _ _ => cases h; cases ht
  | startWriteMany _ _ => cases h; cases ht
  | markCommitted _ _ => cases h; cases ht
  | markReplayCommitted _ _ => cases h; cases ht
  | markCommittedMany _ => cases h; cases ht

/-- A ledger call keeps what is said of the stores: it parks only rows its worker has sealed. -/
theorem StoresInv.ledger (hT : Set.InjOn H.sha256Hex T) {rows rows' : Ledger} {spool : Spool}
    {inputs : LedgerInputs} {c : LedgerCall} {g : StoreKnowledge}
    (h : StoresInv H T config rows spool) (hg : KnowledgeInv H T config rows spool g)
    (hpre : (recoverySpec H T).pre (.ledger c) g)
    (hmove : ∀ key, LedgerCall.RowMove H inputs c key (rows key) (rows' key)) :
    StoresInv H T config rows' spool := by
  refine ⟨fun key row' hrow' => ?_, h.wires, fun key row' hrow' hparked => ?_⟩
  · have hkey := hmove key
    rw [hrow'] at hkey
    generalize hold : rows key = old at hkey
    cases hkey with
    | same => exact h.origin key row' hold
    | @insert record _ _ _ hmem hkeyeq => exact ⟨record, hpre.1 record hmem, hkeyeq, rfl⟩
    | @reclaim _ _ _ _ row _ _ _ _ => exact h.origin key row hold
    | @transition _ _ _ _ row _ _ _ _ => exact h.origin key row hold
    | @rearm _ _ _ _ _ _ row _ _ _ _ _ => exact h.origin key row hold
  · have hkey := hmove key
    rw [hrow'] at hkey
    generalize hold : rows key = old at hkey
    cases hkey with
    | same => exact h.parked key row' hold hparked
    | insert _ _ => cases hparked
    | @reclaim _ _ _ _ row _ _ _ hstate =>
        change row.state.isParked = true at hparked
        rw [hstate] at hparked
        cases hparked
    | @rearm _ _ _ _ _ _ row _ _ _ _ _ =>
        have hnone : ∀ a : DeliveryState, (rearmTarget a).isParked = false := by
          intro a
          cases a <;> decide
        change (rearmTarget row.state).isParked = true at hparked
        rw [hnone] at hparked
        cases hparked
    | @transition t record claimToken instant row ht hitem hkeyeq happlies =>
        have hdigest := applies_digest happlies
        change SealedSpool.Recoverable H config spool row.recordDigest
        rw [hdigest]
        have hsealed := hpre.2 (transition?_parks ht hparked) _ hitem
        rcases hg.sealed _ hsealed with hrecoverable | ⟨r, hr, hrdigest, row₀, hrow₀, hcommitted⟩
        · exact hrecoverable
        · -- The digest was removed after a commit, but a committed row cannot be parked.
          obtain ⟨r', hr', hr'key, hr'digest⟩ := h.origin key row hold
          have hsame : r.key = r'.key :=
            key_eq_of_digest_eq hT hr hr' (hrdigest.trans (hdigest.symm.trans hr'digest))
          rw [hsame, hr'key, hold] at hrow₀
          cases hrow₀
          have hexpected := applies_state H happlies
          have hnone : ∀ b : DeliveryState, DeliveryState.step .committed b = false := by
            intro b
            cases b <;> rfl
          have hstep := transition?_states ht
          rw [← hexpected, hcommitted, hnone] at hstep
          cases hstep

/-- A worker's knowledge after its own ledger call. -/
theorem KnowledgeInv.ledger {fails : Prop} {rows rows' : Ledger} {spool : Spool}
    {inputs : LedgerInputs} {c : LedgerCall} {g : StoreKnowledge} {r : Except Exn c.Answer}
    (h : KnowledgeInv H T config rows' spool g)
    (hstep : StoreStep fails (c.exec H inputs) rows r rows') :
    KnowledgeInv H T config rows' spool ((recoverySpec H T).next (.ledger c) g r) := by
  have hcommits : KnowledgeInv H T config rows' spool
      (if r.isOk && c.commits then g.addCommitted {k | ∃ item ∈ c.items, item.1.key = k}
        else g) := by
    cases r with
    | error e => exact h
    | ok a =>
        cases hcommit : c.commits with
        | false => exact h
        | true =>
            refine h.addCommitted ?_
            rintro _ ⟨item, hitem, rfl⟩
            obtain ⟨t, ht, htarget⟩ := (@transition?_commits inputs) hcommit
            rcases LedgerCall.exec_transition H ht (storeStep_ok hstep) with
              ⟨hnil, -⟩ | ⟨instant, hitems, -⟩
            · rw [hnil] at hitem
              cases hitem
            · obtain ⟨row, hrow, happlies, hnew⟩ := hitems item hitem
              exact ⟨_, hnew, htarget⟩
  cases c with
  | get record =>
      cases r with
      | error e => exact h
      | ok found =>
          cases found with
          | none => exact h
          | some row =>
              simp only [recoverySpec]
              split
              · rename_i hcommitted
                refine h.addCommitted fun key hkey => ?_
                have hread := LedgerCall.get_ok H (storeStep_ok hstep)
                exact ⟨row, by rw [hkey, hread.1, hread.2], hcommitted⟩
              · exact h
  | _ => exact hcommits

/-- Sealing records keeps the invariant and lets the worker know their digests. -/
theorem RecoveryInv.quarantine [DecidableEq ι] {fails : Prop} {w : World}
    {g : ι → StoreKnowledge} {i : ι} {records : List BlindTransportRecord} {reasonCode : String}
    {instant : Utc.Instant} {r : Except Exn Unit} {spool' : Spool}
    (h : RecoveryInv H T config w g) (hrecords : ∀ r ∈ records, r.contentText ∈ T)
    (hstep : StoreStep fails (SealedSpool.quarantineMany H config instant records reasonCode)
      w.spool r spool') :
    RecoveryInv H T config { w with spool := spool' }
      (Function.update g i ((recoverySpec H T).next (.quarantine records reasonCode) (g i) r)) := by
  have hok : (spool' = w.spool ∧ r.isOk = false) ∨
      SealedSpool.quarantineMany H config instant records reasonCode w.spool = .ok () spool' := by
    cases hstep with
    | returned hrun => exact .inr hrun
    | raised hrun => exact .inl ⟨SealedSpool.atomic_quarantineMany _ _ _ _ _ _ hrun, rfl⟩
    | failed => exact .inl ⟨rfl, rfl⟩
    | failedAfter _ _ hrun => exact .inr hrun
  rcases hok with ⟨rfl, herror⟩ | hrun
  · have hnext : (recoverySpec H T).next (.quarantine records reasonCode) (g i) r = g i := by
      simp only [recoverySpec, herror, Bool.false_eq_true, if_false]
    rw [hnext, Function.update_eq_self]
    exact h
  · obtain ⟨hkeeps, hsealed, hinserted⟩ := SealedSpool.quarantineMany_ok hrun
    refine ⟨⟨h.stores.origin, fun d row hrow => ?_, fun key row hrow hparked => ?_⟩, fun j => ?_⟩
    · rcases hinserted d row hrow with ⟨old, hold, hwire⟩ | ⟨record, hrecord, -, hwire⟩
      · obtain ⟨record, hrecord, hcanonical⟩ := h.stores.wires d old hold
        exact ⟨record, hrecord, (congrArg Prod.fst hwire).trans hcanonical⟩
      · exact ⟨record, hrecords record hrecord, congrArg Prod.fst hwire⟩
    · exact hkeeps.recoverable (h.stores.parked key row hrow hparked)
    · have hknown := (h.known j).keepsWires hkeeps
      by_cases hj : j = i
      · subst hj
        rw [Function.update_self]
        simp only [recoverySpec]
        split
        · refine hknown.addSealed ?_
          rintro _ ⟨record, hrecord, rfl⟩
          exact hsealed record hrecord
        · exact hknown
      · rw [Function.update_of_ne hj]
        exact hknown

/-- Removing the digests of committed identities keeps the invariant. -/
theorem RecoveryInv.remove (hT : Set.InjOn H.sha256Hex T) {fails : Prop} {w : World}
    {g : ι → StoreKnowledge} {i : ι} {digests : List String} {r : Except Exn Nat}
    {spool' : Spool} (h : RecoveryInv H T config w g)
    (hpre : (recoverySpec H T).pre (.remove digests) (g i))
    (hstep : StoreStep fails (SealedSpool.removeMany digests) w.spool r spool') :
    RecoveryInv H T config { w with spool := spool' } g := by
  have hremoved : spool' = w.spool ∨
      spool' = fun digest => if digest ∈ digests then none else w.spool digest := by
    cases hstep with
    | returned hrun => exact .inr (SealedSpool.removeMany_ok hrun)
    | raised hrun => exact .inl (SealedSpool.atomic_removeMany _ _ _ _ hrun)
    | failed => exact .inl rfl
    | failedAfter _ _ hrun => exact .inr (SealedSpool.removeMany_ok hrun)
  rcases hremoved with rfl | rfl
  · exact h
  · have hkept : ∀ {d}, d ∉ digests → SealedSpool.Recoverable H config w.spool d →
        SealedSpool.Recoverable H config
          (fun digest => if digest ∈ digests then none else w.spool digest) d := by
      rintro d hd ⟨row, record, hrow, hread⟩
      exact ⟨row, record, (if_neg hd).trans hrow, hread⟩
    refine ⟨⟨h.stores.origin, fun d row hrow => ?_, fun key row hrow hparked => ?_⟩, fun j => ?_⟩
    · dsimp only at hrow
      split at hrow
      · cases hrow
      · exact h.stores.wires d row hrow
    · by_cases hd : row.recordDigest ∈ digests
      · -- Its digest belongs to a committed identity, which is the row's own.
        obtain ⟨record, hrecord, hdigest, hcommitted⟩ := hpre _ hd
        obtain ⟨r', hr', hkey, hrow'⟩ := h.stores.origin key row hrow
        obtain ⟨row₀, hrow₀, hstate⟩ := (h.known i).committed _ hcommitted
        rw [key_eq_of_digest_eq hT hrecord hr' (hdigest.trans hrow'), hkey] at hrow₀
        have hsame : some row₀ = some row := hrow₀.symm.trans hrow
        cases hsame
        rw [hstate] at hparked
        cases hparked
      · exact hkept hd (h.stores.parked key row hrow hparked)
    · refine ⟨fun d hd => ?_, (h.known j).committed⟩
      by_cases hmem : d ∈ digests
      · obtain ⟨record, hrecord, hdigest, hcommitted⟩ := hpre d hmem
        exact .inr ⟨record, hrecord, hdigest, (h.known i).committed _ hcommitted⟩
      · exact ((h.known j).sealed d hd).imp (hkept hmem) id

/-- A record read from the spool is in play. -/
theorem RecoveryInv.spoolGet {fails : Prop} {w : World} {g : ι → StoreKnowledge}
    {recordDigest : String} {r : Except Exn (Option BlindTransportRecord)} {spool' : Spool}
    (h : RecoveryInv H T config w g)
    (hstep : StoreStep fails (SealedSpool.getRecord H config recordDigest) w.spool r spool') :
    spool' = w.spool ∧ ∀ record : BlindTransportRecord, r = .ok (some record) →
      record.contentText ∈ T ∧ record.digest H = recordDigest := by
  refine ⟨storeStep_readOnly (SealedSpool.readOnly_getRecord _) hstep, fun record hrecord => ?_⟩
  · subst hrecord
    obtain ⟨row, hrow, hread⟩ := SealedSpool.getRecord_ok (storeStep_ok hstep)
    obtain ⟨hdigest, hwire⟩ := SealedSpool.readRow_ok hread
    obtain ⟨r', hr', hcanonical⟩ := h.stores.wires recordDigest row hrow
    have hcontent := BlindTransportRecord.contentText_eq_of_canonicalWire_eq
      (hwire.trans hcanonical)
    exact ⟨hcontent ▸ hr', hdigest⟩

end Invariant

/-! ## The system -/

/-- Stores that may fail before or after their effect, workers that may crash, a connector that
advertises whatever it likes. -/
def faultyEnvironment (spool : SpoolConfig) : Environment where
  spool := spool
  advertised _ _ := True
  storesFail := True
  mayCrash := True
  quiet _ _ := False

theorem recovery_preserves {ι : Type} [DecidableEq ι] (H : Host) (spool : SpoolConfig)
    (rt : ι → DestinationRuntime) (T : Set String) (hT : Set.InjOn H.sha256Hex T) :
    (recoveryProtocol H T).Preserves
      (runtimeSystem H (faultyEnvironment spool) rt (Job.Over T)) anyStep
      (RecoveryInv H T spool) where
  body i job _ _ := recovery_body job.1 job.2
  start {_ g} i job h hidle := ⟨g i, hidle, by rwa [Function.update_eq_self]⟩
  finish {s g} i job h _ := by
    refine ⟨h.stores, fun j => ?_⟩
    by_cases hj : j = i
    · subst hj
      rw [Function.update_self]
      exact .empty
    · rw [Function.update_of_ne hj]
      exact h.known j
  crash {s g} i _ h := by
    refine ⟨h.stores, fun j => ?_⟩
    by_cases hj : j = i
    · subst hj
      rw [Function.update_self]
      exact .empty
    · rw [Function.update_of_ne hj]
      exact h.known j
  quiet _ hquiet := hquiet.elim
  call {c g i job op k r s'} hc _ hpre _ hexec := by
    have h : RecoveryInv H T spool c.shared g := hc.inv
    have hsame : RecoveryInv H T spool c.shared (Function.update g i (g i)) := by
      rw [Function.update_eq_self]
      exact h
    cases hexec with
    | capabilities => exact ⟨trivial, hsame⟩
    | authorizeRecord => exact ⟨trivial, hsame⟩
    | authorizeCapability => exact ⟨trivial, hsame⟩
    | openRecord => exact ⟨trivial, hsame⟩
    | resolveForeignKey => exact ⟨trivial, hsame⟩
    | writeRecords => exact ⟨trivial, hsame.stores, hsame.known⟩
    | writeBatch => exact ⟨trivial, hsame.stores, hsame.known⟩
    | quarantine records reasonCode instant hstep => exact ⟨trivial, h.quarantine hpre hstep⟩
    | remove digests hstep =>
        refine ⟨trivial, ?_⟩
        change RecoveryInv H T spool _ (Function.update g i (g i))
        rw [Function.update_eq_self]
        exact h.remove hT hpre hstep
    | spoolGet recordDigest hstep =>
        obtain ⟨rfl, hallowed⟩ := h.spoolGet hstep
        exact ⟨hallowed, hsame⟩
    | ledger call inputs hstep =>
        have hmove := storeStep_rowMove hstep
        refine ⟨trivial, h.stores.ledger hT (h.known i) hpre hmove, fun j => ?_⟩
        have hknown : ∀ j, KnowledgeInv H T spool _ c.shared.spool (g j) := fun j =>
          ⟨fun d hd => ((h.known j).sealed d hd).imp id fun ⟨r, hr, hd, hcommitted⟩ =>
            ⟨r, hr, hd, committed_stays hmove hcommitted⟩,
          fun key hkey => committed_stays hmove ((h.known j).committed key hkey)⟩
        by_cases hj : j = i
        · subst hj
          rw [Function.update_self]
          exact (hknown j).ledger hstep
        · rw [Function.update_of_ne hj]
          exact hknown j

/-- **Quarantined records are recoverable.** However the calls of any number of workers interleave,
wherever they crash and whichever store calls fail: in every reachable state the record of a row
that waits for a replay is in the spool under the row's digest, and `get` decodes it to a record
with that digest. The hash is assumed collision-free on the contents of the delivered records. -/
theorem quarantined_recoverable {ι : Type} [DecidableEq ι] (H : Host) (spool : SpoolConfig)
    (rt : ι → DestinationRuntime) (capabilities : ConnectorCapabilities) (T : Set String)
    (hT : Set.InjOn H.sha256Hex T)
    {c : Config Op Op.Res Exn World ι {job : Job // job.Over T} (List DeliveryReceipt)}
    (hc : (runtimeSystem H (faultyEnvironment spool) rt (Job.Over T)).Reaches
      anyStep (System.initial { capabilities := capabilities }) c) (key : DeliveryKey)
    (row : LedgerRow) (hrow : c.shared.ledger key = some row) (hparked : row.state.isParked = true) :
    ∃ record : BlindTransportRecord, record.digest H = row.recordDigest ∧
      SealedSpool.getRecord H spool row.recordDigest c.shared.spool =
        .ok (some record) c.shared.spool := by
  have hinitial : RecoveryInv H T spool { capabilities := capabilities }
      (fun _ : ι => StoreKnowledge.empty) :=
    ⟨⟨by rintro _ _ ⟨⟩, by rintro _ _ ⟨⟩, by rintro _ _ ⟨⟩⟩, fun _ => .empty⟩
  obtain ⟨g, hg⟩ := Protocol.reaches_coherent (recovery_preserves H spool rt T hT) hinitial hc
  obtain ⟨r, -, -, hdigest⟩ := hg.inv.stores.origin key row hrow
  obtain ⟨spoolRow, record, hspool, hread⟩ := hg.inv.stores.parked key row hrow hparked
  refine ⟨record, (SealedSpool.readRow_ok hread).1, ?_⟩
  have hvalid : SealedSpool.validateDigest row.recordDigest = .ok () := by
    have hhex : isLowerHex 64 row.recordDigest = true := hdigest ▸ H.sha256Hex_digits _
    unfold SealedSpool.validateDigest
    rw [hhex]
    rfl
  exact SealedSpool.getRecord_of_readRow hvalid hspool hread

/-- The contents of the sample. -/
def Sample.contents : Set String := {(record standardHost).contentText}

/-- One worker delivers the sample, and the outcome of its write stays unknown. -/
theorem Sample.reaches_unresolved :
    (runtimeSystem standardHost (faultyEnvironment (spool standardHost))
      (fun _ : Unit => runtime standardHost) (Job.Over contents)).Reaches anyStep
      (System.initial { capabilities := Sample.capabilities })
      ⟨unresolved.world, fun _ => none⟩ := by
  obtain ⟨receipts, hsteps⟩ := steps_unresolved tolerates_anyCall
  exact (@Services.reaches_job _ _ _ _ (faultyEnvironment (spool standardHost))
      (fun _ : Unit => runtime standardHost) (Job.Over contents) _ _ (fun _ => none) ()
          Sample.capabilities) (fun _ _ => trivial)
    ⟨job, rfl⟩ (fun _ _ _ _ _ _ => trivial) rfl rfl hsteps

/-- The row of the sample is uncertain, and the spool gives a record with its digest. -/
theorem quarantined_recoverable_unresolved :
    ∃ row, Sample.unresolved.world.ledger (Sample.record standardHost).key = some row ∧
      ∃ record : BlindTransportRecord, record.digest standardHost = row.recordDigest ∧
        SealedSpool.getRecord standardHost (Sample.spool standardHost) row.recordDigest
          Sample.unresolved.world.spool = .ok (some record) Sample.unresolved.world.spool := by
  obtain ⟨row, hrow, hstate⟩ := Sample.unresolved_row
  refine ⟨row, hrow, ?_⟩
  exact quarantined_recoverable standardHost (Sample.spool standardHost)
    (fun _ : Unit => Sample.runtime standardHost) Sample.capabilities Sample.contents
    (Set.injOn_singleton _ _) Sample.reaches_unresolved (Sample.record standardHost).key row hrow
    (by rw [hstate]; rfl)

end Polymorph
