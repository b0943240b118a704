import Polymorph.Relay.Queue
import Polymorph.Time.Isoformat

/-!
# What the relay calls do

The tables keep one row for each transfer identity, across queue and dead letters. Enqueueing
appends rows without a lease, dead-lettering moves a row with its metadata, fencing overwrites the
lease of the rows it names, and acknowledging removes exactly the rows whose lease it names.
-/

set_option autoImplicit false

namespace Polymorph

open JsonText Transaction Table Utc

/-- The transfer identities in both tables. -/
def RelayTables.identities (tables : RelayTables) : List RelayKey :=
  tables.queue.map (fun row => row.key) ++ tables.deadLetters.map fun row => row.key

/-- The invariant of the tables. -/
structure RelayInv (tables : RelayTables) : Prop where
  digests : UniqueBy (fun row : QueueRow => row.recordDigest) tables.queue
  identities : tables.identities.Nodup
  expiries : ∀ row ∈ tables.queue, ∀ lease ∈ row.lease,
    ∃ expires : Instant, lease.leaseExpiresAt = expires.isoformat

theorem RelayInv.empty : RelayInv {} :=
  ⟨UniqueBy.nil, List.nodup_nil, fun _ h => nomatch h⟩

section Invariant

variable {tables : RelayTables}

/-- The invariant without some rows of the queue. -/
theorem RelayInv.filter_queue (h : RelayInv tables) (p : QueueRow → Bool) :
    RelayInv { tables with queue := tables.queue.filter p } where
  digests := h.digests.sublist List.filter_sublist
  identities := List.Nodup.sublist ((List.filter_sublist.map _).append_right _) h.identities
  expiries row hrow := h.expiries row (List.mem_of_mem_filter hrow)

theorem RelayInv.key_notMem_deadLetters (h : RelayInv tables) {row : QueueRow}
    (hrow : row ∈ tables.queue) {letter : DeadLetterRow} (hletter : letter ∈ tables.deadLetters) :
    letter.key ≠ row.key := by
  have hdisjoint := (List.nodup_append.1 h.identities).2.2
  intro hkey
  exact hdisjoint row.key (List.mem_map_of_mem hrow) letter.key (List.mem_map_of_mem hletter)
    hkey.symm

theorem RelayInv.eq_of_key (h : RelayInv tables) {a b : QueueRow} (ha : a ∈ tables.queue)
    (hb : b ∈ tables.queue) (hkey : a.key = b.key) : a = b :=
  List.inj_on_of_nodup_map (List.nodup_append.1 h.identities).1 ha hb hkey

/-- The invariant after an update of the queue that keeps the metadata. -/
theorem RelayInv.map_queue (h : RelayInv tables) {f : QueueRow → QueueRow}
    (hmetadata : ∀ row, (f row).toRelayMetadata = row.toRelayMetadata)
    (hexpiries : ∀ row ∈ tables.queue, ∀ lease ∈ (f row).lease,
      ∃ expires : Instant, lease.leaseExpiresAt = expires.isoformat) :
    RelayInv { tables with queue := tables.queue.map f } where
  digests := by
    have hsame : (tables.queue.map f).map (fun row => row.recordDigest) =
        tables.queue.map fun row => row.recordDigest := by
      rw [List.map_map]
      apply List.map_congr_left
      intro row _
      exact congrArg RelayMetadata.recordDigest (hmetadata row)
    unfold UniqueBy
    rw [hsame]
    exact h.digests
  identities := by
    have hsame : (tables.queue.map f).map (fun row => row.key) =
        tables.queue.map fun row => row.key := by
      rw [List.map_map]
      apply List.map_congr_left
      intro row _
      exact congrArg RelayMetadata.key (hmetadata row)
    unfold RelayTables.identities
    rw [hsame]
    exact h.identities
  expiries := by
    intro row hrow lease hlease
    obtain ⟨old, hold, rfl⟩ := List.mem_map.1 hrow
    exact hexpiries old hold lease hlease

end Invariant

/-- The row is still queued, whatever became of its lease. -/
def Queued (row : QueueRow) (tables : RelayTables) : Prop :=
  ∃ row' ∈ tables.queue, row'.toRelayMetadata = row.toRelayMetadata ∧
    row'.wireJson = row.wireJson

/-- The row is dead-lettered with its metadata. -/
def DeadLettered (row : QueueRow) (tables : RelayTables) : Prop :=
  ∃ letter ∈ tables.deadLetters, letter.toRelayMetadata = row.toRelayMetadata

theorem Queued.of_mem {row : QueueRow} {tables : RelayTables} (h : row ∈ tables.queue) :
    Queued row tables := ⟨row, h, rfl, rfl⟩

namespace SealedRelayQueue

variable {H : Host} {ed25519 : List UInt8 → ByteArray → List UInt8 → Bool} {config : RelayConfig}
  {tables tables' : RelayTables}

/-! ## Enqueueing -/

/-- What enqueueing leaves behind. -/
structure Enqueued (tables tables' : RelayTables) : Prop where
  inv : RelayInv tables'
  deadLetters : tables'.deadLetters = tables.deadLetters
  appended : ∃ added : List QueueRow, tables'.queue = tables.queue ++ added ∧
    ∀ row ∈ added, row.lease = none

theorem Enqueued.refl (h : RelayInv tables) : Enqueued tables tables :=
  ⟨h, rfl, [], (List.append_nil _).symm, fun _ h => nomatch h⟩

theorem Enqueued.trans {t : RelayTables} (h : Enqueued tables tables')
    (h' : Enqueued tables' t) : Enqueued tables t := by
  obtain ⟨added, hqueue, hnone⟩ := h.appended
  obtain ⟨added', hqueue', hnone'⟩ := h'.appended
  refine ⟨h'.inv, h'.deadLetters.trans h.deadLetters, added ++ added', ?_, ?_⟩
  · rw [hqueue', hqueue, List.append_assoc]
  · intro row hrow
    rcases List.mem_append.1 hrow with hrow | hrow
    · exact hnone row hrow
    · exact hnone' row hrow

/-- A new row under a new digest and a new identity. -/
theorem enqueued_insert (h : RelayInv tables) {row : QueueRow}
    (hdigest : tables.queueRow row.recordDigest = none)
    (hqueue : tables.queueIdentity row.key = none)
    (hdead : tables.deadLetterIdentity row.key = none) (hlease : row.lease = none) :
    Enqueued tables { tables with queue := tables.queue ++ [row] } := by
  have hnew : row.key ∉ tables.identities := by
    intro hmem
    rcases List.mem_append.1 hmem with hmem | hmem
    · obtain ⟨other, hother, hkey⟩ := List.mem_map.1 hmem
      exact selectBy_eq_none.1 hqueue other hother hkey
    · obtain ⟨other, hother, hkey⟩ := List.mem_map.1 hmem
      exact selectBy_eq_none.1 hdead other hother hkey
  refine ⟨⟨h.digests.insert hdigest, ?_, ?_⟩, rfl, [row], rfl, ?_⟩
  · have hperm : (row.key :: tables.identities).Perm
        (RelayTables.identities { tables with queue := tables.queue ++ [row] }) := by
      unfold RelayTables.identities
      rw [List.map_append, List.append_assoc]
      exact List.perm_middle.symm
    exact hperm.nodup_iff.1 (List.nodup_cons.2 ⟨hnew, h.identities⟩)
  · intro other hother lease hother'
    rcases List.mem_append.1 hother with hmem | hmem
    · exact h.expiries other hmem lease hother'
    · rw [List.mem_singleton.1 hmem, hlease] at hother'
      cases hother'
  · intro other hother
    rw [List.mem_singleton.1 hother]
    exact hlease

theorem insertRow_ok {row : QueueRow} {u : Unit}
    (h : insertRow row tables = .ok u tables') :
    tables.queueRow row.recordDigest = none ∧
      tables' = { tables with queue := tables.queue ++ [row] } := by
  unfold insertRow at h
  rw [bind_apply, get_apply] at h
  obtain ⟨hunique, h⟩ := of_guard_eq_ok h
  rw [not_or] at hunique
  exact ⟨Option.not_isSome_iff_eq_none.1 hunique.1, (set_eq_ok_iff.1 h).symm⟩

theorem enqueueRow_ok (h : RelayInv tables) {row : QueueRow} (hlease : row.lease = none)
    {result : RelayReceipt × QueueRow} (hok : enqueueRow row tables = .ok result tables') :
    Enqueued tables tables' := by
  unfold enqueueRow at hok
  rw [bind_apply, get_apply] at hok
  dsimp only at hok
  cases hidentity : tables.queueIdentity row.key with
  | some identity =>
      rw [hidentity] at hok
      dsimp only at hok
      split at hok
      · cases hok
      · split at hok
        · cases hok
        · cases hok
          exact Enqueued.refl h
  | none =>
      rw [hidentity] at hok
      obtain ⟨hdead, hok⟩ := of_guard_eq_ok hok
      obtain ⟨_, t₁, hinsert, hok⟩ := bind_eq_ok_iff.1 hok
      obtain ⟨hdigest, rfl⟩ := insertRow_ok hinsert
      obtain ⟨-, rfl⟩ := pure_eq_ok_iff.1 hok
      exact enqueued_insert h hdigest hidentity (Option.not_isSome_iff_eq_none.1 hdead) hlease

theorem enqueueRows_ok {rows : List QueueRow} (h : RelayInv tables)
    (hlease : ∀ row ∈ rows, row.lease = none) {results : List (RelayReceipt × QueueRow)}
    (hok : enqueueRows rows tables = .ok results tables') : Enqueued tables tables' := by
  induction rows generalizing tables results with
  | nil =>
      cases hok
      exact Enqueued.refl h
  | cons row rest ih =>
      unfold enqueueRows at hok
      obtain ⟨first, t₁, hfirst, hok⟩ := bind_eq_ok_iff.1 hok
      obtain ⟨others, t₂, hothers, hok⟩ := bind_eq_ok_iff.1 hok
      cases hok
      have henqueued := enqueueRow_ok h (hlease row List.mem_cons_self) hfirst
      apply henqueued.trans
      exact ih henqueued.inv (fun row hrow => hlease row (List.mem_cons_of_mem _ hrow)) hothers

theorem readOnly_assertQueuePostconditions (rows : List QueueRow) :
    ReadOnly (assertQueuePostconditions rows) := by
  induction rows with
  | nil => exact readOnly_pure _
  | cons row rest ih =>
      apply readOnly_get.bind
      intro t
      exact readOnly_guard ih

theorem authorize_leases {registry : Option SourceTrustStore} {times : Nat → EnqueueTimes}
    {index : Nat} {records : List BlindTransportRecord} {rows : List QueueRow}
    (h : authorize H ed25519 config registry times index records = .ok rows) :
    ∀ row ∈ rows, row.lease = none := by
  induction records generalizing index rows with
  | nil =>
      cases h
      exact fun _ h => nomatch h
  | cons record rest ih =>
      unfold authorize at h
      obtain ⟨_, -, h⟩ := bind_eq_ok h
      obtain ⟨others, hothers, h⟩ := bind_eq_ok h
      cases h
      intro row hrow
      rcases List.mem_cons.1 hrow with rfl | hrow
      · rfl
      · exact ih hothers row hrow

/-- `enqueue_many` raises before anything is written, or it appends rows. -/
theorem enqueueMany_cases (h : RelayInv tables) (registry : Option SourceTrustStore)
    (times : Nat → EnqueueTimes) (records : List BlindTransportRecord) :
    (∃ x, enqueueMany H ed25519 config registry times records tables = .error x tables) ∨
    ∃ receipts tables', enqueueMany H ed25519 config registry times records tables =
      .ok receipts tables' ∧ Enqueued tables tables' := by
  unfold enqueueMany
  cases prepareBatch config 0 0 records with
  | error x => exact .inl ⟨x, rfl⟩
  | ok _ =>
      rw [lift_ok_bind rfl]
      by_cases hempty : records = []
      · rw [if_pos hempty]
        exact .inr ⟨[], tables, rfl, Enqueued.refl h⟩
      · rw [if_neg hempty]
        cases hrows : authorize H ed25519 config registry times 0 records with
        | error x => exact .inl ⟨x, rfl⟩
        | ok rows =>
            rw [lift_ok_bind rfl]
            cases hresult : enqueuePrepared rows tables with
            | error x t =>
                obtain rfl := atomic_transaction _ _ _ _ hresult
                exact .inl ⟨x, rfl⟩
            | ok receipts t =>
                refine .inr ⟨receipts, t, rfl, ?_⟩
                unfold enqueuePrepared at hresult
                rw [transaction_eq_ok_iff] at hresult
                obtain ⟨enqueued, t₁, henqueued, hresult⟩ := bind_eq_ok_iff.1 hresult
                obtain ⟨_, t₂, hchecked, hresult⟩ := bind_eq_ok_iff.1 hresult
                obtain ⟨-, rfl⟩ := pure_eq_ok_iff.1 hresult
                have hsame := (readOnly_assertQueuePostconditions _).1 _ _ _ hchecked
                rw [hsame]
                exact enqueueRows_ok h (authorize_leases hrows) henqueued

/-! ## Dead letters -/

/-- What dead-lettering some rows leaves behind. -/
structure Buried (rows : List QueueRow) (tables tables' : RelayTables) : Prop where
  inv : RelayInv tables'
  queue : tables'.queue =
    tables.queue.filter fun r => r.recordDigest ∉ rows.map fun row => row.recordDigest
  kept : ∀ letter ∈ tables.deadLetters, letter ∈ tables'.deadLetters
  buried : ∀ row ∈ rows, DeadLettered row tables'

theorem Buried.nil (h : RelayInv tables) : Buried [] tables tables :=
  ⟨h, by simp, fun _ h => h, fun _ h => nomatch h⟩

theorem deadLetter_ok (h : RelayInv tables) {row : QueueRow} (hrow : row ∈ tables.queue)
    {wire reasonCode : String} {now : Instant} {expected : DeadLetterRow}
    (hok : deadLetter row wire reasonCode now tables = .ok expected tables') :
    Buried [row] tables tables' := by
  have hqueue : tables.queue.filter (fun r => r.recordDigest ∉
      [row].map fun row : QueueRow => row.recordDigest) =
      tables.queue.filter fun r => r.recordDigest ≠ row.recordDigest := by
    apply List.filter_congr
    intro r _
    simp
  have hinv := h.filter_queue fun r => decide (r.recordDigest ≠ row.recordDigest)
  unfold deadLetter at hok
  rw [bind_apply, get_apply] at hok
  dsimp only at hok
  cases hexisting : tables.deadLetterRow row.recordDigest with
  | none =>
      rw [hexisting] at hok
      obtain ⟨_, t₁, hset, hok⟩ := bind_eq_ok_iff.1 hok
      obtain ⟨-, rfl⟩ := pure_eq_ok_iff.1 hok
      obtain rfl := set_eq_ok_iff.1 hset
      refine ⟨⟨hinv.digests, ?_, hinv.expiries⟩, hqueue.symm,
        fun letter h => List.mem_append_left _ h, ?_⟩
      · -- The row has left the queue, so its identity is free for the letter.
        have hnew : row.key ∉ RelayTables.identities { tables with
            queue := tables.queue.filter fun r => r.recordDigest ≠ row.recordDigest } := by
          intro hmem
          rcases List.mem_append.1 hmem with hmem | hmem
          · obtain ⟨other, hother, hkey⟩ := List.mem_map.1 hmem
            obtain ⟨hother, hdigest⟩ := List.mem_filter.1 hother
            rw [h.eq_of_key hother hrow hkey] at hdigest
            simp at hdigest
          · obtain ⟨letter, hletter, hkey⟩ := List.mem_map.1 hmem
            exact h.key_notMem_deadLetters hrow hletter hkey
        have hperm : (row.key :: RelayTables.identities { tables with
            queue := tables.queue.filter fun r => r.recordDigest ≠ row.recordDigest }).Perm
            (RelayTables.identities
              { queue := tables.queue.filter fun r => r.recordDigest ≠ row.recordDigest
                deadLetters := tables.deadLetters ++ [
                  { toRelayMetadata := row.toRelayMetadata, reasonCode := reasonCode
                    deadLetteredAt := now.isoformat, wireJson := wire }] }) := by
          unfold RelayTables.identities
          rw [List.map_append, ← List.append_assoc]
          exact (List.perm_append_singleton _ _).symm
        exact hperm.nodup_iff.1 (List.nodup_cons.2 ⟨hnew, hinv.identities⟩)
      · intro other hother
        rw [List.mem_singleton.1 hother]
        exact ⟨_, List.mem_append_right _ List.mem_cons_self, rfl⟩
  | some existing =>
      rw [hexisting] at hok
      obtain ⟨hsame, hok⟩ := of_guard_eq_ok hok
      obtain ⟨_, t₁, hset, hok⟩ := bind_eq_ok_iff.1 hok
      obtain ⟨-, rfl⟩ := pure_eq_ok_iff.1 hok
      obtain rfl := set_eq_ok_iff.1 hset
      refine ⟨hinv, hqueue.symm, fun _ h => h, ?_⟩
      intro other hother
      rw [List.mem_singleton.1 hother]
      exact ⟨existing, (mem_of_selectBy hexisting).1,
        congrArg DeadLetterRow.toRelayMetadata (not_not.1 hsame)⟩

theorem deadLetterAll_ok {items : List (QueueRow × String × String)} (h : RelayInv tables)
    (hmem : ∀ item ∈ items, item.1 ∈ tables.queue)
    (hdistinct : (items.map fun item => item.1.recordDigest).Nodup) {now : Instant}
    {expected : List DeadLetterRow}
    (hok : deadLetterAll now items tables = .ok expected tables') :
    Buried (items.map Prod.fst) tables tables' := by
  induction items generalizing tables expected with
  | nil =>
      cases hok
      exact Buried.nil h
  | cons item rest ih =>
      obtain ⟨row, wire, reasonCode⟩ := item
      unfold deadLetterAll at hok
      obtain ⟨first, t₁, hfirst, hok⟩ := bind_eq_ok_iff.1 hok
      obtain ⟨others, t₂, hothers, hok⟩ := bind_eq_ok_iff.1 hok
      obtain ⟨-, rfl⟩ := pure_eq_ok_iff.1 hok
      have hburied := deadLetter_ok h (hmem _ List.mem_cons_self) hfirst
      rw [List.map_cons, List.nodup_cons] at hdistinct
      have hrest := ih hburied.inv ?_ hdistinct.2 hothers
      · refine ⟨hrest.inv, ?_, fun letter hletter => hrest.kept letter (hburied.kept letter hletter),
          ?_⟩
        · rw [hrest.queue, hburied.queue, List.filter_filter]
          apply List.filter_congr
          intro r _
          rw [Bool.eq_iff_iff, List.map_cons, List.map_cons]
          simp [and_comm]
        · intro other hother
          rcases List.mem_cons.1 hother with rfl | hother
          · obtain ⟨letter, hletter, hsame⟩ := hburied.buried other List.mem_cons_self
            exact ⟨letter, hrest.kept letter hletter, hsame⟩
          · exact hrest.buried other hother
      · intro item hitem
        rw [hburied.queue, List.mem_filter]
        refine ⟨hmem item (List.mem_cons_of_mem _ hitem), ?_⟩
        have hne : item.1.recordDigest ≠ row.recordDigest := by
          intro heq
          apply hdistinct.1
          rw [← heq]
          exact List.mem_map_of_mem (f := fun item => item.1.recordDigest) hitem
        simp [hne]

/-! ## Scanning -/

/-- The digests that a scan decides on. -/
def LeaseScan.digests (scan : LeaseScan) : List String :=
  scan.oversized.map (fun row => row.recordDigest) ++
    (scan.rejected.map (fun item => item.1.recordDigest) ++ scan.leased.map Prod.fst)

/-- What a scan found among some rows. -/
structure Scanned (H : Host) (rows : List QueueRow) (scan : LeaseScan) : Prop where
  digests : List.Subperm scan.digests (rows.map fun row => row.recordDigest)
  oversized : ∀ row ∈ scan.oversized, row ∈ rows
  rejected : ∀ item ∈ scan.rejected, item.1 ∈ rows
  leased : ∀ item ∈ scan.leased, item.2.digest H = item.1

theorem Scanned.empty (rows : List QueueRow) (budgetBlocked : Bool) :
    Scanned H rows { budgetBlocked := budgetBlocked } :=
  ⟨List.nil_subperm, fun _ h => (nomatch h), fun _ h => (nomatch h), fun _ h => (nomatch h)⟩

theorem examine_accepted {registry : Option SourceTrustStore} {now : Instant}
    {recordDigest wire : String} {record : BlindTransportRecord}
    (h : examine H ed25519 config registry now recordDigest wire = .ok (.accepted record)) :
    record.digest H = recordDigest := by
  unfold examine at h
  split at h
  · split at h
    · cases h
    · rename_i hdigest
      cases h
      exact not_not.1 hdigest
  · split at h
    · cases h
    · cases h

theorem scanRows_ok {registry : Option SourceTrustStore} {now : Instant}
    {limit wireBudget leased dead consumed : Nat} {rows : List QueueRow} {scan : LeaseScan}
    (h : scanRows H ed25519 config registry now tables limit wireBudget leased dead consumed rows =
      .ok scan) : Scanned H rows scan := by
  induction rows generalizing leased dead consumed scan with
  | nil =>
      cases h
      exact Scanned.empty _ _
  | cons row rest ih =>
      have hrest : ∀ {other : QueueRow}, other ∈ rest → other ∈ row :: rest :=
        fun h => List.mem_cons_of_mem _ h
      unfold scanRows at h
      split at h
      · cases h
        exact Scanned.empty _ _
      · dsimp only at h
        split at h
        · -- oversized
          split at h
          · cases h
            exact Scanned.empty _ _
          · obtain ⟨scan', hscan, h⟩ := bind_eq_ok h
            cases h
            have hothers := ih hscan
            refine ⟨(List.subperm_cons _).2 hothers.digests, ?_, fun item h => hrest (hothers.rejected item h),
              hothers.leased⟩
            intro other hother
            rcases List.mem_cons.1 hother with rfl | hother
            · exact List.mem_cons_self
            · exact hrest (hothers.oversized other hother)
        · split at h
          · cases h
            exact Scanned.empty _ _
          · split at h
            · cases h
            · split at h
              · cases h
              · split at h
                · cases h
                · -- rejected
                  split at h
                  · cases h
                    exact Scanned.empty _ _
                  · obtain ⟨scan', hscan, h⟩ := bind_eq_ok h
                    cases h
                    have hothers := ih hscan
                    refine ⟨?_, fun row h => hrest (hothers.oversized row h), ?_, hothers.leased⟩
                    · exact (List.perm_middle.subperm).trans ((List.subperm_cons _).2 hothers.digests)
                    · intro item hitem
                      rcases List.mem_cons.1 hitem with rfl | hitem
                      · exact List.mem_cons_self
                      · exact hrest (hothers.rejected item hitem)
                · -- leased
                  rename_i record hexamined
                  obtain ⟨scan', hscan, h⟩ := bind_eq_ok h
                  cases h
                  have hothers := ih hscan
                  refine ⟨?_, fun row h => hrest (hothers.oversized row h),
                    fun item h => hrest (hothers.rejected item h), ?_⟩
                  · have hmoved : List.Perm (LeaseScan.digests
                        { scan' with leased := (row.recordDigest, record) :: scan'.leased })
                        (row.recordDigest :: scan'.digests) := by
                      unfold LeaseScan.digests
                      rw [← List.append_assoc, ← List.append_assoc]
                      exact List.perm_middle
                    exact hmoved.subperm.trans ((List.subperm_cons _).2 hothers.digests)
                  · intro item hitem
                    rcases List.mem_cons.1 hitem with rfl | hitem
                    · exact examine_accepted hexamined
                    · exact hothers.leased item hitem

/-- The rows that a lease scans are rows of the queue with distinct digests. -/
theorem scanned_sub (h : RelayInv tables) (destinationConnector now : String) (limit : Nat) :
    (∀ row ∈ scanned destinationConnector now limit tables.queue, row ∈ tables.queue) ∧
      ((scanned destinationConnector now limit tables.queue).map
        fun row => row.recordDigest).Nodup := by
  have hperm := List.perm_insertionSort precedes
    (tables.queue.filter (available destinationConnector now))
  constructor
  · intro row hrow
    have hsorted := List.mem_of_mem_take hrow
    exact List.mem_of_mem_filter (hperm.mem_iff.1 hsorted)
  · have hfiltered : UniqueBy (fun row : QueueRow => row.recordDigest)
        (tables.queue.filter (available destinationConnector now)) :=
      h.digests.sublist List.filter_sublist
    exact (hfiltered.perm hperm.symm).sublist (List.take_sublist _ _)

/-! ## Fencing -/

/-- The row after a list of lease updates. -/
def fenced : List (String × RelayLease) → QueueRow → QueueRow
  | [], row => row
  | (recordDigest, lease) :: rest, row =>
      fenced rest (if row.recordDigest = recordDigest then { row with lease := some lease } else row)

theorem fenced_metadata (updates : List (String × RelayLease)) (row : QueueRow) :
    (fenced updates row).toRelayMetadata = row.toRelayMetadata ∧
      (fenced updates row).wireJson = row.wireJson := by
  induction updates generalizing row with
  | nil => exact ⟨rfl, rfl⟩
  | cons update rest ih =>
      unfold fenced
      by_cases h : row.recordDigest = update.1
      · rw [if_pos h]
        exact ih _
      · rw [if_neg h]
        exact ih _

/-- The lease of an updated row is its own, or that of one of its updates. -/
theorem fenced_lease (updates : List (String × RelayLease)) (row : QueueRow) :
    row.recordDigest ∉ updates.map Prod.fst ∧ (fenced updates row).lease = row.lease ∨
    ∃ lease, (row.recordDigest, lease) ∈ updates ∧ (fenced updates row).lease = some lease := by
  induction updates generalizing row with
  | nil => exact .inl ⟨List.not_mem_nil, rfl⟩
  | cons update rest ih =>
      unfold fenced
      by_cases h : row.recordDigest = update.1
      · rw [if_pos h]
        right
        rcases ih { row with lease := some update.2 } with ⟨-, hlease⟩ | ⟨lease, hmem, hlease⟩
        · refine ⟨update.2, ?_, hlease⟩
          rw [h]
          exact List.mem_cons_self
        · exact ⟨lease, List.mem_cons_of_mem _ hmem, hlease⟩
      · rw [if_neg h]
        rcases ih row with ⟨hnot, hlease⟩ | ⟨lease, hmem, hlease⟩
        · left
          refine ⟨?_, hlease⟩
          rw [List.map_cons, List.mem_cons, not_or]
          exact ⟨h, hnot⟩
        · exact .inr ⟨lease, List.mem_cons_of_mem _ hmem, hlease⟩

theorem fenceRows_ok (updates : List (String × RelayLease)) (tables : RelayTables) :
    ∃ n, fenceRows updates tables =
      .ok n { tables with queue := tables.queue.map (fenced updates) } := by
  induction updates generalizing tables with
  | nil =>
      refine ⟨0, ?_⟩
      have hid : fenced [] = id := rfl
      rw [hid, List.map_id]
      rfl
  | cons update rest ih =>
      obtain ⟨n, hn⟩ := ih { tables with queue := tables.queue.map fun row : QueueRow =>
        if row.recordDigest = update.1 then { row with lease := some update.2 } else row }
      refine ⟨(tables.queue.filter fun row => decide (row.recordDigest = update.1)).length + n, ?_⟩
      unfold fenceRows
      rw [bind_apply, get_apply]
      dsimp only
      rw [bind_apply, set_apply]
      dsimp only
      rw [bind_apply, hn, List.map_map]
      rfl

/-- The invariant after updates whose expiries are instants. -/
theorem relayInv_fenced (h : RelayInv tables) {updates : List (String × RelayLease)}
    (hexpiries : ∀ update ∈ updates, ∃ expires : Instant,
      update.2.leaseExpiresAt = expires.isoformat) :
    RelayInv { tables with queue := tables.queue.map (fenced updates) } := by
  apply h.map_queue fun row => (fenced_metadata updates row).1
  intro row hrow lease hlease
  rcases fenced_lease updates row with ⟨-, hsame⟩ | ⟨lease', hmem, hsame⟩
  · rw [hsame] at hlease
    exact h.expiries row hrow lease hlease
  · rw [hsame] at hlease
    cases hlease
    exact hexpiries _ hmem

/-! ## Leasing -/

/-- The lease ids that some leased records hand out for a digest. -/
def handedIn (H : Host) (recordDigest : String) (leased : List LeasedRecord) : List String :=
  (leased.filter fun l => decide (l.record.digest H = recordDigest)).map LeasedRecord.leaseId

theorem handedIn_cons (H : Host) (recordDigest : String) (l : LeasedRecord)
    (rest : List LeasedRecord) :
    handedIn H recordDigest (l :: rest) =
      if l.record.digest H = recordDigest then l.leaseId :: handedIn H recordDigest rest
      else handedIn H recordDigest rest := by
  unfold handedIn
  generalize hdigest : l.record.digest H = digest
  rw [List.filter_cons, hdigest]
  by_cases h : digest = recordDigest
  · rw [if_pos h, if_pos (decide_eq_true h), List.map_cons]
  · rw [if_neg h, if_neg (by simpa using h)]

/-- What a committed lease leaves behind. -/
structure Leased (H : Host) (token : Nat → String) (leased : List LeasedRecord)
    (tables tables' : RelayTables) : Prop where
  inv : RelayInv tables'
  kept : ∀ row ∈ tables.queue, Queued row tables' ∨ DeadLettered row tables'
  rows : ∀ row ∈ tables'.queue,
    (handedIn H row.recordDigest leased = [] ∧
      ∃ old ∈ tables.queue, old.recordDigest = row.recordDigest ∧ old.lease = row.lease) ∨
    ∃ lease, row.lease = some lease ∧ handedIn H row.recordDigest leased = [lease.leaseId]
  tokens : ∀ l ∈ leased, ∃ n, l.leaseId = token n
  once : ∀ recordDigest, (handedIn H recordDigest leased).length ≤ 1

section Leasing

variable {leaseOwner expires : String} {token : Nat → String}

theorem leaseUpdates_digests (index : Nat) (items : List (String × BlindTransportRecord)) :
    (leaseUpdates leaseOwner expires token index items).map Prod.fst = items.map Prod.fst := by
  induction items generalizing index with
  | nil => rfl
  | cons item rest ih => rw [leaseUpdates, List.map_cons, List.map_cons, ih]

theorem leaseUpdates_expiry (index : Nat) (items : List (String × BlindTransportRecord)) :
    ∀ update ∈ leaseUpdates leaseOwner expires token index items,
      update.2.leaseExpiresAt = expires := by
  induction items generalizing index with
  | nil => exact fun _ h => nomatch h
  | cons item rest ih =>
      intro update hupdate
      rcases List.mem_cons.1 hupdate with rfl | hupdate
      · rfl
      · exact ih (index + 1) update hupdate

theorem leasedRecords_token (index : Nat) (items : List (String × BlindTransportRecord)) :
    ∀ l ∈ leasedRecords leaseOwner expires token index items, ∃ n, l.leaseId = token n := by
  induction items generalizing index with
  | nil => exact fun _ h => nomatch h
  | cons item rest ih =>
      intro l hl
      rcases List.mem_cons.1 hl with rfl | hl
      · exact ⟨index, rfl⟩
      · exact ih (index + 1) l hl

/-- No id is handed out for a digest that was not leased. -/
theorem handedIn_of_notMem {index : Nat} {items : List (String × BlindTransportRecord)}
    (hdigests : ∀ item ∈ items, item.2.digest H = item.1) {recordDigest : String}
    (h : recordDigest ∉ items.map Prod.fst) :
    handedIn H recordDigest (leasedRecords leaseOwner expires token index items) = [] := by
  induction items generalizing index with
  | nil => rfl
  | cons item rest ih =>
      obtain ⟨digest, record⟩ := item
      rw [List.map_cons, List.mem_cons, not_or] at h
      have hdigest : record.digest H = digest := hdigests (digest, record) List.mem_cons_self
      have hne : ¬record.digest H = recordDigest := fun heq => h.1 (heq.symm.trans hdigest)
      rw [leasedRecords, handedIn_cons, if_neg hne]
      exact ih (fun item hitem => hdigests item (List.mem_cons_of_mem _ hitem)) h.2

/-- The id handed out for a leased digest is the one its row is fenced with. -/
theorem handedIn_of_mem {index : Nat} {items : List (String × BlindTransportRecord)}
    (hdigests : ∀ item ∈ items, item.2.digest H = item.1) (hnodup : (items.map Prod.fst).Nodup)
    {recordDigest : String} {lease : RelayLease}
    (h : (recordDigest, lease) ∈ leaseUpdates leaseOwner expires token index items) :
    handedIn H recordDigest (leasedRecords leaseOwner expires token index items) =
      [lease.leaseId] := by
  induction items generalizing index with
  | nil => cases h
  | cons item rest ih =>
      obtain ⟨digest, record⟩ := item
      have hdigest : record.digest H = digest := hdigests (digest, record) List.mem_cons_self
      have hothers : ∀ item ∈ rest, item.2.digest H = item.1 :=
        fun item hitem => hdigests item (List.mem_cons_of_mem _ hitem)
      rw [List.map_cons, List.nodup_cons] at hnodup
      rw [leasedRecords, handedIn_cons]
      rcases List.mem_cons.1 h with heq | hrest
      · obtain ⟨rfl, rfl⟩ := Prod.mk.inj heq
        rw [if_pos hdigest, handedIn_of_notMem hothers hnodup.1]
      · have hmem : recordDigest ∈ rest.map Prod.fst := by
          rw [← (@leaseUpdates_digests leaseOwner expires token) (index + 1)]
          exact List.mem_map_of_mem (f := Prod.fst) hrest
        have hne : ¬record.digest H = recordDigest := by
          rintro rfl
          rw [hdigest] at hmem
          exact hnodup.1 hmem
        rw [if_neg hne]
        exact ih hothers hnodup.2 hrest

end Leasing

theorem readOnly_assertDeadLetterPostconditions (expected : List DeadLetterRow) :
    ReadOnly (assertDeadLetterPostconditions expected) := by
  induction expected with
  | nil => exact readOnly_pure _
  | cons row rest ih =>
      apply readOnly_get.bind
      intro t
      exact readOnly_guard ih

/-- What a scan sets aside. -/
def LeaseScan.aside (scan : LeaseScan) : List (QueueRow × String × String) :=
  scan.oversized.map (fun row => (row, "", "relay_wire_invalid")) ++ scan.rejected

theorem leased_of_scan (h : RelayInv tables) {rows : List QueueRow} {scan : LeaseScan}
    (hfound : Scanned H rows scan) (hsub : ∀ row ∈ rows, row ∈ tables.queue)
    (hdigests : (LeaseScan.digests scan).Nodup) {now expires : Instant} {leaseOwner : String}
    {token : Nat → String} {expected : List DeadLetterRow} {t₁ : RelayTables} {n : Nat}
    (hbury : deadLetterAll now (LeaseScan.aside scan) tables = .ok expected t₁)
    (hfence : fenceRows (leaseUpdates leaseOwner expires.isoformat token 0 scan.leased) t₁ =
      .ok n tables') :
    Leased H token (leasedRecords leaseOwner expires.isoformat token 0 scan.leased) tables
      tables' := by
  have haside : ∀ item ∈ LeaseScan.aside scan, item.1 ∈ tables.queue := by
    intro item hitem
    rcases List.mem_append.1 hitem with hitem | hitem
    · obtain ⟨row, hrow, rfl⟩ := List.mem_map.1 hitem
      exact hsub row (hfound.oversized row hrow)
    · exact hsub item.1 (hfound.rejected item hitem)
  have hasideDigests : ((LeaseScan.aside scan).map fun item => item.1.recordDigest) =
      scan.oversized.map (fun row => row.recordDigest) ++
        scan.rejected.map fun item => item.1.recordDigest := by
    rw [LeaseScan.aside, List.map_append, List.map_map]
    rfl
  unfold LeaseScan.digests at hdigests
  rw [← List.append_assoc, ← hasideDigests] at hdigests
  obtain ⟨hnodup, hleasedNodup, hdisjoint⟩ := List.nodup_append.1 hdigests
  have hburied := deadLetterAll_ok h haside hnodup hbury
  obtain ⟨n', hfence'⟩ := fenceRows_ok
    (leaseUpdates leaseOwner expires.isoformat token 0 scan.leased) t₁
  rw [hfence'] at hfence
  cases hfence
  have hqueue : ∀ row, row ∈ t₁.queue ↔ row ∈ tables.queue ∧
      row.recordDigest ∉ (LeaseScan.aside scan).map fun item => item.1.recordDigest := by
    intro row
    rw [hburied.queue, List.mem_filter, List.map_map]
    simp
  refine ⟨relayInv_fenced hburied.inv fun update hupdate =>
    ⟨expires, leaseUpdates_expiry 0 scan.leased update hupdate⟩, ?_, ?_,
    leasedRecords_token 0 scan.leased, ?_⟩
  · intro row hrow
    by_cases hmem : row.recordDigest ∈ (LeaseScan.aside scan).map fun item => item.1.recordDigest
    · -- the row itself was set aside
      obtain ⟨item, hitem, hdigest⟩ := List.mem_map.1 hmem
      have hsame : item.1 = row := h.digests.eq_of_mem (haside item hitem) hrow hdigest
      right
      obtain ⟨letter, hletter, hmetadata⟩ := hburied.buried item.1 (List.mem_map_of_mem hitem)
      rw [hsame] at hmetadata
      exact ⟨letter, hletter, hmetadata⟩
    · left
      obtain ⟨hmetadata, hwire⟩ := fenced_metadata
        (leaseUpdates leaseOwner expires.isoformat token 0 scan.leased) row
      exact ⟨_, List.mem_map_of_mem ((hqueue row).2 ⟨hrow, hmem⟩), hmetadata, hwire⟩
  · intro row hrow
    obtain ⟨old, hold, rfl⟩ := List.mem_map.1 hrow
    have hdigest : (fenced (leaseUpdates leaseOwner expires.isoformat token 0 scan.leased)
        old).recordDigest = old.recordDigest :=
      congrArg RelayMetadata.recordDigest (fenced_metadata _ old).1
    rw [hdigest]
    rcases fenced_lease (leaseUpdates leaseOwner expires.isoformat token 0 scan.leased) old with
      ⟨hnot, hlease⟩ | ⟨lease, hmem, hlease⟩
    · left
      rw [leaseUpdates_digests] at hnot
      exact ⟨handedIn_of_notMem hfound.leased hnot, old, ((hqueue old).1 hold).1, rfl,
        hlease.symm⟩
    · right
      exact ⟨lease, hlease, handedIn_of_mem hfound.leased hleasedNodup hmem⟩
  · intro recordDigest
    by_cases hmem : recordDigest ∈ scan.leased.map Prod.fst
    · rw [← (@leaseUpdates_digests leaseOwner expires.isoformat token) 0] at hmem
      obtain ⟨update, hupdate, rfl⟩ := List.mem_map.1 hmem
      rw [@handedIn_of_mem _ _ _ _ _ _ hfound.leased hleasedNodup _ update.2 hupdate]
      exact le_rfl
    · rw [handedIn_of_notMem hfound.leased hmem]
      exact Nat.zero_le _

/-- A committed lease. -/
theorem leaseTransaction_ok (h : RelayInv tables) {registry : Option SourceTrustStore}
    {destinationConnector leaseOwner : String} {limit wireBudget : Nat} {now expires : Instant}
    {token : Nat → String} {result : List LeasedRecord × Bool}
    (hok : leaseTransaction H ed25519 config registry destinationConnector leaseOwner limit
      wireBudget now expires token tables = .ok result tables') :
    Leased H token result.1 tables tables' := by
  unfold leaseTransaction at hok
  rw [transaction_eq_ok_iff, bind_apply, get_apply] at hok
  dsimp only at hok
  cases hscan : scanRows H ed25519 config registry now tables limit wireBudget 0 0 0
      (scanned destinationConnector now.isoformat limit tables.queue) with
  | error x =>
      rw [hscan] at hok
      cases hok
  | ok scan =>
      rw [hscan, lift_ok_bind rfl] at hok
      obtain ⟨expected, t₁, hbury, hok⟩ := bind_eq_ok_iff.1 hok
      obtain ⟨n, t₂, hfence, hok⟩ := bind_eq_ok_iff.1 hok
      obtain ⟨-, hok⟩ := of_guard_eq_ok hok
      obtain ⟨_, t₃, hchecked, hok⟩ := bind_eq_ok_iff.1 hok
      obtain ⟨rfl, rfl⟩ := pure_eq_ok_iff.1 hok
      obtain rfl := (readOnly_assertDeadLetterPostconditions _).1 _ _ _ hchecked
      have hfound := scanRows_ok hscan
      obtain ⟨hsub, hdistinct⟩ := scanned_sub h destinationConnector now.isoformat limit
      have hdigests : scan.digests.Nodup := by
        obtain ⟨l, hperm, hsublist⟩ := hfound.digests
        exact hperm.nodup_iff.1 (List.Nodup.sublist hsublist hdistinct)
      exact leased_of_scan h hfound hsub hdigests hbury hfence

/-! ## Acknowledging and releasing -/

theorem holdsLease_iff {recordDigest leaseOwner leaseId now : String} {row : QueueRow} :
    holdsLease recordDigest leaseOwner leaseId now row = true ↔
      row.recordDigest = recordDigest ∧ ∃ lease, row.lease = some lease ∧
        lease.leaseOwner = leaseOwner ∧ lease.leaseId = leaseId ∧ now < lease.leaseExpiresAt := by
  unfold holdsLease
  rw [Bool.and_eq_true, decide_eq_true_eq]
  cases row.lease with
  | none => simp
  | some lease => simp

theorem held_le_one (h : RelayInv tables) (recordDigest leaseOwner leaseId now : String) :
    (tables.queue.filter (holdsLease recordDigest leaseOwner leaseId now)).length ≤ 1 :=
  h.digests.length_filter_le_one (k := recordDigest) fun _ _ hrow => (holdsLease_iff.1 hrow).1

/-- The row is named by one of the acknowledgements. -/
def acknowledged (leaseOwner now : String) (acknowledgements : List (String × String))
    (row : QueueRow) : Bool :=
  acknowledgements.any fun a => holdsLease a.1 leaseOwner a.2 now row

/-- Deleting what the acknowledgements name; a full count means that each names a row. -/
theorem deleteHeld_ok (h : RelayInv tables) (leaseOwner now : String)
    (acknowledgements : List (String × String)) :
    ∃ n, deleteHeld leaseOwner now acknowledgements tables =
      .ok n { tables with
        queue := tables.queue.filter fun row => !acknowledged leaseOwner now acknowledgements row } ∧
      n ≤ acknowledgements.length ∧
      (n = acknowledgements.length → ∀ a ∈ acknowledgements, ∃ row ∈ tables.queue,
        holdsLease a.1 leaseOwner a.2 now row = true) := by
  induction acknowledgements generalizing tables with
  | nil =>
      refine ⟨0, ?_, le_rfl, fun _ _ h => nomatch h⟩
      simp [deleteHeld, pure_apply, acknowledged]
  | cons a rest ih =>
      obtain ⟨recordDigest, leaseId⟩ := a
      have hone := held_le_one h recordDigest leaseOwner leaseId now
      obtain ⟨n, hn, hle, hfull⟩ :=
        ih (h.filter_queue fun row => !holdsLease recordDigest leaseOwner leaseId now row)
      refine ⟨(tables.queue.filter (holdsLease recordDigest leaseOwner leaseId now)).length + n,
        ?_, ?_, ?_⟩
      · unfold deleteHeld
        rw [bind_apply, get_apply]
        dsimp only
        rw [bind_apply, set_apply]
        dsimp only
        rw [bind_apply, hn]
        dsimp only
        rw [List.filter_filter, pure_apply]
        congr 2
        apply List.filter_congr
        intro row _
        simp [acknowledged, Bool.and_comm]
      · rw [List.length_cons]
        omega
      · intro heq
        rw [List.length_cons] at heq
        have hheld : 0 < (tables.queue.filter
            (holdsLease recordDigest leaseOwner leaseId now)).length := by omega
        intro a ha
        rcases List.mem_cons.1 ha with rfl | ha
        · obtain ⟨row, hrow⟩ := List.exists_mem_of_length_pos hheld
          exact ⟨row, (List.mem_filter.1 hrow).1, (List.mem_filter.1 hrow).2⟩
        · obtain ⟨row, hrow, hholds⟩ := hfull (by omega) a ha
          exact ⟨row, List.mem_of_mem_filter hrow, hholds⟩

/-- `ack_many` raises and changes nothing, or it deletes exactly what the acknowledgements name,
each of which names a row. -/
theorem ackMany_cases (h : RelayInv tables) (acknowledgements : List (String × String))
    (leaseOwner : String) (now : Instant) :
    (∃ x, ackMany H acknowledgements leaseOwner now tables = .error x tables) ∨
    ackMany H acknowledgements leaseOwner now tables =
      .ok () { tables with
        queue := tables.queue.filter fun row =>
          !acknowledged leaseOwner now.isoformat acknowledgements row } ∧
      ∀ a ∈ acknowledgements, ∃ row ∈ tables.queue,
        holdsLease a.1 leaseOwner a.2 now.isoformat row = true := by
  unfold ackMany
  by_cases howner : leaseOwner = "" ∨ leaseOwner.length > 128 ∨ H.printable leaseOwner = false
  · rw [if_pos howner]
    exact .inl ⟨_, rfl⟩
  rw [if_neg howner]
  beta_reduce
  cases validateAcknowledgements H 0 acknowledgements with
  | error x => exact .inl ⟨x, rfl⟩
  | ok _ =>
      rw [lift_ok_bind rfl]
      by_cases hempty : acknowledgements = []
      · subst hempty
        right
        rw [if_pos rfl, pure_apply]
        refine ⟨?_, fun _ h => nomatch h⟩
        simp [acknowledged]
      · rw [if_neg hempty]
        obtain ⟨n, hn, -, hfull⟩ := deleteHeld_ok h leaseOwner now.isoformat acknowledgements
        unfold transaction
        rw [bind_apply, hn]
        dsimp only
        by_cases hcount : n = acknowledgements.length
        · right
          rw [if_neg (not_not.2 hcount)]
          exact ⟨rfl, hfull hcount⟩
        · rw [if_pos hcount]
          exact .inl ⟨_, rfl⟩

/-- The row without its lease, when it holds the one that is released. -/
def released (recordDigest leaseOwner leaseId now : String) (row : QueueRow) : QueueRow :=
  if holdsLease recordDigest leaseOwner leaseId now row then { row with lease := none } else row

/-- `release` raises and changes nothing, or it clears the lease that it names. -/
theorem release_cases (h : RelayInv tables) (recordDigest leaseOwner leaseId : String)
    (now : Instant) :
    (∃ x, release recordDigest leaseOwner leaseId now tables = .error x tables) ∨
    release recordDigest leaseOwner leaseId now tables =
      .ok () { tables with
        queue := tables.queue.map (released recordDigest leaseOwner leaseId now.isoformat) } ∧
      ∃ row ∈ tables.queue,
        holdsLease recordDigest leaseOwner leaseId now.isoformat row = true := by
  have hone := held_le_one h recordDigest leaseOwner leaseId now.isoformat
  unfold release
  by_cases hid : leaseId = "" ∨ leaseId.length > 128
  · rw [if_pos hid]
    exact .inl ⟨_, rfl⟩
  rw [if_neg hid]
  beta_reduce
  rw [bind_apply, get_apply]
  dsimp only
  rw [bind_apply, set_apply]
  dsimp only
  by_cases hcount : (tables.queue.filter
      (holdsLease recordDigest leaseOwner leaseId now.isoformat)).length = 1
  · right
    rw [if_neg (not_not.2 hcount)]
    refine ⟨rfl, ?_⟩
    obtain ⟨row, hrow⟩ := List.exists_mem_of_length_pos (by rw [hcount]; decide)
    exact ⟨row, (List.mem_filter.1 hrow).1, (List.mem_filter.1 hrow).2⟩
  · left
    -- No row holds the lease, so the statement changed no row.
    rw [if_pos hcount]
    have hnone : ∀ row ∈ tables.queue,
        holdsLease recordDigest leaseOwner leaseId now.isoformat row = false := by
      have hempty : (tables.queue.filter
          (holdsLease recordDigest leaseOwner leaseId now.isoformat)).length = 0 := by omega
      rw [List.length_eq_zero_iff, List.filter_eq_nil_iff] at hempty
      exact fun row hrow => Bool.eq_false_iff.2 (hempty row hrow)
    have hsame : (tables.queue.map fun row =>
        if holdsLease recordDigest leaseOwner leaseId now.isoformat row then
          { row with lease := none } else row) = tables.queue := by
      rw [List.map_congr_left (g := id), List.map_id]
      intro row hrow
      rw [if_neg (by rw [hnone row hrow]; decide)]
      rfl
    rw [hsame]
    exact ⟨_, rfl⟩

theorem released_metadata (recordDigest leaseOwner leaseId now : String) (row : QueueRow) :
    (released recordDigest leaseOwner leaseId now row).toRelayMetadata = row.toRelayMetadata ∧
      (released recordDigest leaseOwner leaseId now row).wireJson = row.wireJson := by
  unfold released
  split
  · exact ⟨rfl, rfl⟩
  · exact ⟨rfl, rfl⟩

theorem lease_of_released {recordDigest leaseOwner leaseId now : String} {row : QueueRow}
    {lease : RelayLease} (h : lease ∈ (released recordDigest leaseOwner leaseId now row).lease) :
    lease ∈ row.lease := by
  unfold released at h
  split at h
  · cases h
  · exact h

theorem relayInv_released (h : RelayInv tables) (recordDigest leaseOwner leaseId now : String) :
    RelayInv { tables with
      queue := tables.queue.map (released recordDigest leaseOwner leaseId now) } := by
  apply h.map_queue fun row => (released_metadata recordDigest leaseOwner leaseId now row).1
  intro row hrow lease hlease
  exact h.expiries row hrow lease (lease_of_released hlease)

end SealedRelayQueue

end Polymorph
