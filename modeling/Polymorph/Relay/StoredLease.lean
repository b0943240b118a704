import Polymorph.Relay.QueueSpec
import Polymorph.Relay.StoredScan

/-!
# The writes of a lease

What a lease writes after its scan: the rows set aside move to the dead letters, and the leased rows
are fenced. A row whose digest is already dead-lettered moves only when the letter there says the
same.
-/

set_option autoImplicit false

namespace Polymorph

open JsonText Transaction Table Utc

namespace StoredQueue

open SealedRelayQueue

section Writes

variable {H : Host} {ed25519 : List UInt8 → ByteArray → List UInt8 → Bool} {loads : JsonLoads}
  {config : RelayConfig} {registry : Option SourceTrustStore} {now : Instant}

/-! ## The digests of a scan -/

/-- The digests that a scan decides on. -/
def StoredScan.digests (scan : StoredScan) : List String :=
  scan.setAside.map (fun item => item.1.recordDigest) ++ scan.leased.map Prod.fst

/-- What a scan without a raising row returns. -/
structure ScanOk (H : Host) (rows : List StoredRow) (scan : StoredScan) : Prop where
  digests : List.Subperm scan.digests (rows.map fun row => row.recordDigest)
  setAside : ∀ item ∈ scan.setAside, item.1 ∈ rows
  leased : ∀ item ∈ scan.leased, item.2.digest H = item.1

theorem ScanOk.stop (rows : List StoredRow) (budgetBlocked : Bool) :
    ScanOk H rows { budgetBlocked := budgetBlocked } :=
  ⟨List.nil_subperm, fun _ h => (nomatch h), fun _ h => (nomatch h)⟩

theorem ScanOk.oversized {row : StoredRow} {rows : List StoredRow} {scan : StoredScan}
    (h : ScanOk H rows scan) :
    ScanOk H (row :: rows) { scan with oversized := row :: scan.oversized } where
  digests := (List.subperm_cons _).2 h.digests
  setAside := by
    intro item hitem
    rcases List.mem_cons.1 hitem with rfl | hitem
    · exact List.mem_cons_self
    · exact List.mem_cons_of_mem _ (h.setAside item hitem)
  leased := h.leased

theorem ScanOk.rejected {row : StoredRow} {wire : List UInt8} {code : String}
    {rows : List StoredRow} {scan : StoredScan} (h : ScanOk H rows scan) :
    ScanOk H (row :: rows) { scan with rejected := (row, wire, code) :: scan.rejected } where
  digests := by
    have hmoved : List.Perm (StoredScan.digests
        { scan with rejected := (row, wire, code) :: scan.rejected })
        (row.recordDigest :: scan.digests) := by
      unfold StoredScan.digests StoredScan.setAside
      simp only [List.map_append, List.append_assoc]
      exact List.perm_middle
    exact hmoved.subperm.trans ((List.subperm_cons _).2 h.digests)
  setAside := by
    intro item hitem
    rcases List.mem_append.1 hitem with hitem | hitem
    · exact List.mem_cons_of_mem _ (h.setAside item (List.mem_append_left _ hitem))
    · rcases List.mem_cons.1 hitem with rfl | hitem
      · exact List.mem_cons_self
      · exact List.mem_cons_of_mem _ (h.setAside item (List.mem_append_right _ hitem))
  leased := h.leased

theorem ScanOk.accepted {row : StoredRow} {record : BlindTransportRecord}
    {rows : List StoredRow} {scan : StoredScan} (h : ScanOk H rows scan)
    (hdigest : record.digest H = row.recordDigest) :
    ScanOk H (row :: rows)
      { scan with leased := (row.recordDigest, record) :: scan.leased } where
  digests := by
    have hmoved : List.Perm (StoredScan.digests
        { scan with leased := (row.recordDigest, record) :: scan.leased })
        (row.recordDigest :: scan.digests) := List.perm_middle
    exact hmoved.subperm.trans ((List.subperm_cons _).2 h.digests)
  setAside := fun item hitem => List.mem_cons_of_mem _ (h.setAside item hitem)
  leased := by
    intro item hitem
    rcases List.mem_cons.1 hitem with rfl | hitem
    · exact hdigest
    · exact h.leased item hitem

theorem ScanOk.nodup {rows : List StoredRow} {scan : StoredScan} (h : ScanOk H rows scan)
    (hrows : (rows.map fun row => row.recordDigest).Nodup) : scan.digests.Nodup := by
  obtain ⟨l, hperm, hsub⟩ := h.digests
  exact hperm.nodup_iff.1 (hrows.sublist hsub)

/-- The loop decides on the digests of the rows that it takes. -/
theorem scanOk_scanOf {taken : List StoredRow} {budgetBlocked : Bool}
    (hshort : ∀ row ∈ taken, ¬LongColumn loads config row.wireJson) :
    ScanOk H taken (scanOf H ed25519 loads config registry now taken budgetBlocked) := by
  induction taken with
  | nil => exact ScanOk.stop _ _
  | cons row rest ih =>
      have hrest := ih fun r hr => hshort r (List.mem_cons_of_mem _ hr)
      cases (@fate_of_short H ed25519 _ _ registry now row) (hshort row List.mem_cons_self) with
      | oversized h =>
          rw [scanOf_oversized h]
          exact hrest.oversized
      | rejected h code hexamine =>
          rw [scanOf_rejected h hexamine]
          exact hrest.rejected
      | leased h record hexamine =>
          rw [scanOf_leased h hexamine]
          exact hrest.accepted (digest_of_examineRow hexamine)

/-! ## Dead-lettering -/

/-- A letter that is already there for the digest of the item says what the new one would, but for
its time. -/
def Compatible (now : Instant) (tables : StoredTables) (item : StoredRow × List UInt8 × String) :
    Prop :=
  ∀ existing, tables.deadLetterRow item.1.recordDigest = some existing →
    existing = { letterOf now item with deadLetteredAt := existing.deadLetteredAt }

/-- No letter is there for the digest of the item. -/
def isFresh (tables : StoredTables) (item : StoredRow × List UInt8 × String) : Bool :=
  (tables.deadLetterRow item.1.recordDigest).isNone

/-- The letter that is there afterwards. -/
def letterKept (now : Instant) (tables : StoredTables) (item : StoredRow × List UInt8 × String) :
    StoredLetter :=
  (tables.deadLetterRow item.1.recordDigest).getD (letterOf now item)

theorem letterKept_spec {tables : StoredTables} {item : StoredRow × List UInt8 × String}
    (h : Compatible now tables item) :
    (letterKept now tables item).toRelayMetadata = item.1.toRelayMetadata ∧
      (letterKept now tables item).reasonCode = item.2.2 := by
  unfold letterKept
  cases hrow : tables.deadLetterRow item.1.recordDigest with
  | none => exact ⟨rfl, rfl⟩
  | some existing =>
      have hsame := h existing hrow
      constructor
      · exact congrArg StoredLetter.toRelayMetadata hsame
      · exact congrArg StoredLetter.reasonCode hsame

/-- The tables after dead-lettering one row. -/
def afterLetter (now : Instant) (tables : StoredTables) (item : StoredRow × List UInt8 × String) :
    StoredTables where
  queue := tables.queue.filter fun r => r.recordDigest ≠ item.1.recordDigest
  deadLetters := tables.deadLetters ++ ([item].filter (isFresh tables)).map (letterOf now)

/-- Dead-lettering one row leaves the letters of other digests alone. -/
theorem deadLetterRow_afterLetter {tables : StoredTables} {item : StoredRow × List UInt8 × String}
    {recordDigest : String} (h : item.1.recordDigest ≠ recordDigest) :
    (afterLetter now tables item).deadLetterRow recordDigest = tables.deadLetterRow recordDigest := by
  have hnone : (([item].filter (isFresh tables)).map (letterOf now)).find?
      (fun row => decide (row.recordDigest = recordDigest)) = none := by
    rw [List.find?_eq_none]
    intro letter hletter
    obtain ⟨only, honly, rfl⟩ := List.mem_map.1 hletter
    obtain rfl := List.mem_singleton.1 (List.mem_of_mem_filter honly)
    have hne : (letterOf now only).recordDigest ≠ recordDigest := h
    simpa using hne
  unfold StoredTables.deadLetterRow afterLetter
  dsimp only
  unfold selectBy
  rw [List.find?_append, hnone, Option.or_none]

theorem deadLetter_eq {tables : StoredTables} {item : StoredRow × List UInt8 × String}
    (h : Compatible now tables item) :
    deadLetter now item tables =
      .ok (letterKept now tables item) (afterLetter now tables item) := by
  unfold deadLetter letterKept afterLetter
  rw [bind_apply, get_apply]
  dsimp only
  cases hrow : tables.deadLetterRow item.1.recordDigest with
  | none =>
      have hfresh : isFresh tables item = true := by
        unfold isFresh
        rw [hrow]
        rfl
      rw [List.filter_cons_of_pos hfresh]
      rfl
  | some existing =>
      have hfresh : ¬isFresh tables item = true := by
        unfold isFresh
        rw [hrow]
        exact Bool.false_ne_true
      have hsame := h existing hrow
      rw [List.filter_cons_of_neg hfresh]
      dsimp only
      rw [if_neg (not_not.2 hsame), List.filter_nil, List.map_nil, List.append_nil]
      exact congrArg (fun letter => EStateM.Result.ok letter _) hsame.symm

theorem deadLetter_conflict {tables : StoredTables} {item : StoredRow × List UInt8 × String}
    (h : ¬Compatible now tables item) :
    ∃ message, deadLetter now item tables = .error (.integrityError message) tables := by
  unfold Compatible at h
  push Not at h
  obtain ⟨existing, hrow, hdiffers⟩ := h
  refine ⟨"relay dead-letter conflict does not match expected record", ?_⟩
  unfold deadLetter
  rw [bind_apply, get_apply]
  dsimp only
  rw [hrow]
  dsimp only
  rw [if_pos hdiffers]
  rfl

/-- Rows of distinct digests without conflicts all move. -/
theorem deadLetterAll_eq {items : List (StoredRow × List UInt8 × String)} {tables : StoredTables}
    (hdistinct : (items.map fun item => item.1.recordDigest).Nodup)
    (hcompatible : ∀ item ∈ items, Compatible now tables item) :
    deadLetterAll now items tables = .ok (items.map (letterKept now tables))
      { queue := tables.queue.filter fun r =>
          r.recordDigest ∉ items.map fun item => item.1.recordDigest
        deadLetters := tables.deadLetters ++
          (items.filter (isFresh tables)).map (letterOf now) } := by
  induction items generalizing tables with
  | nil =>
      unfold deadLetterAll
      rw [pure_apply]
      simp
  | cons item rest ih =>
      rw [List.map_cons, List.nodup_cons] at hdistinct
      -- What is there for the digests of the rest is the same before and after this row.
      have hother : ∀ other ∈ rest, (afterLetter now tables item).deadLetterRow
          other.1.recordDigest = tables.deadLetterRow other.1.recordDigest := by
        intro other hmem
        apply deadLetterRow_afterLetter
        intro hsame
        apply hdistinct.1
        rw [hsame]
        exact List.mem_map_of_mem (f := fun item => item.1.recordDigest) hmem
      have hlater : ∀ other ∈ rest, Compatible now (afterLetter now tables item) other := by
        intro other hmem existing hrow
        rw [hother other hmem] at hrow
        exact hcompatible other (List.mem_cons_of_mem _ hmem) existing hrow
      have hkept : rest.map (letterKept now (afterLetter now tables item)) =
          rest.map (letterKept now tables) := by
        apply List.map_congr_left
        intro other hmem
        unfold letterKept
        rw [hother other hmem]
      have hfresh : rest.filter (isFresh (afterLetter now tables item)) =
          rest.filter (isFresh tables) := by
        apply List.filter_congr
        intro other hmem
        exact congrArg Option.isNone (hother other hmem)
      have hletters : (item :: rest).filter (isFresh tables) =
          [item].filter (isFresh tables) ++ rest.filter (isFresh tables) := by
        rw [← List.filter_append]
        rfl
      have hqueue : (tables.queue.filter fun r => r.recordDigest ≠ item.1.recordDigest).filter
            (fun r => r.recordDigest ∉ rest.map fun item => item.1.recordDigest) =
          tables.queue.filter fun r =>
            r.recordDigest ∉ (item :: rest).map fun item => item.1.recordDigest := by
        rw [List.filter_filter]
        apply List.filter_congr
        intro r _
        rw [Bool.eq_iff_iff]
        simp [and_comm]
      unfold deadLetterAll
      rw [bind_apply, deadLetter_eq (hcompatible item List.mem_cons_self)]
      dsimp only
      rw [bind_apply, ih hdistinct.2 hlater]
      dsimp only
      rw [pure_apply, hkept, hfresh, hletters, List.map_append, ← List.append_assoc, ← hqueue]
      rfl

/-- A conflict makes the moves raise. -/
theorem deadLetterAll_conflict {items : List (StoredRow × List UInt8 × String)}
    {tables : StoredTables} (hdistinct : (items.map fun item => item.1.recordDigest).Nodup)
    (hconflict : ∃ item ∈ items, ¬Compatible now tables item) :
    ∃ message tables', deadLetterAll now items tables = .error (.integrityError message) tables' := by
  induction items generalizing tables with
  | nil =>
      obtain ⟨item, hitem, -⟩ := hconflict
      cases hitem
  | cons item rest ih =>
      rw [List.map_cons, List.nodup_cons] at hdistinct
      unfold deadLetterAll
      by_cases hcompatible : Compatible now tables item
      · obtain ⟨other, hmem, hother⟩ := hconflict
        have hne : other ≠ item := fun hsame => hother (hsame ▸ hcompatible)
        have hrest := (List.mem_cons.1 hmem).resolve_left hne
        have hdigest : item.1.recordDigest ≠ other.1.recordDigest := by
          intro hsame
          apply hdistinct.1
          rw [hsame]
          exact List.mem_map_of_mem (f := fun item => item.1.recordDigest) hrest
        have hlater : ¬Compatible now (afterLetter now tables item) other := by
          intro hlater
          apply hother
          intro existing hrow
          refine hlater existing ?_
          rw [deadLetterRow_afterLetter hdigest]
          exact hrow
        obtain ⟨message, tables', herror⟩ := ih hdistinct.2 ⟨other, hrest, hlater⟩
        rw [bind_apply, deadLetter_eq hcompatible]
        dsimp only
        rw [bind_apply, herror]
        exact ⟨message, tables', rfl⟩
      · obtain ⟨message, herror⟩ := deadLetter_conflict hcompatible
        rw [bind_apply, herror]
        exact ⟨message, tables, rfl⟩

/-! ## Fencing -/

/-- The row after the updates of its digest. -/
def fenced : List (String × RelayLease) → StoredRow → StoredRow
  | [], row => row
  | (recordDigest, lease) :: rest, row =>
      fenced rest (if row.recordDigest = recordDigest then { row with lease := some lease } else row)

theorem fenced_kept (updates : List (String × RelayLease)) (row : StoredRow) :
    (fenced updates row).toRelayMetadata = row.toRelayMetadata ∧
      (fenced updates row).wireJson = row.wireJson := by
  induction updates generalizing row with
  | nil => exact ⟨rfl, rfl⟩
  | cons update rest ih =>
      unfold fenced
      by_cases h : row.recordDigest = update.1
      · rw [if_pos h]
        exact ih _
      · rw [if_neg h]
        exact ih _

theorem fenced_of_notMem {updates : List (String × RelayLease)} {row : StoredRow}
    (h : row.recordDigest ∉ updates.map Prod.fst) : fenced updates row = row := by
  induction updates with
  | nil => rfl
  | cons update rest ih =>
      rw [List.map_cons, List.mem_cons, not_or] at h
      unfold fenced
      rw [if_neg h.1]
      exact ih h.2

theorem fenced_of_mem {updates : List (String × RelayLease)} {row : StoredRow} {lease : RelayLease}
    (hdistinct : (updates.map Prod.fst).Nodup) (h : (row.recordDigest, lease) ∈ updates) :
    (fenced updates row).lease = some lease := by
  induction updates with
  | nil => cases h
  | cons update rest ih =>
      rw [List.map_cons, List.nodup_cons] at hdistinct
      unfold fenced
      rcases List.mem_cons.1 h with rfl | hrest
      · rw [if_pos rfl]
        exact congrArg StoredRow.lease
          ((@fenced_of_notMem _ ({ row with lease := some lease })) hdistinct.1)
      · have hne : row.recordDigest ≠ update.1 := fun hsame =>
          hdistinct.1 (hsame ▸ List.mem_map_of_mem (f := Prod.fst) hrest)
        rw [if_neg hne]
        exact ih hdistinct.2 hrest

/-- Every update of a batch finds its one row. -/
theorem fenceRows_eq {updates : List (String × RelayLease)} {tables : StoredTables}
    (hqueue : UniqueBy (fun row : StoredRow => row.recordDigest) tables.queue)
    (hfound : ∀ update ∈ updates, ∃ row ∈ tables.queue, row.recordDigest = update.1) :
    fenceRows updates tables =
      .ok updates.length { tables with queue := tables.queue.map (fenced updates) } := by
  induction updates generalizing tables with
  | nil =>
      have hid : fenced [] = id := rfl
      rw [hid, List.map_id]
      rfl
  | cons update rest ih =>
      have hkept : ∀ row : StoredRow, (if row.recordDigest = update.1 then
          { row with lease := some update.2 } else row).recordDigest = row.recordDigest := by
        intro row
        split <;> rfl
      have hone : (tables.queue.filter fun row => decide (row.recordDigest = update.1)).length = 1 := by
        obtain ⟨row, hrow, hdigest⟩ := hfound update List.mem_cons_self
        have hle := hqueue.length_filter_le_one (k := update.1)
          (p := fun row => decide (row.recordDigest = update.1)) fun _ _ h => of_decide_eq_true h
        have hpos : 0 < (tables.queue.filter fun row =>
            decide (row.recordDigest = update.1)).length :=
          List.length_pos_of_mem (List.mem_filter.2 ⟨hrow, decide_eq_true hdigest⟩)
        omega
      have hrest := @ih { tables with queue := tables.queue.map fun row : StoredRow =>
        if row.recordDigest = update.1 then { row with lease := some update.2 } else row } ?_ ?_
      · unfold fenceRows
        rw [bind_apply, get_apply]
        dsimp only
        rw [bind_apply, set_apply]
        dsimp only
        rw [bind_apply, hrest, hone, List.map_map]
        dsimp only
        rw [pure_apply, List.length_cons, Nat.add_comm]
        rfl
      · unfold UniqueBy
        rw [List.map_map]
        have hsame : (fun row : StoredRow => row.recordDigest) ∘ (fun row : StoredRow =>
            if row.recordDigest = update.1 then { row with lease := some update.2 } else row) =
            fun row => row.recordDigest := funext hkept
        rw [hsame]
        exact hqueue
      · intro other hother
        obtain ⟨row, hrow, hdigest⟩ := hfound other (List.mem_cons_of_mem _ hother)
        exact ⟨_, List.mem_map_of_mem hrow, (hkept row).trans hdigest⟩

theorem assertDeadLetterPostconditions_eq {expected : List StoredLetter} {tables : StoredTables}
    (h : ∀ letter ∈ expected, tables.deadLetterRow letter.recordDigest = some letter ∧
      tables.queueRow letter.recordDigest = none) :
    assertDeadLetterPostconditions expected tables = .ok () tables := by
  induction expected with
  | nil => rfl
  | cons letter rest ih =>
      obtain ⟨hletter, hqueue⟩ := h letter List.mem_cons_self
      unfold assertDeadLetterPostconditions
      rw [bind_apply, get_apply]
      dsimp only
      rw [if_neg (by simp [hletter, hqueue])]
      exact ih fun other hother => h other (List.mem_cons_of_mem _ hother)

/-! ## The transaction -/

theorem mem_leased {leaseOwner expires : String} {token : Nat → String} {index : Nat}
    {items : List (String × BlindTransportRecord)} {item : String × BlindTransportRecord}
    (h : item ∈ items) :
    ∃ l ∈ leasedRecords leaseOwner expires token index items, l.record = item.2 ∧
      (item.1, (⟨l.leaseOwner, l.leaseId, l.leaseExpiresAt⟩ : RelayLease)) ∈
        leaseUpdates leaseOwner expires token index items := by
  induction items generalizing index with
  | nil => cases h
  | cons other rest ih =>
      rcases List.mem_cons.1 h with rfl | h
      · exact ⟨_, List.mem_cons_self, rfl, List.mem_cons_self⟩
      · obtain ⟨l, hl, hrecord, hupdate⟩ := ih h
        exact ⟨l, List.mem_cons_of_mem _ hl, hrecord, List.mem_cons_of_mem _ hupdate⟩

/-- The tables after a lease that sets aside the rows of a scan and makes the updates. -/
def afterLease (now : Instant) (tables : StoredTables) (scan : StoredScan)
    (updates : List (String × RelayLease)) : StoredTables where
  queue := (tables.queue.filter fun r =>
    r.recordDigest ∉ scan.setAside.map fun item => item.1.recordDigest).map (fenced updates)
  deadLetters := tables.deadLetters ++
    (scan.setAside.filter (isFresh tables)).map (letterOf now)

section Transaction

variable {tables : StoredTables} {destinationConnector leaseOwner : String}
  {limit wireBudget : Nat} {expires : Instant} {token : Nat → String} {scan : StoredScan}
  {rows : List StoredRow}

/-- The letters that are there after the moves are those that are asserted. -/
theorem deadLetterRow_afterLease {updates : List (String × RelayLease)}
    (hset : (scan.setAside.map fun item => item.1.recordDigest).Nodup)
    {item : StoredRow × List UInt8 × String} (hitem : item ∈ scan.setAside) 
    (hcompatible : Compatible now tables item) :
    (afterLease now tables scan updates).deadLetterRow
        (letterKept now tables item).recordDigest = some (letterKept now tables item) ∧
      (afterLease now tables scan updates).queueRow
        (letterKept now tables item).recordDigest = none := by
  have hdigest : (letterKept now tables item).recordDigest = item.1.recordDigest :=
    congrArg RelayMetadata.recordDigest (letterKept_spec hcompatible).1
  rw [hdigest]
  constructor
  · unfold letterKept StoredTables.deadLetterRow afterLease
    dsimp only
    unfold selectBy
    rw [List.find?_append]
    cases hrow : tables.deadLetterRow item.1.recordDigest with
    | some existing =>
        unfold StoredTables.deadLetterRow selectBy at hrow
        rw [hrow]
        rfl
    | none =>
        have hfresh : isFresh tables item = true := congrArg Option.isNone hrow
        have hunique : UniqueBy (fun letter : StoredLetter => letter.recordDigest)
            ((scan.setAside.filter (isFresh tables)).map (letterOf now)) := by
          unfold UniqueBy
          rw [List.map_map]
          exact hset.sublist (List.filter_sublist.map _)
        have hmem : letterOf now item ∈
            (scan.setAside.filter (isFresh tables)).map (letterOf now) :=
          List.mem_map_of_mem (List.mem_filter.2 ⟨hitem, hfresh⟩)
        unfold StoredTables.deadLetterRow selectBy at hrow
        rw [hrow, Option.none_or]
        exact hunique.selectBy_eq_some.2 ⟨hmem, rfl⟩
  · refine selectBy_eq_none.2 fun row hrow hsame => ?_
    obtain ⟨old, hold, rfl⟩ := List.mem_map.1 hrow
    have hold' : old.recordDigest = item.1.recordDigest :=
      (congrArg RelayMetadata.recordDigest (fenced_kept _ old).1).symm.trans hsame
    apply of_decide_eq_true (List.mem_filter.1 hold).2
    rw [hold']
    exact List.mem_map_of_mem (f := fun item => item.1.recordDigest) hitem

/-- The transaction of a lease whose scan succeeded, where no letter is in the way. -/
theorem leaseTransaction_eq
    (hqueue : UniqueBy (fun row : StoredRow => row.recordDigest) tables.queue)
    (hscan : scanRows H ed25519 loads config registry now tables limit wireBudget 0 0 0
      (scanned destinationConnector now.isoformat limit tables.queue) = .ok scan)
    (hok : ScanOk H rows scan) (hrows : ∀ row ∈ rows, row ∈ tables.queue)
    (hdistinct : scan.digests.Nodup)
    (hcompatible : ∀ item ∈ scan.setAside, Compatible now tables item) :
    leaseTransaction H ed25519 loads config registry destinationConnector leaseOwner limit
        wireBudget now expires token tables =
      .ok (leasedRecords leaseOwner expires.isoformat token 0 scan.leased, scan.budgetBlocked)
        (afterLease now tables scan
          (leaseUpdates leaseOwner expires.isoformat token 0 scan.leased)) := by
  obtain ⟨hset, hleased, hdisjoint⟩ := List.nodup_append.1 hdistinct
  have hletters := deadLetterAll_eq hset hcompatible
  have hremaining : UniqueBy (fun row : StoredRow => row.recordDigest) (tables.queue.filter fun r =>
      r.recordDigest ∉ scan.setAside.map fun item => item.1.recordDigest) :=
    hqueue.sublist List.filter_sublist
  -- The leased digests are digests of scanned rows that were not set aside.
  have hfound : ∀ update ∈ leaseUpdates leaseOwner expires.isoformat token 0 scan.leased,
      ∃ row ∈ tables.queue.filter fun r =>
        r.recordDigest ∉ scan.setAside.map fun item => item.1.recordDigest,
        row.recordDigest = update.1 := by
    intro update hupdate
    have hmem : update.1 ∈ scan.leased.map Prod.fst := by
      rw [← (@leaseUpdates_digests leaseOwner expires.isoformat token) 0]
      exact List.mem_map_of_mem (f := Prod.fst) hupdate
    have hscanned := hok.digests.subset (List.mem_append_right _ hmem)
    obtain ⟨row, hrow, hdigest⟩ := List.mem_map.1 hscanned
    refine ⟨row, List.mem_filter.2 ⟨hrows row hrow, decide_eq_true ?_⟩, hdigest⟩
    intro hside
    exact hdisjoint _ hside _ hmem hdigest
  have hfence := (@fenceRows_eq _ ({
    queue := tables.queue.filter fun r =>
      r.recordDigest ∉ scan.setAside.map fun item => item.1.recordDigest
    deadLetters := tables.deadLetters ++
      (scan.setAside.filter (isFresh tables)).map (letterOf now) })) hremaining hfound
  have hassert := (@assertDeadLetterPostconditions_eq (scan.setAside.map (letterKept now tables))
    (afterLease now tables scan
      (leaseUpdates leaseOwner expires.isoformat token 0 scan.leased))) ?_
  · unfold leaseTransaction
    refine transaction_of_ok ?_
    rw [bind_apply, get_apply]
    dsimp only
    rw [lift_ok_bind hscan, bind_apply, hletters]
    dsimp only
    rw [bind_apply, hfence]
    dsimp only
    rw [if_neg (not_not.2 rfl), bind_apply]
    unfold afterLease at hassert ⊢
    rw [hassert]
    rfl
  · intro letter hletter
    obtain ⟨item, hitem, rfl⟩ := List.mem_map.1 hletter
    exact deadLetterRow_afterLease hset hitem (hcompatible item hitem)

/-- A letter in the way makes the transaction raise. -/
theorem leaseTransaction_conflict
    (hscan : scanRows H ed25519 loads config registry now tables limit wireBudget 0 0 0
      (scanned destinationConnector now.isoformat limit tables.queue) = .ok scan)
    (hdistinct : scan.digests.Nodup)
    (hconflict : ∃ item ∈ scan.setAside, ¬Compatible now tables item) :
    ∃ message, leaseTransaction H ed25519 loads config registry destinationConnector leaseOwner
      limit wireBudget now expires token tables = .error (.integrityError message) tables := by
  obtain ⟨hset, -, -⟩ := List.nodup_append.1 hdistinct
  obtain ⟨message, tables', herror⟩ := deadLetterAll_conflict hset hconflict
  refine ⟨message, ?_⟩
  unfold leaseTransaction transaction
  rw [bind_apply, get_apply]
  dsimp only
  rw [lift_ok_bind hscan, bind_apply, herror]

end Transaction

/-! ## The rows of a lease -/

/-- The rows that a lease scans are rows of the queue with distinct digests. -/
theorem scanned_mem {tables : StoredTables}
    (hqueue : UniqueBy (fun row : StoredRow => row.recordDigest) tables.queue)
    (destinationConnector now : String) (limit : Nat) :
    (∀ row ∈ scanned destinationConnector now limit tables.queue, row ∈ tables.queue) ∧
      ((scanned destinationConnector now limit tables.queue).map
        fun row => row.recordDigest).Nodup := by
  have hperm := List.perm_insertionSort precedes
    (tables.queue.filter (available destinationConnector now))
  constructor
  · intro row hrow
    exact List.mem_of_mem_filter (hperm.mem_iff.1 (List.mem_of_mem_take hrow))
  · have hfiltered : UniqueBy (fun row : StoredRow => row.recordDigest)
        (tables.queue.filter (available destinationConnector now)) :=
      hqueue.sublist List.filter_sublist
    exact (hfiltered.perm hperm.symm).sublist (List.take_sublist _ _)

end Writes

end StoredQueue

end Polymorph
