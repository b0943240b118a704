import Polymorph.Relay.LeaseBatch

/-!
# The error about the wire limit

A lease that leases nothing because a row does not fit its wire budget raises. The bytes of the rows
that it dead-lettered count against the budget, so the row may well fit by itself.
-/

set_option autoImplicit false

namespace Polymorph

open JsonText Transaction Table Utc

namespace StoredQueue

open SealedRelayQueue

/-- Where the call raises the error, the first row that remains available exceeds the budget by
itself. -/
def TruthfulWireLimit (H : Host) (ed25519 : List UInt8 → ByteArray → List UInt8 → Bool)
    (loads : JsonLoads) (config : RelayConfig) (registry : Option SourceTrustStore) (now : Instant)
    (destinationConnector leaseOwner : String) (limit leaseFor : Int) (maxWireBytes : Option Int)
    (token : Nat → String) (tables : StoredTables) : Prop :=
  ∀ tables', lease H ed25519 loads config registry destinationConnector leaseOwner limit leaseFor
      maxWireBytes now token tables = .error wireLimitExceeded tables' →
    ∃ row, (availableRows destinationConnector now.isoformat tables'.queue).head? = some row ∧
      wireBudgetOf config maxWireBytes < row.wireJson.length

/-- The first available rows all fail, and the row behind them fits the budget, but not on top of
their bytes. -/
structure Squeezes (H : Host) (ed25519 : List UInt8 → ByteArray → List UInt8 → Bool)
    (loads : JsonLoads) (config : RelayConfig) (registry : Option SourceTrustStore) (now : Instant)
    (destinationConnector : String) (wireBudget : Int) (tables : StoredTables)
    (failing : List StoredRow) (next : StoredRow) (rest : List StoredRow) : Prop where
  rows : availableRows destinationConnector now.isoformat tables.queue = failing ++ next :: rest
  count : failing.length ≤ maxDeadLettersPerLease
  fails : ∀ row ∈ failing, ∃ code, FailsAt H ed25519 loads config registry now row code ∧
    Compatible now tables (letterItem config row code)
  readable : next.wireJson.length ≤ config.limits.maxRecordWireBytes
  fits : (next.wireJson.length : Int) ≤ wireBudget
  before : (bytesRead config failing : Int) ≤ wireBudget
  exceeds : wireBudget < bytesRead config failing + next.wireJson.length

section WireLimit

variable {H : Host} {ed25519 : List UInt8 → ByteArray → List UInt8 → Bool} {loads : JsonLoads}
  {config : RelayConfig} {registry : Option SourceTrustStore} {now : Instant}
  {destinationConnector leaseOwner : String} {tables : StoredTables}

/-- Two rows that precede each other have one digest. -/
theorem digest_of_precedes {a b : StoredRow} (hab : precedes a b) (hba : precedes b a) :
    a.recordDigest = b.recordDigest := by
  unfold precedes at hab hba
  rcases hab with hab | ⟨hab, hd⟩
  · rcases hba with hba | ⟨hba, -⟩
    · exact absurd hab (lt_asymm hba)
    · exact absurd hab (hba ▸ lt_irrefl _)
  · rcases hba with hba | ⟨-, hd'⟩
    · exact absurd hba (hab ▸ lt_irrefl _)
    · exact le_antisymm hd hd'

theorem availableRows_ordered (destinationConnector now : String) (queue : List StoredRow) :
    (availableRows destinationConnector now queue).Pairwise precedes :=
  pairwise_orderBy (r := precedes) (f := fun row => row.receivedAt) (g := fun row => row.recordDigest)
    (fun _ _ => Iff.rfl) _

theorem mem_availableRows {destinationConnector now : String} {queue : List StoredRow}
    {row : StoredRow} (h : row ∈ availableRows destinationConnector now queue) : row ∈ queue :=
  List.mem_of_mem_filter ((List.perm_insertionSort precedes _).mem_iff.1 h)

/-- The order of the rows that stay is the order that they had. -/
theorem availableRows_filter (destinationConnector now : String) {queue : List StoredRow}
    (hqueue : UniqueBy (fun row : StoredRow => row.recordDigest) queue) (p : StoredRow → Bool) :
    availableRows destinationConnector now (queue.filter p) =
      (availableRows destinationConnector now queue).filter p := by
  have hperm : (availableRows destinationConnector now (queue.filter p)).Perm
      ((availableRows destinationConnector now queue).filter p) := by
    refine (List.perm_insertionSort precedes _).trans ?_
    refine List.Perm.trans ?_ ((List.perm_insertionSort precedes _).filter p).symm
    rw [List.filter_filter, List.filter_filter]
    refine List.Perm.of_eq (List.filter_congr fun row _ => ?_)
    exact Bool.and_comm _ _
  refine hperm.eq_of_pairwise ?_ (availableRows_ordered _ _ _)
    ((availableRows_ordered _ _ _).sublist List.filter_sublist)
  intro a b ha hb hab hba
  refine hqueue.eq_of_mem ?_ ?_ (digest_of_precedes hab hba)
  · exact List.mem_of_mem_filter (mem_availableRows ha)
  · exact mem_availableRows (List.mem_of_mem_filter hb)

/-- A run over rows that fail, up to a row that exceeds what they left of the budget. -/
theorem scanRows_failing {limit wireBudget dead consumed : Nat} {failing rest : List StoredRow}
    {next : StoredRow} (hlimit : 0 < limit)
    (hqueue : UniqueBy (fun row : StoredRow => row.recordDigest) tables.queue)
    (hrows : ∀ row ∈ failing, row ∈ tables.queue)
    (hdead : dead + failing.length ≤ maxDeadLettersPerLease)
    (hfails : ∀ row ∈ failing, ∃ code, FailsAt H ed25519 loads config registry now row code)
    (hnext : oversized config next = false)
    (hbefore : consumed + bytesRead config failing ≤ wireBudget)
    (hexceeds : wireBudget < consumed + bytesRead config failing + next.wireJson.length) :
    scanRows H ed25519 loads config registry now tables limit wireBudget 0 dead consumed
      (failing ++ next :: rest) =
        .ok (scanOf H ed25519 loads config registry now failing true) := by
  induction failing generalizing dead consumed with
  | nil =>
      have hsize := Nat.not_lt.2 (oversized_eq_false.1 hnext)
      have hover : consumed + next.wireJson.length > wireBudget := hexceeds
      rw [List.nil_append]
      unfold scanRows
      rw [if_neg (Nat.not_le.2 hlimit)]
      dsimp only
      rw [if_neg hsize, if_pos hover]
      rfl
  | cons row failing ih =>
      have hroom : ¬dead ≥ maxDeadLettersPerLease := by
        rw [List.length_cons] at hdead
        omega
      have hlater : dead + 1 + failing.length ≤ maxDeadLettersPerLease := by
        rw [List.length_cons] at hdead
        omega
      have hrest := fun r hr => hrows r (List.mem_cons_of_mem _ hr)
      have hfailing := fun r hr => hfails r (List.mem_cons_of_mem _ hr)
      obtain ⟨code, hcode⟩ := hfails row List.mem_cons_self
      unfold bytesRead at hbefore hexceeds
      rw [List.map_cons, List.sum_cons, ← Nat.add_assoc] at hbefore hexceeds
      rw [List.cons_append]
      unfold scanRows
      rw [if_neg (Nat.not_le.2 hlimit)]
      dsimp only
      cases hsize : oversized config row with
      | true =>
          rw [hsize, if_pos rfl, Nat.add_zero] at hbefore hexceeds
          rw [if_pos (of_decide_eq_true hsize), if_neg hroom,
            ih hrest hlater hfailing hbefore hexceeds, scanOf_oversized hsize]
          rfl
      | false =>
          rw [hsize, if_neg Bool.false_ne_true] at hbefore hexceeds
          have hfits : ¬consumed + row.wireJson.length > wireBudget :=
            Nat.not_lt.2 ((Nat.le_add_right _ _).trans hbefore)
          have hexamine := rejected_of_failsAt hsize hcode
          have hstored : tables.queueRow row.recordDigest = some row :=
            hqueue.selectBy_eq_some.2 ⟨hrows row List.mem_cons_self, rfl⟩
          have hverdict : examineStored H ed25519 loads config registry now row.recordDigest
              row.wireJson.length row.wireJson = .ok (.rejected code) := hexamine
          rw [if_neg (of_decide_eq_false hsize), if_neg hfits, hstored]
          dsimp only
          rw [hverdict]
          dsimp only
          rw [if_neg hroom, ih hrest hlater hfailing hbefore hexceeds,
            scanOf_rejected hsize hexamine]
          rfl

/-- After a lease that only set rows aside, the row behind them is the first that is available. -/
theorem Committed.head {limit wireBudget : Nat} {taken : List StoredRow} {scan : StoredScan}
    (h : Committed H ed25519 loads config registry now destinationConnector limit wireBudget tables
      taken scan)
    (hqueue : UniqueBy (fun row : StoredRow => row.recordDigest) tables.queue)
    (hleased : scan.leased = []) {next : StoredRow} {rest : List StoredRow}
    (hrows : availableRows destinationConnector now.isoformat tables.queue = taken ++ next :: rest)
    (hset : ∀ row ∈ taken, row.recordDigest ∈ scan.setAside.map fun item => item.1.recordDigest)
    {leaseOwner expires : String} {token : Nat → String} :
    (availableRows destinationConnector now.isoformat (afterLease now tables scan
      (leaseUpdates leaseOwner expires token 0 scan.leased)).queue).head? = some next := by
  have hnext : next.recordDigest ∉ scan.setAside.map fun item => item.1.recordDigest := by
    intro hside
    obtain ⟨row, hrow, hsame⟩ := h.within _ (List.mem_append_left _ hside)
    have hunique : UniqueBy (fun row : StoredRow => row.recordDigest) (taken ++ next :: rest) := by
      rw [← hrows]
      have hfiltered : UniqueBy (fun row : StoredRow => row.recordDigest)
          (tables.queue.filter (available destinationConnector now.isoformat)) :=
        hqueue.sublist List.filter_sublist
      exact hfiltered.perm (List.perm_insertionSort precedes _).symm
    unfold UniqueBy at hunique
    rw [List.map_append, List.nodup_append] at hunique
    exact hunique.2.2 _ (List.mem_map_of_mem hrow) _ List.mem_cons_self hsame
  let p : StoredRow → Bool := fun r =>
    decide (r.recordDigest ∉ scan.setAside.map fun item => item.1.recordDigest)
  have hqueue' : (afterLease now tables scan
      (leaseUpdates leaseOwner expires token 0 scan.leased)).queue = tables.queue.filter p := by
    rw [hleased]
    exact List.map_id _
  have hgone : taken.filter p = [] := by
    rw [List.filter_eq_nil_iff]
    intro row hrow
    rw [decide_eq_true_iff]
    exact not_not.2 (hset row hrow)
  have hkept : p next = true := decide_eq_true hnext
  rw [hqueue', availableRows_filter _ _ hqueue, hrows, List.filter_append, hgone, List.nil_append,
    List.filter_cons_of_pos hkept, List.head?_cons]

theorem FailsAt.short {row : StoredRow} {code : String}
    (h : FailsAt H ed25519 loads config registry now row code) :
    ¬LongColumn loads config row.wireJson := by
  intro hlong
  have hsize := oversized_eq_false.2 hlong.length_le
  obtain ⟨e, he⟩ := (@examineRow_error_iff H ed25519 _ _ registry now row).2 hlong
  rw [rejected_of_failsAt hsize h] at he
  cases he

/-- A row that fails has one reason code, and is planned under it. -/
theorem FailsAt.planned {row : StoredRow} {code : String}
    (h : FailsAt H ed25519 loads config registry now row code) :
    passing H ed25519 loads config registry now row = false ∧
      (scanOf H ed25519 loads config registry now [row] false).setAside =
        [letterItem config row code] := by
  cases hsize : oversized config row with
  | true =>
      have hcode : code = "relay_wire_invalid" := by
        have hover := of_decide_eq_true hsize
        cases h with
        | size h => rfl
        | storage hfits _ => exact absurd hover (Nat.not_lt.2 hfits)
        | decoding hfits _ _ _ => exact absurd hover (Nat.not_lt.2 hfits)
        | policy hfits _ _ _ _ => exact absurd hover (Nat.not_lt.2 hfits)
        | digest hfits _ _ _ _ => exact absurd hover (Nat.not_lt.2 hfits)
      refine ⟨congrArg Option.isSome (if_pos hsize), ?_⟩
      rw [scanOf_oversized hsize, letterItem, if_pos hsize, hcode]
      rfl
  | false =>
      have hexamine := rejected_of_failsAt hsize h
      refine ⟨by simp [passing, leasedOf, hsize, hexamine], ?_⟩
      rw [scanOf_rejected hsize hexamine, letterItem, if_neg (by simp [hsize])]
      rfl

/-- Of rows that all fail, the plan is one letter for each. -/
theorem setAside_failing {failing : List StoredRow} {budgetBlocked : Bool}
    (hfails : ∀ row ∈ failing, ∃ code, FailsAt H ed25519 loads config registry now row code) :
    (scanOf H ed25519 loads config registry now failing budgetBlocked).setAside.length =
        failing.length ∧
      (scanOf H ed25519 loads config registry now failing budgetBlocked).leased = [] := by
  have hpassing : failing.filter (passing H ed25519 loads config registry now) = [] := by
    rw [List.filter_eq_nil_iff]
    intro row hrow
    obtain ⟨code, hcode⟩ := hfails row hrow
    rw [hcode.planned.1]
    exact Bool.false_ne_true
  have hlength := (@length_taken H ed25519 loads config registry now failing budgetBlocked)
    fun row hrow => by
      obtain ⟨code, hcode⟩ := hfails row hrow
      exact hcode.short
  rw [hpassing, List.length_nil, Nat.zero_add] at hlength
  refine ⟨hlength.symm, List.filterMap_eq_nil_iff.2 fun row hrow => ?_⟩
  obtain ⟨code, hcode⟩ := hfails row hrow
  exact Option.isSome_eq_false_iff.1 hcode.planned.1 |> Option.isNone_iff_eq_none.1

/-- The loop over rows that squeeze the next one sets them aside and is blocked. -/
theorem Squeezes.committed {limit wireBudget : Nat} {failing rest : List StoredRow}
    {next : StoredRow} {expires : Instant} {token : Nat → String}
    (h : Squeezes H ed25519 loads config registry now destinationConnector wireBudget tables failing
      next rest) (hlimit : 0 < limit)
    (hqueue : UniqueBy (fun row : StoredRow => row.recordDigest) tables.queue) :
    Committed H ed25519 loads config registry now destinationConnector limit wireBudget tables
        failing (scanOf H ed25519 loads config registry now failing true) ∧
      leaseTransaction H ed25519 loads config registry destinationConnector leaseOwner limit
          wireBudget now expires token tables =
        .ok ([], true) (afterLease now tables
          (scanOf H ed25519 loads config registry now failing true) []) := by
  have hfails : ∀ row ∈ failing, ∃ code, FailsAt H ed25519 loads config registry now row code := by
    intro row hrow
    obtain ⟨code, hcode, -⟩ := h.fails row hrow
    exact ⟨code, hcode⟩
  obtain ⟨hcount, hleased⟩ := (@setAside_failing H ed25519 loads config registry now failing true)
    hfails
  have hrows : ∀ row ∈ failing, row ∈ tables.queue := by
    intro row hrow
    have hmem : row ∈ availableRows destinationConnector now.isoformat tables.queue := by
      rw [h.rows]
      exact List.mem_append_left _ hrow
    exact mem_availableRows hmem
  have hbefore := h.before
  have hexceeds := h.exceeds
  have hfew := h.count
  -- The scan limit leaves room for the failing rows and the next one.
  have hscanned : scanned destinationConnector now.isoformat limit tables.queue =
      failing ++ next :: rest.take (limit + maxDeadLettersPerLease - failing.length - 1) := by
    have htake : scanned destinationConnector now.isoformat limit tables.queue =
        (availableRows destinationConnector now.isoformat tables.queue).take
          (limit + maxDeadLettersPerLease) := rfl
    obtain ⟨room, hroom⟩ : ∃ room, limit + maxDeadLettersPerLease - failing.length = room + 1 :=
      ⟨limit + maxDeadLettersPerLease - failing.length - 1, by omega⟩
    rw [htake, h.rows, List.take_append, List.take_of_length_le (by omega), hroom,
      List.take_succ_cons, Nat.add_sub_cancel]
  have hscan := (@scanRows_failing H ed25519 loads config registry now tables limit wireBudget 0 0
    failing (rest.take (limit + maxDeadLettersPerLease - failing.length - 1)) next) hlimit hqueue
      hrows (by omega) hfails (oversized_eq_false.2 h.readable) (by omega) (by omega)
  rw [← hscanned] at hscan
  have hexit : ScanExit config limit wireBudget 0 0 0
      (scanned destinationConnector now.isoformat limit tables.queue) failing
      (scanOf H ed25519 loads config registry now failing true) := by
    refine ⟨?_, ?_, by omega, fun _ => ?_, fun hb => nomatch hb⟩
    · rw [hleased, List.length_nil]
      exact Nat.zero_le _
    · rw [hcount]
      omega
    · refine ⟨next, _, hscanned, oversized_eq_false.2 h.readable, by omega⟩
  have hcompatible : ∀ item ∈ (scanOf H ed25519 loads config registry now failing true).setAside,
      Compatible now tables item := by
    intro item hitem
    have hplanned : ∀ rows : List StoredRow, (∀ row ∈ rows, row ∈ failing) →
        item ∈ (scanOf H ed25519 loads config registry now rows true).setAside →
          Compatible now tables item := by
      intro rows hsub hmem
      induction rows with
      | nil => cases hmem
      | cons row rows ih =>
          rcases mem_setAside_cons.1 hmem with hfirst | hrest
          · obtain ⟨code, hcode, hletter⟩ := h.fails row (hsub row List.mem_cons_self)
            rw [hcode.planned.2] at hfirst
            rw [List.mem_singleton.1 hfirst]
            exact hletter
          · exact ih (fun r hr => hsub r (List.mem_cons_of_mem _ hr)) hrest
    exact hplanned failing (fun _ hrow => hrow) hitem
  obtain ⟨hcommitted, hrun⟩ := (@committed_of_scan H ed25519 loads config registry now
    destinationConnector leaseOwner token tables limit wireBudget expires failing true) hqueue hscan
      (fun row hrow => (hfails row hrow).elim fun code hcode => hcode.short) hexit hcompatible
  rw [hleased] at hrun
  exact ⟨hcommitted, hrun⟩

/-- Every row that was taken without any being leased is set aside. -/
theorem Committed.all_set_aside {limit wireBudget : Nat} {taken : List StoredRow}
    {scan : StoredScan}
    (h : Committed H ed25519 loads config registry now destinationConnector limit wireBudget tables
      taken scan) (hleased : scan.leased = []) :
    (∀ row ∈ taken, ∃ code, FailsAt H ed25519 loads config registry now row code ∧
        letterItem config row code ∈ scan.setAside) ∧
      scan.setAside.length = taken.length := by
  have hscan := h.scan_eq
  have hnone : ∀ row ∈ taken, leasedOf H ed25519 loads config registry now row = none := by
    rw [hscan] at hleased
    exact List.filterMap_eq_nil_iff.1 hleased
  constructor
  · intro row hrow
    have hmem := (@mem_setAside H ed25519 loads config registry now row taken scan.budgetBlocked)
      hrow (h.short row hrow) (congrArg Option.isSome (hnone row hrow))
    rw [← hscan] at hmem
    exact hmem
  · have hlength := (@length_taken H ed25519 loads config registry now taken scan.budgetBlocked)
      h.short
    rw [← hscan] at hlength
    have hpassing : taken.filter (passing H ed25519 loads config registry now) = [] := by
      rw [List.filter_eq_nil_iff]
      intro row hrow
      unfold passing
      rw [hnone row hrow]
      exact Bool.false_ne_true
    rw [hpassing, List.length_nil, Nat.zero_add] at hlength
    exact hlength.symm

/-- Where rows squeeze the next one, the call raises the error although that row fits. -/
theorem not_truthful_of_squeezes {limit leaseFor : Int} {maxWireBytes : Option Int}
    {token : Nat → String} {failing rest : List StoredRow} {next : StoredRow}
    (hqueue : UniqueBy (fun row : StoredRow => row.recordDigest) tables.queue)
    (hvalid : ValidCall config leaseOwner limit leaseFor maxWireBytes now)
    (h : Squeezes H ed25519 loads config registry now destinationConnector
      (wireBudgetOf config maxWireBytes) tables failing next rest) :
    ¬TruthfulWireLimit H ed25519 loads config registry now destinationConnector leaseOwner limit
      leaseFor maxWireBytes token tables := by
  have hbudget : ((wireBudgetOf config maxWireBytes).toNat : Int) =
      wireBudgetOf config maxWireBytes :=
    Int.toNat_of_nonneg (by have := hvalid.budget; omega)
  obtain ⟨expires, hcall⟩ := (@lease_of_valid H ed25519 loads config registry now
    destinationConnector leaseOwner limit leaseFor maxWireBytes token tables) hvalid
  have hfits := h.fits
  have hrows := h.rows
  rw [← hbudget] at h
  obtain ⟨hcommitted, hrun⟩ := (@Squeezes.committed H ed25519 loads config registry now
    destinationConnector leaseOwner tables limit.toNat _ failing rest next expires token) h
      (by have := hvalid.limit; omega) hqueue
  rw [hrun] at hcall
  have hleased : (scanOf H ed25519 loads config registry now failing true).leased = [] :=
    ((@setAside_failing H ed25519 loads config registry now failing true) fun row hrow =>
      (h.fails row hrow).imp fun code hcode => hcode.1).2
  intro htruthful
  obtain ⟨row, hhead, hexceeds⟩ := htruthful _ hcall
  have hnext := (@Committed.head H ed25519 loads config registry now destinationConnector tables _ _
    failing _ hcommitted hqueue hleased next rest hrows ?_ leaseOwner expires.isoformat token)
  · rw [hleased] at hnext
    have hsame : row = next := Option.some.inj (hhead.symm.trans hnext)
    rw [hsame] at hexceeds
    omega
  · intro taken htaken
    obtain ⟨code, -, hitem⟩ := (hcommitted.all_set_aside hleased).1 taken htaken
    exact List.mem_map_of_mem (f := fun item => item.1.recordDigest) hitem

/-- Where no rows squeeze the next one, the error is truthful. -/
theorem truthful_of_not_squeezes {limit leaseFor : Int} {maxWireBytes : Option Int}
    {token : Nat → String}
    (hqueue : UniqueBy (fun row : StoredRow => row.recordDigest) tables.queue)
    (h : ¬(ValidCall config leaseOwner limit leaseFor maxWireBytes now ∧
      ∃ failing next rest, Squeezes H ed25519 loads config registry now destinationConnector
        (wireBudgetOf config maxWireBytes) tables failing next rest)) :
    TruthfulWireLimit H ed25519 loads config registry now destinationConnector leaseOwner limit
      leaseFor maxWireBytes token tables := by
  intro tables' herror
  by_cases hvalid : ValidCall config leaseOwner limit leaseFor maxWireBytes now
  swap
  · obtain ⟨e, hraised, hother⟩ := (@lease_of_invalid H ed25519 loads config registry now
      destinationConnector leaseOwner limit leaseFor maxWireBytes token tables) hvalid
    rw [hraised] at herror
    cases herror
    exact absurd rfl hother
  have hbudget : ((wireBudgetOf config maxWireBytes).toNat : Int) =
      wireBudgetOf config maxWireBytes :=
    Int.toNat_of_nonneg (by have := hvalid.budget; omega)
  obtain ⟨expires, hcall⟩ := (@lease_of_valid H ed25519 loads config registry now
    destinationConnector leaseOwner limit leaseFor maxWireBytes token tables) hvalid
  rw [hcall] at herror
  rcases (@leaseTransaction_cases H ed25519 loads config registry now destinationConnector
      leaseOwner token tables limit.toNat (wireBudgetOf config maxWireBytes).toNat expires)
      hqueue with ⟨e, hraised, hother⟩ | ⟨taken, scan, hcommitted, hrun⟩
  · rw [hraised] at herror
    cases herror
    exact absurd rfl hother
  rw [hrun] at herror
  dsimp only at herror
  split at herror
  swap
  · cases herror
  rename_i hblocked
  cases herror
  have hleased : scan.leased = [] := by
    cases hitems : scan.leased with
    | nil => rfl
    | cons item items =>
        rw [hitems] at hblocked
        cases hblocked.2
  obtain ⟨hfails, hcount⟩ := hcommitted.all_set_aside hleased
  obtain ⟨next, after, hscanned, hsize, hexceeds⟩ := hcommitted.exit.blocked hblocked.1
  have hrows : availableRows destinationConnector now.isoformat tables.queue = taken ++ next ::
      (after ++ (availableRows destinationConnector now.isoformat tables.queue).drop
        (limit.toNat + maxDeadLettersPerLease)) := by
    have htake : (availableRows destinationConnector now.isoformat tables.queue).take
        (limit.toNat + maxDeadLettersPerLease) = taken ++ next :: after := hscanned
    have hsplit := List.take_append_drop (limit.toNat + maxDeadLettersPerLease)
      (availableRows destinationConnector now.isoformat tables.queue)
    rw [htake, List.append_assoc, List.cons_append] at hsplit
    exact hsplit.symm
  refine ⟨next, hcommitted.head hqueue hleased hrows fun row hrow => ?_, ?_⟩
  · obtain ⟨code, -, hitem⟩ := hfails row hrow
    exact List.mem_map_of_mem (f := fun item => item.1.recordDigest) hitem
  · by_contra hfits
    have hbefore := hcommitted.exit.bytes_le
    have hdead := hcommitted.exit.dead_le
    refine h ⟨hvalid, taken, next, _, hrows, by omega, fun row hrow => ?_,
      oversized_eq_false.1 hsize, not_lt.1 hfits, by omega, by omega⟩
    obtain ⟨code, hcode, hitem⟩ := hfails row hrow
    exact ⟨code, hcode, hcommitted.compatible _ hitem⟩

end WireLimit

/-- **The error about the wire limit is truthful** unless the first available rows all fail and the
row behind them fits the budget, but not on top of their bytes. -/
theorem truthful_wire_limit_iff (H : Host)
    (ed25519 : List UInt8 → ByteArray → List UInt8 → Bool) (loads : JsonLoads)
    (config : RelayConfig) (registry : Option SourceTrustStore) (now : Instant)
    (destinationConnector leaseOwner : String) (limit leaseFor : Int) (maxWireBytes : Option Int)
    (token : Nat → String) (tables : StoredTables)
    (hqueue : UniqueBy (fun row : StoredRow => row.recordDigest) tables.queue) :
    TruthfulWireLimit H ed25519 loads config registry now destinationConnector leaseOwner limit
        leaseFor maxWireBytes token tables ↔
      ¬(ValidCall config leaseOwner limit leaseFor maxWireBytes now ∧
        ∃ failing next rest, Squeezes H ed25519 loads config registry now destinationConnector
          (wireBudgetOf config maxWireBytes) tables failing next rest) := by
  constructor
  · rintro htruthful ⟨hvalid, failing, next, rest, h⟩
    exact not_truthful_of_squeezes hqueue hvalid h htruthful
  · exact truthful_of_not_squeezes hqueue

/-- Two rows of one byte each, which are no JSON texts. -/
def twoRows : StoredTables where
  queue := (oneRow (utf8Bytes ['x'])).queue ++
    (oneRow (utf8Bytes ['x'])).queue.map fun row => { row with recordDigest := "other" }

/-- With a budget of one byte, the first row is dead-lettered, and the second, which fits the budget,
is said to exceed it. -/
theorem wire_limit_untruthful : UniqueBy (fun row : StoredRow => row.recordDigest) twoRows.queue ∧
    ¬TruthfulWireLimit standardHost (fun _ _ _ => true) limitedLoads closedRelay none
      ⟨⟨2026, 1, 1, 0, 0, 0, 0⟩, by decide⟩ "warehouse" "worker" 1 60000000 (some 1)
      (fun _ => "token") twoRows := by
  refine ⟨by unfold UniqueBy; decide, fun htruthful => ?_⟩
  obtain ⟨row, hhead, hexceeds⟩ := htruthful _ rfl
  cases hhead
  exact absurd hexceeds (by decide)

/-- A single row cannot be squeezed. -/
theorem truthful_wire_limit_sample :
    TruthfulWireLimit standardHost (fun _ _ _ => true) limitedLoads closedRelay none
      ⟨⟨2026, 1, 1, 0, 0, 0, 0⟩, by decide⟩ "warehouse" "worker" 1 60000000 (some 1)
      (fun _ => "token") (oneRow (utf8Bytes ['x'])) := by
  refine (truthful_wire_limit_iff _ _ _ _ _ _ _ _ _ _ _ _ (oneRow (utf8Bytes ['x']))
    (List.nodup_singleton _)).2 ?_
  rintro ⟨-, failing, next, rest, h⟩
  have hlength : failing.length + (rest.length + 1) = 1 := by
    have hrows := congrArg List.length h.rows
    rw [List.length_append, List.length_cons] at hrows
    exact hrows.symm
  have hfailing : failing = [] := List.eq_nil_of_length_eq_zero (by omega)
  have hfits := h.fits
  have hexceeds := h.exceeds
  rw [hfailing] at hexceeds
  unfold bytesRead at hexceeds
  rw [List.map_nil, List.sum_nil] at hexceeds
  omega

end StoredQueue

end Polymorph
