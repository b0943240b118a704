import Polymorph.Source.OutboxSpec

/-!
# Durability of the outbox

Any number of staging, reading and acknowledging calls, with reopenings in between. What waits is
read off the history alone: the records that the calls accepted, in the order in which they did,
without those acknowledged. The table is the table of these records after every history, and what
callers may rely on follows from the shape of that table.
-/

set_option autoImplicit false

namespace Polymorph

open JsonText Transaction Table Utc

/-- A call on the outbox, or a restart of the process that owns it. -/
inductive OutboxCall where
  | stageMany (clock : Nat → Instant) (records : List BlindTransportRecord)
  | pending (limit : Int) (maxWireBytes : Option Int)
  | ackMany (recordDigests : List String)
  | reopen

/-- What the caller saw. -/
inductive OutboxResult where
  | staged (result : Except Exn (List OutboxReceipt))
  | read (result : Except Exn (List PendingRecord))
  | acked (result : Except Exn (List Bool))
  | reopened

namespace SourceOutbox

variable (H : Host) (config : OutboxConfig)

/-- One call. The table is on disk, so a restart leaves it. -/
def exec : OutboxCall → Outbox → OutboxResult × Outbox
  | .stageMany clock records, rows =>
      let (result, rows') := outcome (stageMany H config clock records) rows
      (.staged result, rows')
  | .pending limit maxWireBytes, rows =>
      let (result, rows') := outcome (pending H config limit maxWireBytes) rows
      (.read result, rows')
  | .ackMany recordDigests, rows =>
      let (result, rows') := outcome (ackMany recordDigests) rows
      (.acked result, rows')
  | .reopen, rows => (.reopened, rows)

/-- A history from the empty outbox: what was called and seen, and the table. -/
def run : List OutboxCall → List (OutboxCall × OutboxResult) × Outbox
  | [] => ([], [])
  | call :: earlier =>
      let (history, rows) := run earlier
      let (result, rows') := exec H config call rows
      ((call, result) :: history, rows')

/-- The records accepted and not yet acknowledged, by the history alone. -/
def waiting : List (OutboxCall × OutboxResult) → List StagedRecord
  | [] => []
  | (.stageMany _ records, .staged (.ok receipts)) :: earlier =>
      waiting earlier ++ accepted records receipts
  | (.ackMany recordDigests, .acked (.ok _)) :: earlier =>
      (waiting earlier).filter fun e => e.digest H ∉ recordDigests
  | _ :: earlier => waiting earlier

/-- What callers may rely on while `w` waits. -/
structure Durable (w : List StagedRecord) (rows : Outbox) : Prop where
  /-- the queue that `pending` reads from holds what waits, in its order -/
  queued : (queue H w).Perm w ∧
    (queue H w).Pairwise fun a b => precedes (a.row H) (b.row H)
  /-- the default budget returns the records themselves and never raises for a row -/
  read : ∀ limit : Int, 1 ≤ limit ∧ limit ≤ 10000 →
    ∃ out, pending H config limit none rows = .ok out rows ∧
      List.Forall₂ (Delivers H) (boundedPrefix (fun e => e.record.wireBytes)
        config.maxBatchWireBytes ((queue H w).take limit.toNat)) out
  /-- a smaller budget raises only when it does not admit the first record -/
  readWithin : ∀ (limit : Int) (budget : Nat), 1 ≤ limit ∧ limit ≤ 10000 →
    1 ≤ budget ∧ budget ≤ config.maxBatchWireBytes →
    (∃ out, pending H config limit (some budget) rows = .ok out rows ∧
      List.Forall₂ (Delivers H) (boundedPrefix (fun e => e.record.wireBytes) budget
        ((queue H w).take limit.toNat)) out) ∨
      (∃ e ∈ (queue H w).head?, budget < e.record.wireBytes) ∧
        pending H config limit (some budget) rows =
          .error (.valueError "next outbox record exceeds the pending wire limit") rows
  /-- one row for each transfer identity -/
  unique : UniqueBy OutboxRow.key rows
  /-- the same bytes again -/
  restaged : ∀ e ∈ w, ∀ (clock : Nat → Instant) (record : BlindTransportRecord),
    record.canonicalWire = e.record.canonicalWire →
    stageMany H config clock [record] rows = .ok [⟨e.digest H, e.stagedAt, true⟩] rows
  /-- different bytes under the identity of a waiting record, unless they are invalid themselves -/
  conflict : ∀ e ∈ w, ∀ (clock : Nat → Instant) (record : BlindTransportRecord),
    record.outboxKey = e.key → record.canonicalWire ≠ e.record.canonicalWire →
    ∃ x, stageMany H config clock [record] rows = .error x rows ∧
      (x = .replayDetected
          "source outbox transfer identity was reused with different sealed bytes" ∨
        prepareStage H config (clock 0) record = .error x)
  /-- a batch that raises changes no row -/
  atomic : ∀ (clock : Nat → Instant) (records : List BlindTransportRecord) (x : Exn)
    (rows' : Outbox), stageMany H config clock records rows = .error x rows' → rows' = rows
  /-- in a batch that succeeds, every record whose identity waits is a duplicate of what waits -/
  receipts : ∀ (clock : Nat → Instant) (records : List BlindTransportRecord)
    (receipts : List OutboxReceipt) (rows' : Outbox),
    stageMany H config clock records rows = .ok receipts rows' →
    List.Forall₂ (fun record receipt => ∀ e ∈ w, record.outboxKey = e.key →
      record.canonicalWire = e.record.canonicalWire ∧
        receipt = ⟨e.digest H, e.stagedAt, true⟩) records receipts

variable {H} {config}

/-! ## One call -/

theorem StageEffect.receipt_of_waiting {e old : StagedRecord} {w w' : List StagedRecord}
    {receipt : OutboxReceipt} (hw : QueueInv H config w)
    (h : stageOne H e w = .ok (receipt, w')) (hold : old ∈ w) (hkey : e.key = old.key) :
    e.record.canonicalWire = old.record.canonicalWire ∧
      receipt = ⟨old.digest H, old.stagedAt, true⟩ := by
  have hselect : selectBy StagedRecord.key e.key w = some old :=
    hw.identities.selectBy_eq_some.2 ⟨hold, hkey.symm⟩
  unfold stageOne at h
  rw [hselect] at h
  dsimp only at h
  split at h
  · cases h
  · rename_i hwire
    have hsame : old.record.canonicalWire = e.record.canonicalWire := not_not.1 hwire
    have hdigest : e.digest H = old.digest H :=
      congrArg OutboxRow.recordDigest (rowOf_eq (H := H) hsame.symm e.stagedAt)
    cases h
    exact ⟨hsame.symm, by rw [hdigest]⟩

/-- In a staged batch, every record whose identity waits is a duplicate of what waits. -/
theorem stageAll_receipts {es w w' : List StagedRecord} {receipts : List OutboxReceipt}
    (hw : QueueInv H config w) (hreadable : ∀ e ∈ es, Readable H config e.record)
    (h : stageAll H es w = .ok (receipts, w')) :
    List.Forall₂ (fun e receipt => ∀ old ∈ w, e.key = old.key →
      e.record.canonicalWire = old.record.canonicalWire ∧
        receipt = ⟨old.digest H, old.stagedAt, true⟩) es receipts := by
  induction es generalizing w w' receipts with
  | nil =>
      cases h
      exact .nil
  | cons e rest ih =>
      rw [stageAll] at h
      cases hone : stageOne H e w with
      | error x =>
          rw [hone] at h
          cases h
      | ok result =>
          obtain ⟨receipt, w₁⟩ := result
          rw [hone] at h
          dsimp only at h
          cases hall : stageAll H rest w₁ with
          | error x =>
              rw [hall] at h
              cases h
          | ok result =>
              obtain ⟨receipts', w₂⟩ := result
              rw [hall] at h
              cases h
              have hfirst := stageOne_ok hw (hreadable e List.mem_cons_self) hone
              have hothers := ih hfirst.inv (fun e he => hreadable e (List.mem_cons_of_mem _ he))
                hall
              refine .cons ?_ (hothers.imp fun e receipt hrest old hold => ?_)
              · intro old hold hkey
                exact StageEffect.receipt_of_waiting hw hone hold hkey
              · exact hrest old (hfirst.kept old hold)

/-- A batch on the table of a queue: it raises and changes nothing, or it appends. -/
theorem stageMany_cases {w : List StagedRecord} (hw : QueueInv H config w)
    (clock : Nat → Instant) (records : List BlindTransportRecord) :
    (∃ x, stageMany H config clock records (table H w) = .error x (table H w)) ∨
    ∃ receipts w', stageMany H config clock records (table H w) = .ok receipts (table H w') ∧
      stageAll H (entriesOf clock 0 records) w = .ok (receipts, w') ∧
      ∀ e ∈ entriesOf clock 0 records, Readable H config e.record := by
  cases hprepared : prepareBatch H config clock 0 0 records with
  | error x =>
      refine .inl ⟨x, ?_⟩
      unfold stageMany
      rw [hprepared]
      rfl
  | ok rows =>
      have hstage := stageMany_table hw hprepared
      cases hall : stageAll H (entriesOf clock 0 records) w with
      | error x =>
          rw [hall] at hstage
          exact .inl ⟨x, hstage⟩
      | ok result =>
          rw [hall] at hstage
          exact .inr ⟨result.1, result.2, hstage, rfl, (prepareBatch_ok hprepared).2⟩

theorem entriesOf_singleton (clock : Nat → Instant) (record : BlindTransportRecord) :
    entriesOf clock 0 [record] = [⟨record, (clock 0).isoformat⟩] := rfl

/-- A batch of one record is prepared when the record is. -/
theorem prepareBatch_singleton {clock : Nat → Instant} {record : BlindTransportRecord} :
    prepareBatch H config clock 0 0 [record] =
      (prepareStage H config (clock 0) record).map fun row => [row] := by
  have hcount : ¬0 ≥ maxOutboxBatchItems := by decide
  unfold prepareBatch
  rw [if_neg hcount]
  cases hprepare : prepareStage H config (clock 0) record with
  | error x => rfl
  | ok row =>
      have hsize := (prepareStage_ok hprepare).2.1
      have hadmits := config.admitsOneRecord.2
      have htotal : ¬0 + record.wireBytes > config.maxBatchWireBytes := by omega
      change (if 0 + record.wireBytes > config.maxBatchWireBytes then _ else _ : Except Exn _) = _
      rw [if_neg htotal]
      rfl

theorem wireBytes_eq {r r' : BlindTransportRecord} (h : r.canonicalWire = r'.canonicalWire) :
    r.wireBytes = r'.wireBytes := by
  unfold BlindTransportRecord.wireBytes
  rw [h]

/-- Bytes that the outbox can read back pass its validation. -/
theorem prepareStage_of_readable {record record' : BlindTransportRecord} (instant : Instant)
    (hreadable : Readable H config record') (h : record.canonicalWire = record'.canonicalWire) :
    prepareStage H config instant record = .ok (rowOf H record instant.isoformat) := by
  obtain ⟨hsize, parsed, hparsed⟩ := hreadable
  rw [← h] at hparsed
  have hfits : ¬record.wireBytes > config.limits.maxRecordWireBytes := by
    rw [wireBytes_eq h]
    omega
  unfold prepareStage
  rw [if_neg hfits]
  change (decodeWire H config record.canonicalWire >>= _) = _
  rw [hparsed]
  change (if parsed.digest H ≠ record.digest H then _ else _ : Except Exn _) = _
  rw [if_neg (not_not.2 (decodeWire_ok hparsed).1)]
  rfl

theorem outboxKey_eq (H : Host) {r r' : BlindTransportRecord}
    (h : r.canonicalWire = r'.canonicalWire) : r.outboxKey = r'.outboxKey :=
  congrArg OutboxRow.key (rowOf_eq (H := H) h "")

/-- `stage_many` of a record whose bytes wait. -/
theorem stageMany_restaged {w : List StagedRecord} (hw : QueueInv H config w) {e : StagedRecord}
    (he : e ∈ w) (clock : Nat → Instant) {record : BlindTransportRecord}
    (h : record.canonicalWire = e.record.canonicalWire) :
    stageMany H config clock [record] (table H w) =
      .ok [⟨e.digest H, e.stagedAt, true⟩] (table H w) := by
  have hprepared : prepareBatch H config clock 0 0 [record] =
      .ok [rowOf H record (clock 0).isoformat] := by
    rw [prepareBatch_singleton, prepareStage_of_readable (clock 0) (hw.readable e he) h]
    rfl
  have hselect : selectBy StagedRecord.key record.outboxKey w = some e := by
    apply hw.identities.selectBy_eq_some.2
    exact ⟨he, (outboxKey_eq H h).symm⟩
  have hdigest : record.digest H = e.digest H :=
    congrArg OutboxRow.recordDigest (rowOf_eq (H := H) h e.stagedAt)
  have hone : stageAll H (entriesOf clock 0 [record]) w =
      .ok ([⟨e.digest H, e.stagedAt, true⟩], w) := by
    rw [entriesOf_singleton, stageAll]
    have hone : stageOne H ⟨record, (clock 0).isoformat⟩ w =
        .ok (⟨e.digest H, e.stagedAt, true⟩, w) := by
      have hkeyed : selectBy StagedRecord.key
          (StagedRecord.key ⟨record, (clock 0).isoformat⟩) w = some e := hselect
      rw [stageOne, hkeyed]
      dsimp only
      rw [if_neg (not_not.2 h.symm), ← hdigest]
      rfl
    rw [hone]
    rfl
  rw [stageMany_table hw hprepared, hone]

/-- `stage_many` of other bytes under the identity of a record that waits. -/
theorem stageMany_conflict {w : List StagedRecord} (hw : QueueInv H config w) {e : StagedRecord}
    (he : e ∈ w) (clock : Nat → Instant) {record : BlindTransportRecord}
    (hkey : record.outboxKey = e.key) (h : record.canonicalWire ≠ e.record.canonicalWire) :
    ∃ x, stageMany H config clock [record] (table H w) = .error x (table H w) ∧
      (x = .replayDetected
          "source outbox transfer identity was reused with different sealed bytes" ∨
        prepareStage H config (clock 0) record = .error x) := by
  cases hprepare : prepareStage H config (clock 0) record with
  | error x =>
      refine ⟨x, ?_, .inr rfl⟩
      unfold stageMany
      rw [prepareBatch_singleton, hprepare]
      rfl
  | ok row =>
      have hprepared : prepareBatch H config clock 0 0 [record] = .ok [row] := by
        rw [prepareBatch_singleton, hprepare]
        rfl
      have hselect : selectBy StagedRecord.key record.outboxKey w = some e := by
        apply hw.identities.selectBy_eq_some.2
        exact ⟨he, hkey.symm⟩
      refine ⟨_, ?_, .inl rfl⟩
      have hone : stageAll H (entriesOf clock 0 [record]) w = .error (.replayDetected
          "source outbox transfer identity was reused with different sealed bytes") := by
        rw [entriesOf_singleton, stageAll]
        have hone : stageOne H ⟨record, (clock 0).isoformat⟩ w = .error (.replayDetected
            "source outbox transfer identity was reused with different sealed bytes") := by
          have hkeyed : selectBy StagedRecord.key
              (StagedRecord.key ⟨record, (clock 0).isoformat⟩) w = some e := hselect
          rw [stageOne, hkeyed]
          dsimp only
          rw [if_pos (Ne.symm h)]
        rw [hone]
      rw [stageMany_table hw hprepared, hone]

/-- `ack_many` on the table of a queue: the digests are invalid, or their records are gone. -/
theorem ackMany_table (recordDigests : List String) (w : List StagedRecord) :
    (∃ x, ackMany recordDigests (table H w) = .error x (table H w)) ∨
    ∃ removed, ackMany recordDigests (table H w) =
      .ok removed (table H (w.filter fun e => e.digest H ∉ recordDigests)) := by
  unfold ackMany
  cases hvalid : validateDigests 0 recordDigests with
  | error x => exact .inl ⟨x, rfl⟩
  | ok _ =>
      right
      rw [lift_ok_bind rfl]
      by_cases hempty : recordDigests = []
      · subst hempty
        refine ⟨[], ?_⟩
        rw [if_pos rfl, pure_apply]
        simp
      · obtain ⟨removed, hremoved⟩ := deleteDigests_table (H := H) recordDigests w
        refine ⟨removed, ?_⟩
        rw [if_neg hempty]
        exact transaction_of_ok hremoved

theorem readOnly_readPending (selected : OutboxRow) :
    ReadOnly (readPending H config selected) := by
  unfold readPending
  apply readOnly_get.bind
  intro rows
  cases selectBy OutboxRow.recordDigest selected.recordDigest rows with
  | none => exact readOnly_throw _
  | some stored =>
      apply readOnly_guard
      apply (readOnly_lift _).bind
      intro record
      apply readOnly_guard
      apply readOnly_guard
      exact readOnly_pure _

theorem readOnly_readAllPending (selected : List OutboxRow) :
    ReadOnly (readAllPending H config selected) := by
  induction selected with
  | nil => exact readOnly_pure _
  | cons row rest ih =>
      apply (readOnly_readPending row).bind
      intro record
      exact ih.bind fun others => readOnly_pure _

/-- `pending` never changes a row. -/
theorem readOnly_pending (limit : Int) (maxWireBytes : Option Int) :
    ReadOnly (pending H config limit maxWireBytes) := by
  unfold pending
  apply readOnly_guard
  apply readOnly_guard
  apply ReadOnly.transaction
  apply readOnly_get.bind
  intro rows
  exact (readOnly_lift _).bind fun selected => readOnly_readAllPending selected

/-- `pending` when the budget does not admit the first record. -/
theorem pending_first_exceeds {w : List StagedRecord} (hw : QueueInv H config w) {limit : Int}
    (hlimit : 1 ≤ limit ∧ limit ≤ 10000) {budget : Nat}
    (hrange : 1 ≤ budget ∧ budget ≤ config.maxBatchWireBytes) {e : StagedRecord}
    (he : e ∈ (queue H w).head?) (hexceeds : budget < e.record.wireBytes) :
    pending H config limit (some budget) (table H w) =
      .error (.valueError "next outbox record exceeds the pending wire limit") (table H w) := by
  obtain ⟨rest, hqueue⟩ : ∃ rest, queue H w = e :: rest := by
    cases hq : queue H w with
    | nil =>
        rw [hq] at he
        cases he
    | cons a rest =>
        rw [hq] at he
        cases he
        exact ⟨rest, rfl⟩
  have hsize : e.record.wireBytes ≤ config.limits.maxRecordWireBytes := by
    apply (hw.readable e _).1
    apply (queue_perm (H := H) w).mem_iff.1
    rw [hqueue]
    exact List.mem_cons_self
  have htake : ∃ n, limit.toNat = n + 1 := ⟨limit.toNat - 1, by omega⟩
  obtain ⟨n, hn⟩ := htake
  have hselect : selectPending config budget 0 false ((ordered (table H w)).take limit.toNat) =
      .error (.valueError "next outbox record exceeds the pending wire limit") := by
    have hfits : ¬(e.row H).wireJson.utf8ByteSize > config.limits.maxRecordWireBytes :=
      Nat.not_lt.2 hsize
    have hout : 0 + (e.row H).wireJson.utf8ByteSize > budget := by
      change 0 + e.record.wireBytes > budget
      omega
    rw [ordered_table, hqueue, table, List.map_cons, hn, List.take_succ_cons, selectPending]
    dsimp only
    rw [if_neg hfits, if_pos hout]
    rfl
  unfold pending
  rw [if_neg (not_not.2 hlimit)]
  dsimp only
  rw [Option.getD_some, if_neg (by omega)]
  unfold transaction
  rw [bind_apply, get_apply]
  dsimp only
  rw [Int.toNat_natCast, hselect]
  rfl

/-- The first of a queue is no larger than a batch may be. -/
theorem head_fits {w : List StagedRecord} (hw : QueueInv H config w) {e : StagedRecord}
    (he : e ∈ (queue H w).head?) : e.record.wireBytes ≤ config.maxBatchWireBytes := by
  have hmem : e ∈ w := (queue_perm (H := H) w).mem_iff.1 (List.mem_of_mem_head? he)
  exact (hw.readable e hmem).1.trans config.admitsOneRecord.2

/-- The table of a queue is what callers rely on. -/
theorem durable_table {w : List StagedRecord} (hw : QueueInv H config w) :
    Durable H config w (table H w) where
  queued := ⟨queue_perm w, queue_ordered w⟩
  read limit hlimit := by
    have hadmits := config.admitsOneRecord.1
    exact pending_table hw hlimit rfl ⟨hadmits, le_rfl⟩ fun e he => head_fits hw he
  readWithin limit budget hlimit hrange := by
    by_cases hfirst : ∀ e ∈ (queue H w).head?, e.record.wireBytes ≤ budget
    · exact .inl (pending_table hw hlimit rfl hrange hfirst)
    · push Not at hfirst
      obtain ⟨e, he, hexceeds⟩ := hfirst
      exact .inr ⟨⟨e, he, hexceeds⟩, pending_first_exceeds hw hlimit hrange he hexceeds⟩
  unique := by
    have hkeys : (table H w).map OutboxRow.key = w.map StagedRecord.key := by
      rw [table, List.map_map]
      rfl
    unfold UniqueBy
    rw [hkeys]
    exact hw.identities
  restaged e he clock record h := stageMany_restaged hw he clock h
  conflict e he clock record hkey h := stageMany_conflict hw he clock hkey h
  atomic clock records x rows' h := by
    rcases stageMany_cases hw clock records with ⟨x', hx⟩ | ⟨receipts, w', hok, -⟩
    · rw [hx] at h
      cases h
      rfl
    · rw [hok] at h
      cases h
  receipts clock records receipts rows' h := by
    rcases stageMany_cases hw clock records with ⟨x', hx⟩ | ⟨receipts', w', hok, hall, hreadable⟩
    · rw [hx] at h
      cases h
    · rw [hok] at h
      cases h
      have hentries := stageAll_receipts hw hreadable hall
      rw [← entriesOf_records clock 0 records, List.forall₂_map_left_iff]
      exact hentries

/-! ## Every history -/

/-- One call keeps the table the table of what waits. -/
theorem exec_table {history : List (OutboxCall × OutboxResult)}
    (hw : QueueInv H config (waiting H history)) (call : OutboxCall) :
    let (result, rows) := exec H config call (table H (waiting H history))
    QueueInv H config (waiting H ((call, result) :: history)) ∧
      rows = table H (waiting H ((call, result) :: history)) := by
  cases call with
  | stageMany clock records =>
      unfold exec outcome
      dsimp only
      rcases stageMany_cases hw clock records with ⟨x, hx⟩ | ⟨receipts, w', hok, hall, hreadable⟩
      · rw [hx]
        exact ⟨hw, rfl⟩
      · rw [hok]
        have heffect := stageAll_ok hw hreadable hall
        have happended := heffect.appended
        rw [entriesOf_records] at happended
        change QueueInv H config (waiting H history ++ accepted records receipts) ∧
          table H w' = table H (waiting H history ++ accepted records receipts)
        rw [← happended]
        exact ⟨heffect.inv, rfl⟩
  | pending limit maxWireBytes =>
      have hreads := (@readOnly_pending H config) limit maxWireBytes
      unfold exec outcome
      dsimp only
      cases hpending : pending H config limit maxWireBytes (table H (waiting H history)) with
      | ok out rows => exact ⟨hw, hreads.1 _ _ _ hpending⟩
      | error x rows => exact ⟨hw, hreads.2 _ _ _ hpending⟩
  | ackMany recordDigests =>
      unfold exec outcome
      dsimp only
      rcases ackMany_table (H := H) recordDigests (waiting H history) with
        ⟨x, hx⟩ | ⟨removed, hok⟩
      · rw [hx]
        exact ⟨hw, rfl⟩
      · rw [hok]
        refine ⟨⟨hw.identities.sublist List.filter_sublist,
          hw.digests.sublist List.filter_sublist, fun e he => ?_⟩, rfl⟩
        exact hw.readable e (List.mem_of_mem_filter he)
  | reopen => exact ⟨hw, rfl⟩

/-- After every history the table is the table of what waits. -/
theorem run_table (H : Host) (config : OutboxConfig) (calls : List OutboxCall) :
    QueueInv H config (waiting H (run H config calls).1) ∧
      (run H config calls).2 = table H (waiting H (run H config calls).1) := by
  induction calls with
  | nil => exact ⟨QueueInv.nil, rfl⟩
  | cons call earlier ih =>
      obtain ⟨hw, hrows⟩ := ih
      have hstep := exec_table hw call
      rw [← hrows] at hstep
      exact hstep

end SourceOutbox

end Polymorph
