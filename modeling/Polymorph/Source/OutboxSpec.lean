import Polymorph.Source.Outbox

/-!
# What the outbox calls do

The outbox as an abstract queue of staged records: each call on the rows of such a queue is one
operation on the queue. A row is found again by its identity or its digest, and its wire decodes to
the content that was staged.
-/

set_option autoImplicit false

namespace Polymorph

open JsonText Transaction Table Utc

/-- A record that awaits its acknowledgement. -/
structure StagedRecord where
  record : BlindTransportRecord
  stagedAt : String

namespace StagedRecord

def key (e : StagedRecord) : OutboxKey := e.record.outboxKey

def digest (H : Host) (e : StagedRecord) : String := e.record.digest H

def row (H : Host) (e : StagedRecord) : OutboxRow := SourceOutbox.rowOf H e.record e.stagedAt

end StagedRecord

namespace SourceOutbox

variable {H : Host} {config : OutboxConfig}

/-! ## Records with the same wire -/

theorem decodeWire_canonicalWire (record : BlindTransportRecord) :
    decodeWire H config record.canonicalWire =
      BlindTransportRecord.fromWire H config.limits config.allowLegacyUnsigned
        config.allowLegacyBlankRecipientKeyId (loaded record.wireMembers) := by
  unfold decodeWire
  rw [record.plainLoads_canonicalWire]
  rfl

/-- A decoded wire is the wire of the decoded record. -/
theorem decodeWire_ok {record parsed : BlindTransportRecord}
    (h : decodeWire H config record.canonicalWire = .ok parsed) :
    parsed.digest H = record.digest H ∧ parsed.canonicalWire = record.canonicalWire := by
  rw [decodeWire_canonicalWire] at h
  obtain ⟨hid, hfields, hauthentication⟩ := BlindTransportRecord.content_of_fromWire_own h
  exact ⟨BlindTransportRecord.digest_eq hid hfields,
    BlindTransportRecord.canonicalWire_eq hid hfields hauthentication⟩

/-- Two records with the same wire have the same row, up to the time of staging. -/
theorem rowOf_eq {r r' : BlindTransportRecord} (h : r.canonicalWire = r'.canonicalWire)
    (stagedAt : String) : rowOf H r stagedAt = rowOf H r' stagedAt := by
  have hcontent := BlindTransportRecord.contentText_eq_of_canonicalWire_eq h
  obtain ⟨hid, hfields⟩ := BlindTransportRecord.contentBytes_inj (congrArg String.toUTF8 hcontent)
  have hfirst : r.first = r'.first := by
    unfold BlindTransportRecord.first
    simp only [hfields]
  simp only [rowOf, BlindTransportRecord.digest, BlindTransportRecord.tenant,
    BlindTransportRecord.sourceConnector, BlindTransportRecord.destinationConnector,
    BlindTransportRecord.transferId, BlindTransportRecord.planDigest, hcontent, hid, hfirst, h]

/-! ## The abstract queue -/

/-- The outbox can read the record back. -/
def Readable (H : Host) (config : OutboxConfig) (record : BlindTransportRecord) : Prop :=
  record.wireBytes ≤ config.limits.maxRecordWireBytes ∧
    ∃ parsed, decodeWire H config record.canonicalWire = .ok parsed

/-- The invariant of the queue. -/
structure QueueInv (H : Host) (config : OutboxConfig) (w : List StagedRecord) : Prop where
  identities : UniqueBy StagedRecord.key w
  digests : UniqueBy (StagedRecord.digest H) w
  readable : ∀ e ∈ w, Readable H config e.record

theorem QueueInv.nil : QueueInv H config [] :=
  ⟨UniqueBy.nil, UniqueBy.nil, fun _ h => nomatch h⟩

/-- The table of a queue. -/
def table (H : Host) (w : List StagedRecord) : Outbox := w.map (StagedRecord.row H)

theorem selectBy_key_table (k : OutboxKey) (w : List StagedRecord) :
    selectBy OutboxRow.key k (table H w) =
      (selectBy StagedRecord.key k w).map (StagedRecord.row H) :=
  selectBy_map (StagedRecord.row H) OutboxRow.key k w

theorem selectBy_digest_table (d : String) (w : List StagedRecord) :
    selectBy OutboxRow.recordDigest d (table H w) =
      (selectBy (StagedRecord.digest H) d w).map (StagedRecord.row H) :=
  selectBy_map (StagedRecord.row H) OutboxRow.recordDigest d w

/-! ## Staging -/

/-- Staging one record: a duplicate, a conflict, or a new entry. -/
def stageOne (H : Host) (e : StagedRecord) (w : List StagedRecord) :
    Except Exn (OutboxReceipt × List StagedRecord) :=
  match selectBy StagedRecord.key e.key w with
  | some old =>
      if old.record.canonicalWire ≠ e.record.canonicalWire then
        .error (.replayDetected
          "source outbox transfer identity was reused with different sealed bytes")
      else .ok (⟨e.digest H, old.stagedAt, true⟩, w)
  | none =>
      if (selectBy (StagedRecord.digest H) (e.digest H) w).isSome then
        .error (.other "UNIQUE constraint failed: sealed_source_outbox")
      else .ok (⟨e.digest H, e.stagedAt, false⟩, w ++ [e])

theorem stageRow_table (e : StagedRecord) (w : List StagedRecord) :
    stageRow (e.row H) (table H w) =
      match stageOne H e w with
      | .ok (receipt, w') =>
          .ok (receipt, rowOf H e.record receipt.stagedAt) (table H w')
      | .error x => .error x (table H w) := by
  unfold stageRow stageOne
  rw [bind_apply, get_apply]
  dsimp only
  rw [show (e.row H).key = e.key from rfl, selectBy_key_table]
  cases hselect : selectBy StagedRecord.key e.key w with
  | some old =>
      obtain ⟨hold, hkey⟩ := mem_of_selectBy hselect
      simp only [Option.map_some]
      by_cases hwire : old.record.canonicalWire = e.record.canonicalWire
      · have hrow : old.row H = rowOf H e.record old.stagedAt := rowOf_eq hwire old.stagedAt
        have hdigest : (old.row H).recordDigest = (e.row H).recordDigest := by
          rw [hrow]
          rfl
        have hmatch : ¬((old.row H).recordDigest ≠ (e.row H).recordDigest ∨
            (old.row H).wireJson ≠ (e.row H).wireJson) := by
          rintro (h | h)
          · exact h hdigest
          · exact h hwire
        rw [if_neg hmatch, if_neg (not_not.2 hwire)]
        change (if old.row H ≠ rowOf H e.record old.stagedAt then _ else _ : OutboxM _) _ = _
        rw [if_neg (not_not.2 hrow)]
        rfl
      · rw [if_pos (.inr hwire), if_pos hwire]
        rfl
  | none =>
      simp only [Option.map_none]
      have hinsert : insertRow (e.row H) (table H w) =
          if (selectBy (StagedRecord.digest H) (e.digest H) w).isSome then
            .error (.other "UNIQUE constraint failed: sealed_source_outbox") (table H w)
          else .ok () (table H (w ++ [e])) := by
        unfold insertRow
        rw [bind_apply, get_apply]
        dsimp only
        rw [show (e.row H).key = e.key from rfl, selectBy_key_table, hselect,
          show (e.row H).recordDigest = e.digest H from rfl, selectBy_digest_table]
        simp only [Option.isSome_map, Option.map_none, Option.isSome_none, Bool.false_eq_true,
          or_false]
        split
        · rfl
        · rw [table, table, List.map_append]
          rfl
      rw [bind_apply, hinsert]
      by_cases htaken : (selectBy (StagedRecord.digest H) (e.digest H) w).isSome
      · rw [if_pos htaken, if_pos htaken]
      · rw [if_neg htaken, if_neg htaken]
        rfl

/-- What a staged entry leaves behind. -/
structure StageEffect (H : Host) (config : OutboxConfig) (e : StagedRecord)
    (w w' : List StagedRecord) (receipt : OutboxReceipt) : Prop where
  inv : QueueInv H config w'
  kept : ∀ old ∈ w, old ∈ w'
  present : ∃ entry ∈ w', entry.row H = rowOf H e.record receipt.stagedAt
  appended : w' = w ++ if receipt.duplicate then [] else [⟨e.record, receipt.stagedAt⟩]
  digest : receipt.recordDigest = e.digest H

theorem stageOne_ok {e : StagedRecord} {w w' : List StagedRecord} {receipt : OutboxReceipt}
    (hw : QueueInv H config w) (hreadable : Readable H config e.record)
    (h : stageOne H e w = .ok (receipt, w')) : StageEffect H config e w w' receipt := by
  unfold stageOne at h
  cases hselect : selectBy StagedRecord.key e.key w with
  | some old =>
      rw [hselect] at h
      dsimp only at h
      split at h
      · cases h
      · rename_i hwire
        obtain ⟨hold, -⟩ := mem_of_selectBy hselect
        cases h
        exact ⟨hw, fun _ h => h, ⟨old, hold, rowOf_eq (not_not.1 hwire) old.stagedAt⟩,
          (List.append_nil _).symm, rfl⟩
  | none =>
      rw [hselect] at h
      dsimp only at h
      split at h
      · cases h
      · rename_i hdigest
        cases h
        refine ⟨⟨hw.identities.insert hselect, hw.digests.insert ?_, ?_⟩, ?_, ⟨e, ?_, rfl⟩, rfl,
          rfl⟩
        · exact Option.not_isSome_iff_eq_none.1 hdigest
        · intro entry hentry
          rcases List.mem_append.1 hentry with hentry | hentry
          · exact hw.readable entry hentry
          · rw [List.mem_singleton.1 hentry]
            exact hreadable
        · exact fun _ h => List.mem_append_left _ h
        · exact List.mem_append_right _ (List.mem_singleton.2 rfl)

/-- Staging the entries of a batch in order. -/
def stageAll (H : Host) : List StagedRecord → List StagedRecord →
    Except Exn (List OutboxReceipt × List StagedRecord)
  | [], w => .ok ([], w)
  | e :: rest, w =>
      match stageOne H e w with
      | .error x => .error x
      | .ok (receipt, w') =>
          match stageAll H rest w' with
          | .error x => .error x
          | .ok (receipts, w'') => .ok (receipt :: receipts, w'')

/-- The rows that have to be there afterwards. -/
def expectedRows (H : Host) (es : List StagedRecord) (receipts : List OutboxReceipt) :
    List OutboxRow :=
  (es.zip receipts).map fun p => rowOf H p.1.record p.2.stagedAt

theorem stageRows_table (es w : List StagedRecord) :
    match stageAll H es w with
    | .ok (receipts, w') => stageRows (es.map (StagedRecord.row H)) (table H w) =
        .ok (receipts.zip (expectedRows H es receipts)) (table H w')
    | .error x => ∃ t, stageRows (es.map (StagedRecord.row H)) (table H w) = .error x t := by
  induction es generalizing w with
  | nil => rfl
  | cons e rest ih =>
      have hrow := stageRow_table (H := H) e w
      rw [stageAll]
      cases hone : stageOne H e w with
      | error x =>
          rw [hone] at hrow
          dsimp only at hrow ⊢
          refine ⟨table H w, ?_⟩
          rw [List.map_cons, stageRows, bind_apply, hrow]
      | ok result =>
          obtain ⟨receipt, w'⟩ := result
          rw [hone] at hrow
          dsimp only at hrow ⊢
          have hrest := ih w'
          cases hall : stageAll H rest w' with
          | error x =>
              rw [hall] at hrest
              obtain ⟨t, ht⟩ := hrest
              dsimp only
              refine ⟨t, ?_⟩
              rw [List.map_cons, stageRows, bind_apply, hrow]
              dsimp only
              rw [bind_apply, ht]
          | ok result =>
              obtain ⟨receipts, w''⟩ := result
              rw [hall] at hrest
              dsimp only at hrest ⊢
              rw [List.map_cons, stageRows, bind_apply, hrow]
              dsimp only
              rw [bind_apply, hrest]
              rfl

/-- The records a batch added to the queue. -/
def accepted (records : List BlindTransportRecord) (receipts : List OutboxReceipt) :
    List StagedRecord :=
  (records.zip receipts).filterMap fun p =>
    if p.2.duplicate then none else some ⟨p.1, p.2.stagedAt⟩

/-- What a staged batch leaves behind. -/
structure BatchEffect (H : Host) (config : OutboxConfig) (es w w' : List StagedRecord)
    (receipts : List OutboxReceipt) : Prop where
  inv : QueueInv H config w'
  kept : ∀ old ∈ w, old ∈ w'
  length : receipts.length = es.length
  present : ∀ row ∈ expectedRows H es receipts, ∃ entry ∈ w', entry.row H = row
  appended : w' = w ++ accepted (es.map StagedRecord.record) receipts

theorem stageAll_ok {es w w' : List StagedRecord} {receipts : List OutboxReceipt}
    (hw : QueueInv H config w) (hreadable : ∀ e ∈ es, Readable H config e.record)
    (h : stageAll H es w = .ok (receipts, w')) : BatchEffect H config es w w' receipts := by
  induction es generalizing w receipts with
  | nil =>
      cases h
      exact ⟨hw, fun _ h => h, rfl, fun _ h => (List.not_mem_nil h).elim,
        (List.append_nil _).symm⟩
  | cons e rest ih =>
      rw [stageAll] at h
      cases hone : stageOne H e w with
      | error x =>
          rw [hone] at h
          cases h
      | ok result =>
          obtain ⟨receipt, w₁⟩ := result
          rw [hone] at h
          dsimp only at h
          cases hall : stageAll H rest w₁ with
          | error x =>
              rw [hall] at h
              cases h
          | ok result =>
              obtain ⟨receipts', w₂⟩ := result
              rw [hall] at h
              cases h
              have hfirst := stageOne_ok hw (hreadable e List.mem_cons_self) hone
              have hothers := ih hfirst.inv (fun e he => hreadable e (List.mem_cons_of_mem _ he))
                hall
              refine ⟨hothers.inv, fun old hold => hothers.kept old (hfirst.kept old hold), ?_,
                ?_, ?_⟩
              · simp [hothers.length]
              · intro row hrow
                rcases List.mem_cons.1 hrow with rfl | hrow
                · obtain ⟨entry, hentry, hsame⟩ := hfirst.present
                  exact ⟨entry, hothers.kept entry hentry, hsame⟩
                · exact hothers.present row hrow
              · rw [hothers.appended, hfirst.appended, List.append_assoc]
                congr 1
                cases hduplicate : receipt.duplicate <;> simp [accepted, hduplicate]

theorem checkPersisted_table {w : List StagedRecord} (hw : QueueInv H config w)
    {rows : List OutboxRow} (h : ∀ row ∈ rows, ∃ entry ∈ w, entry.row H = row) :
    checkPersisted rows (table H w) = .ok () (table H w) := by
  induction rows with
  | nil => rfl
  | cons row rest ih =>
      obtain ⟨entry, hentry, rfl⟩ := h row List.mem_cons_self
      have hselect : selectBy OutboxRow.recordDigest (entry.row H).recordDigest (table H w) =
          some (entry.row H) := by
        rw [selectBy_digest_table, show (entry.row H).recordDigest = entry.digest H from rfl,
          (hw.digests.selectBy_eq_some (k := entry.digest H)).2 ⟨hentry, rfl⟩]
        rfl
      rw [checkPersisted, bind_apply, get_apply]
      dsimp only
      rw [if_neg (not_not.2 hselect)]
      exact ih fun row hrow => h row (List.mem_cons_of_mem _ hrow)

/-- The entries a batch asks for. -/
def entriesOf (clock : Nat → Instant) : Nat → List BlindTransportRecord → List StagedRecord
  | _, [] => []
  | index, record :: rest =>
      ⟨record, (clock index).isoformat⟩ :: entriesOf clock (index + 1) rest

theorem entriesOf_records (clock : Nat → Instant) (index : Nat)
    (records : List BlindTransportRecord) :
    (entriesOf clock index records).map StagedRecord.record = records := by
  induction records generalizing index with
  | nil => rfl
  | cons record rest ih => rw [entriesOf, List.map_cons, ih]

theorem prepareStage_ok {instant : Instant} {record : BlindTransportRecord} {row : OutboxRow}
    (h : prepareStage H config instant record = .ok row) :
    row = rowOf H record instant.isoformat ∧ Readable H config record := by
  unfold prepareStage at h
  obtain ⟨hsize, h⟩ := guard_eq_ok h
  obtain ⟨parsed, hparsed, h⟩ := bind_eq_ok h
  obtain ⟨-, h⟩ := guard_eq_ok h
  exact ⟨(Except.ok.inj h).symm, Nat.le_of_not_lt hsize, parsed, hparsed⟩

theorem prepareBatch_ok {clock : Nat → Instant} {index total : Nat}
    {records : List BlindTransportRecord} {rows : List OutboxRow}
    (h : prepareBatch H config clock index total records = .ok rows) :
    rows = (entriesOf clock index records).map (StagedRecord.row H) ∧
      ∀ e ∈ entriesOf clock index records, Readable H config e.record := by
  induction records generalizing index total rows with
  | nil =>
      cases h
      exact ⟨rfl, fun _ h => (List.not_mem_nil h).elim⟩
  | cons record rest ih =>
      unfold prepareBatch at h
      obtain ⟨-, h⟩ := guard_eq_ok h
      obtain ⟨row, hrow, h⟩ := bind_eq_ok h
      obtain ⟨-, h⟩ := guard_eq_ok h
      obtain ⟨rows', hrest, h⟩ := bind_eq_ok h
      obtain ⟨rfl, hreadable⟩ := prepareStage_ok hrow
      obtain ⟨rfl, hothers⟩ := ih hrest
      obtain rfl := Except.ok.inj h
      refine ⟨rfl, fun e he => ?_⟩
      rcases List.mem_cons.1 he with rfl | he
      · exact hreadable
      · exact hothers e he

/-- `stage_many` on the table of a queue, once the batch is prepared. -/
theorem stageMany_table {clock : Nat → Instant} {records : List BlindTransportRecord}
    {rows : List OutboxRow} {w : List StagedRecord} (hw : QueueInv H config w)
    (hprepared : prepareBatch H config clock 0 0 records = .ok rows) :
    stageMany H config clock records (table H w) =
      match stageAll H (entriesOf clock 0 records) w with
      | .ok (receipts, w') => .ok receipts (table H w')
      | .error x => .error x (table H w) := by
  obtain ⟨rfl, hreadable⟩ := prepareBatch_ok hprepared
  unfold stageMany
  rw [lift_ok_bind hprepared]
  cases records with
  | nil => rfl
  | cons record rest =>
      rw [if_neg (by simp [entriesOf])]
      have hrows := stageRows_table (H := H) (entriesOf clock 0 (record :: rest)) w
      unfold transaction
      cases hall : stageAll H (entriesOf clock 0 (record :: rest)) w with
      | error x =>
          rw [hall] at hrows
          obtain ⟨t, ht⟩ := hrows
          rw [bind_apply, ht]
      | ok result =>
          obtain ⟨receipts, w'⟩ := result
          rw [hall] at hrows
          have heffect := stageAll_ok hw hreadable hall
          have hlength : receipts.length =
              (expectedRows H (entriesOf clock 0 (record :: rest)) receipts).length := by
            simp [expectedRows, heffect.length]
          rw [bind_apply, hrows]
          dsimp only
          rw [List.map_snd_zip (Nat.le_of_eq hlength.symm), List.map_fst_zip (Nat.le_of_eq hlength),
            bind_apply, checkPersisted_table heffect.inv heffect.present]
          rfl

/-! ## Reading -/

/-- The queue in the order of `pending`. -/
def queue (H : Host) (w : List StagedRecord) : List StagedRecord :=
  w.insertionSort fun a b => precedes (a.row H) (b.row H)

theorem ordered_table (w : List StagedRecord) : ordered (table H w) = table H (queue H w) :=
  (List.map_insertionSort (fun a b : StagedRecord => precedes (a.row H) (b.row H)) precedes
    (StagedRecord.row H) w fun _ _ _ _ => Iff.rfl).symm

theorem queue_perm (w : List StagedRecord) : (queue H w).Perm w := List.perm_insertionSort _ w

/-- The queue is ordered by staging time and digest. -/
theorem queue_ordered (w : List StagedRecord) :
    (queue H w).Pairwise fun a b => precedes (a.row H) (b.row H) :=
  pairwise_orderBy (r := fun a b : StagedRecord => precedes (a.row H) (b.row H))
    (f := fun e => (e.row H).stagedAt) (g := fun e => (e.row H).recordDigest)
    (fun _ _ => Iff.rfl) w

/-- A pending record that is what was staged. -/
structure Delivers (H : Host) (e : StagedRecord) (p : PendingRecord) : Prop where
  wireBytes : p.wireBytes = e.record.canonicalWire
  stagedAt : p.stagedAt = e.stagedAt
  wire : p.record.canonicalWire = p.wireBytes
  digest : p.record.digest H = e.digest H

theorem selectPending_selected {budget total : Nat} (htotal : total ≤ budget)
    {q : List StagedRecord}
    (hsize : ∀ e ∈ q, e.record.wireBytes ≤ config.limits.maxRecordWireBytes) :
    selectPending config budget total true (table H q) =
      .ok (table H (boundedPrefix (fun e => e.record.wireBytes) (budget - total) q)) := by
  induction q generalizing total with
  | nil => rfl
  | cons e rest ih =>
      have hfits : ¬(e.row H).wireJson.utf8ByteSize > config.limits.maxRecordWireBytes :=
        Nat.not_lt.2 (hsize e List.mem_cons_self)
      rw [table, List.map_cons, selectPending, boundedPrefix]
      dsimp only
      rw [if_neg hfits]
      by_cases hbudget : e.record.wireBytes ≤ budget - total
      · have hin : ¬total + (e.row H).wireJson.utf8ByteSize > budget := by
          change ¬total + e.record.wireBytes > budget
          omega
        have hrest := @ih (total + e.record.wireBytes) (by omega)
          fun e he => hsize e (List.mem_cons_of_mem _ he)
        rw [if_neg hin, if_pos hbudget]
        change (selectPending config budget (total + e.record.wireBytes) true (table H rest) >>=
          fun others => pure (e.row H :: others)) = _
        rw [hrest, Nat.sub_add_eq]
        rfl
      · have hout : total + (e.row H).wireJson.utf8ByteSize > budget := by
          change total + e.record.wireBytes > budget
          omega
        rw [if_pos hout, if_neg hbudget]
        rfl

/-- The selection of a queue whose first record fits the budget. -/
theorem selectPending_table {budget : Nat} {q : List StagedRecord}
    (hsize : ∀ e ∈ q, e.record.wireBytes ≤ config.limits.maxRecordWireBytes)
    (hfirst : ∀ e ∈ q.head?, e.record.wireBytes ≤ budget) :
    selectPending config budget 0 false (table H q) =
      .ok (table H (boundedPrefix (fun e => e.record.wireBytes) budget q)) := by
  cases q with
  | nil => rfl
  | cons e rest =>
      have hbudget : e.record.wireBytes ≤ budget := hfirst e rfl
      have hfits : ¬(e.row H).wireJson.utf8ByteSize > config.limits.maxRecordWireBytes :=
        Nat.not_lt.2 (hsize e List.mem_cons_self)
      have hin : ¬0 + (e.row H).wireJson.utf8ByteSize > budget := by
        change ¬0 + e.record.wireBytes > budget
        omega
      have hrest := (@selectPending_selected H config) hbudget
        fun e he => hsize e (List.mem_cons_of_mem _ he)
      rw [table, List.map_cons, selectPending, boundedPrefix]
      dsimp only
      rw [if_neg hfits, if_neg hin, if_pos hbudget]
      change (selectPending config budget (0 + e.record.wireBytes) true (table H rest) >>=
        fun others => pure (e.row H :: others)) = _
      rw [Nat.zero_add, hrest]
      rfl

theorem readPending_table {w : List StagedRecord} (hw : QueueInv H config w) {e : StagedRecord}
    (he : e ∈ w) :
    ∃ p, readPending H config (e.row H) (table H w) = .ok p (table H w) ∧ Delivers H e p := by
  obtain ⟨-, parsed, hparsed⟩ := hw.readable e he
  obtain ⟨hdigest, hwire⟩ := decodeWire_ok hparsed
  have hselect : selectBy OutboxRow.recordDigest (e.row H).recordDigest (table H w) =
      some (e.row H) := by
    rw [selectBy_digest_table, show (e.row H).recordDigest = e.digest H from rfl,
      (hw.digests.selectBy_eq_some (k := e.digest H)).2 ⟨he, rfl⟩]
    rfl
  refine ⟨⟨parsed, parsed.canonicalWire, e.stagedAt⟩, ?_, ⟨hwire, rfl, rfl, hdigest⟩⟩
  unfold readPending
  rw [bind_apply, get_apply]
  dsimp only
  rw [hselect]
  dsimp only
  rw [if_neg (not_not.2 rfl)]
  rw [lift_ok_bind (show decodeWire H config (e.row H).wireJson = .ok parsed from hparsed),
    if_neg (not_not.2 (show parsed.digest H = (e.row H).recordDigest from hdigest))]
  rw [if_neg (not_not.2 (show parsed.canonicalWire = (e.row H).wireJson from hwire))]
  rfl

theorem readAllPending_table {w : List StagedRecord} (hw : QueueInv H config w)
    {es : List StagedRecord} (hes : ∀ e ∈ es, e ∈ w) :
    ∃ out, readAllPending H config (table H es) (table H w) = .ok out (table H w) ∧
      List.Forall₂ (Delivers H) es out := by
  induction es with
  | nil => exact ⟨[], rfl, .nil⟩
  | cons e rest ih =>
      obtain ⟨p, hp, hdelivers⟩ := readPending_table hw (hes e List.mem_cons_self)
      obtain ⟨out, hout, hothers⟩ := ih fun e he => hes e (List.mem_cons_of_mem _ he)
      refine ⟨p :: out, ?_, .cons hdelivers hothers⟩
      rw [table, List.map_cons, readAllPending, bind_apply, hp]
      dsimp only
      change (readAllPending H config (table H rest) >>= fun others => pure (p :: others)) _ = _
      rw [bind_apply, hout]
      rfl

/-- `pending` on the table of a queue, when the budget admits the first record. -/
theorem pending_table {w : List StagedRecord} (hw : QueueInv H config w) {limit : Int}
    (hlimit : 1 ≤ limit ∧ limit ≤ 10000) {maxWireBytes : Option Int} {budget : Nat}
    (hbudget : maxWireBytes.getD config.maxBatchWireBytes = budget)
    (hrange : 1 ≤ budget ∧ budget ≤ config.maxBatchWireBytes)
    (hfirst : ∀ e ∈ (queue H w).head?, e.record.wireBytes ≤ budget) :
    ∃ out, pending H config limit maxWireBytes (table H w) = .ok out (table H w) ∧
      List.Forall₂ (Delivers H) (boundedPrefix (fun e => e.record.wireBytes) budget
        ((queue H w).take limit.toNat)) out := by
  have hmem : ∀ e ∈ (queue H w).take limit.toNat, e ∈ w := fun e he =>
    (queue_perm w).mem_iff.1 (List.mem_of_mem_take he)
  have hselect : selectPending config budget 0 false
      ((ordered (table H w)).take limit.toNat) = .ok (table H (boundedPrefix
        (fun e => e.record.wireBytes) budget ((queue H w).take limit.toNat))) := by
    rw [ordered_table, table, ← List.map_take]
    refine selectPending_table (fun e he => (hw.readable e (hmem e he)).1) fun e he => ?_
    apply hfirst e
    rw [List.head?_take] at he
    split at he
    · cases he
    · exact he
  obtain ⟨out, hout, hdelivers⟩ := @readAllPending_table _ _ _ hw
    (boundedPrefix (fun e => e.record.wireBytes) budget ((queue H w).take limit.toNat))
    fun e he => hmem e ((boundedPrefix_isPrefix _ _ _).subset he)
  refine ⟨out, ?_, hdelivers⟩
  unfold pending
  rw [if_neg (not_not.2 hlimit)]
  dsimp only
  rw [hbudget, if_neg (by omega)]
  apply transaction_of_ok
  rw [bind_apply, get_apply]
  dsimp only
  rw [Int.toNat_natCast, lift_ok_bind hselect]
  exact hout

/-! ## Acknowledging -/

theorem deleteDigests_table (digests : List String) (w : List StagedRecord) :
    ∃ removed, deleteDigests digests (table H w) =
      .ok removed (table H (w.filter fun e => e.digest H ∉ digests)) := by
  induction digests generalizing w with
  | nil =>
      refine ⟨[], ?_⟩
      simp [deleteDigests, pure_apply]
  | cons d rest ih =>
      obtain ⟨removed, hremoved⟩ := ih (w.filter fun e => e.digest H ≠ d)
      have hfilter : (table H w).filter (fun row => row.recordDigest ≠ d) =
          table H (w.filter fun e => e.digest H ≠ d) := List.filter_map
      have htwice : (w.filter fun e => e.digest H ≠ d).filter (fun e => e.digest H ∉ rest) =
          w.filter fun e => e.digest H ∉ d :: rest := by
        rw [List.filter_filter]
        apply List.filter_congr
        intro e _
        simp [Bool.and_comm]
      refine ⟨decide ((table H w).length -
        (table H (w.filter fun e => e.digest H ≠ d)).length = 1) :: removed, ?_⟩
      unfold deleteDigests
      rw [bind_apply, get_apply]
      dsimp only
      rw [hfilter, bind_apply, set_apply]
      dsimp only
      rw [bind_apply, hremoved, htwice]
      rfl

end SourceOutbox

end Polymorph
