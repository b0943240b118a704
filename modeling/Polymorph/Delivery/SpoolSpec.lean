import Polymorph.Delivery.Spool
import Polymorph.Transport.RecordWire

/-!
# What a spool call does to the stored records

A stored record is recoverable when reading it under its digest decodes it. Every record of a
successful insertion is recoverable afterwards, an insertion keeps the wire of every stored record,
and only a removal deletes one. Reading never changes the spool, and a call that raises leaves it
as it was.
-/

set_option autoImplicit false

namespace Polymorph

open Transaction JsonText Utc

namespace SealedSpool

variable {H : Host} {config : SpoolConfig}

/-! ## Reading -/

/-- `get` decodes the row stored under the digest. -/
def Recoverable (H : Host) (config : SpoolConfig) (rows : Spool) (recordDigest : String) : Prop :=
  ∃ row record, rows recordDigest = some row ∧ readRow H config recordDigest row = .ok record

theorem readRow_ok {recordDigest : String} {row : SpoolRow} {record : BlindTransportRecord}
    (h : readRow H config recordDigest row = .ok record) :
    record.digest H = recordDigest ∧ record.canonicalWire = row.wireJson := by
  unfold readRow at h
  dsimp only at h
  split at h
  · cases h
  · cases hdecode : decodeSpooledRecord H config row.wireJson with
    | error e =>
        rw [hdecode] at h
        cases h
    | ok parsed =>
        rw [hdecode] at h
        change (if parsed.digest H ≠ recordDigest then _ else _) = _ at h
        split at h
        · cases h
        · rename_i hdigest
          change (if parsed.canonicalWire ≠ row.wireJson then _ else _) = _ at h
          split at h
          · cases h
          · rename_i hwire
            cases h
            exact ⟨not_not.1 hdigest, not_not.1 hwire⟩

/-- Reading depends on the stored wire only. -/
theorem readRow_congr {recordDigest : String} {row row' : SpoolRow}
    (h : row'.wireJson = row.wireJson) :
    readRow H config recordDigest row' = readRow H config recordDigest row := by
  unfold readRow
  rw [h]

/-- What the insertion of a record has checked about its wire. -/
theorem canonicalWire_ok {record : BlindTransportRecord} {wire : String}
    (h : canonicalWire H config record = .ok wire) :
    wire = record.canonicalWire ∧ ∃ payload parsed,
      plainLoads wire = some (.obj payload) ∧ fromWire H config payload = .ok parsed ∧
      parsed.digest H = record.digest H ∧ parsed.canonicalWire = wire := by
  unfold canonicalWire at h
  dsimp only at h
  cases hloads : plainLoads record.canonicalWire with
  | none =>
      rw [hloads] at h
      cases h
  | some j =>
      rw [hloads] at h
      cases j with
      | obj payload =>
          cases hparsed : fromWire H config payload with
          | error e =>
              simp only [hparsed] at h
              cases h
          | ok parsed =>
              simp only [hparsed] at h
              change (if parsed.digest H ≠ record.digest H ∨
                parsed.canonicalWire ≠ record.canonicalWire then _ else _) = _ at h
              split at h
              · cases h
              · rename_i hsame
                cases h
                rw [not_or, not_not, not_not] at hsame
                exact ⟨rfl, payload, parsed, hloads, hparsed, hsame.1, hsame.2⟩
      | _ => cases h

/-- A stored wire that passed the insertion's checks can be read. -/
theorem readRow_of_canonicalWire {record : BlindTransportRecord} {wire : String} {row : SpoolRow}
    (h : canonicalWire H config record = .ok wire)
    (hsize : record.wireBytes ≤ config.limits.maxRecordWireBytes) (hrow : row.wireJson = wire) :
    ∃ parsed, readRow H config (record.digest H) row = .ok parsed := by
  obtain ⟨rfl, payload, parsed, hloads, hparsed, hdigest, hwire⟩ := canonicalWire_ok h
  refine ⟨parsed, ?_⟩
  have hdecode : decodeSpooledRecord H config row.wireJson = .ok parsed := by
    rw [decodeSpooledRecord, hrow, record.strictLoads_canonicalWire, hloads]
    simp only [hparsed]
  have hbytes : ¬(row.wireJson.utf8ByteSize = 0 ∨
      row.wireJson.utf8ByteSize > config.limits.maxRecordWireBytes) := by
    rw [hrow, not_or]
    refine ⟨fun hzero => record.canonicalWire_ne_empty ?_, Nat.not_lt.2 hsize⟩
    exact String.utf8ByteSize_eq_zero_iff.1 hzero
  unfold readRow
  dsimp only
  rw [if_neg hbytes, hdecode]
  change (if parsed.digest H ≠ record.digest H then _ else _) = _
  rw [if_neg (not_not.2 hdigest)]
  rw [if_neg (not_not.2 (hwire.trans hrow.symm))]
  rfl

theorem readOnly_getRecord (recordDigest : String) :
    ReadOnly (getRecord H config recordDigest) := by
  refine (readOnly_lift _).bind fun _ => readOnly_get.bind fun rows => ?_
  cases rows recordDigest with
  | none => exact readOnly_pure _
  | some row =>
      simp only [map_eq_pure_bind]
      exact (readOnly_lift _).bind fun _ => readOnly_pure _

theorem getRecord_ok {recordDigest : String} {rows rows' : Spool} {record : BlindTransportRecord}
    (h : getRecord H config recordDigest rows = .ok (some record) rows') :
    ∃ row, rows recordDigest = some row ∧ readRow H config recordDigest row = .ok record := by
  unfold getRecord at h
  obtain ⟨_, rows₁, hvalid, hrows⟩ := bind_eq_ok_iff.1 h
  have hsame := (readOnly_lift _).1 _ _ _ hvalid
  subst hsame
  obtain ⟨_, _, hget, hread⟩ := bind_eq_ok_iff.1 hrows
  obtain ⟨rfl, rfl⟩ := get_eq_ok_iff.1 hget
  cases hrow : rows₁ recordDigest with
  | none =>
      simp only [hrow, pure_eq_ok_iff] at hread
      cases hread.1
  | some row =>
      refine ⟨row, rfl, ?_⟩
      simp only [hrow, map_eq_ok_iff] at hread
      obtain ⟨record', hlift, hsome⟩ := hread
      cases hsome
      cases hresult : readRow H config recordDigest row with
      | error e =>
          rw [hresult] at hlift
          cases hlift
      | ok parsed =>
          rw [hresult] at hlift
          cases hlift
          rfl

theorem getRecord_of_readRow {recordDigest : String} {rows : Spool} {row : SpoolRow}
    {record : BlindTransportRecord} (hvalid : validateDigest recordDigest = .ok ())
    (hrow : rows recordDigest = some row)
    (hread : readRow H config recordDigest row = .ok record) :
    getRecord H config recordDigest rows = .ok (some record) rows := by
  unfold getRecord
  rw [Transaction.lift_ok_bind hvalid, bind_apply, get_apply]
  simp only [hrow, hread]
  rfl

/-! ## Inserting -/

/-- Wire and identity of a row; a repeated insertion leaves them alone. -/
def stored (row : SpoolRow) : String × DeliveryKey := (row.wireJson, row.key)

/-- Every stored wire is kept, with its identity. -/
def KeepsWires (rows rows' : Spool) : Prop :=
  ∀ digest row, rows digest = some row →
    ∃ row', rows' digest = some row' ∧ stored row' = stored row

theorem KeepsWires.refl (rows : Spool) : KeepsWires rows rows :=
  fun _ row h => ⟨row, h, rfl⟩

theorem KeepsWires.trans {rows rows' rows'' : Spool} (h : KeepsWires rows rows')
    (h' : KeepsWires rows' rows'') : KeepsWires rows rows'' := by
  intro digest row hrow
  obtain ⟨row', hrow', hwire⟩ := h digest row hrow
  obtain ⟨row'', hrow'', hwire'⟩ := h' digest row' hrow'
  exact ⟨row'', hrow'', hwire'.trans hwire⟩

theorem KeepsWires.recoverable {rows rows' : Spool} (h : KeepsWires rows rows') {digest : String}
    (hrecoverable : Recoverable H config rows digest) : Recoverable H config rows' digest := by
  obtain ⟨row, record, hrow, hread⟩ := hrecoverable
  obtain ⟨row', hrow', hwire⟩ := h digest row hrow
  exact ⟨row', record, hrow', (readRow_congr (congrArg Prod.fst hwire)).trans hread⟩

/-- The row under a digest is an old one, up to reason and time, or one of the inserted rows. -/
def InsertedOrKept (prepared : List (String × SpoolRow)) (rows rows' : Spool) : Prop :=
  ∀ digest row', rows' digest = some row' →
    (∃ row, rows digest = some row ∧ stored row' = stored row) ∨
      ∃ row, (digest, row) ∈ prepared ∧ stored row' = stored row

theorem upsert_ok {digest : String} {row : SpoolRow} {rows rows' : Spool}
    (h : upsert digest row rows = .ok () rows') :
    KeepsWires rows rows' ∧ InsertedOrKept [(digest, row)] rows rows' := by
  obtain ⟨_, _, h₁, h⟩ := bind_eq_ok_iff.1 h
  obtain ⟨rfl, rfl⟩ := get_eq_ok_iff.1 h₁
  cases hold : rows digest with
  | none =>
      simp only [hold, set_eq_ok_iff] at h
      subst h
      refine ⟨fun d r hr => ?_, fun d r hr => ?_⟩
      · have hne : d ≠ digest := by
          rintro rfl
          rw [hold] at hr
          cases hr
        exact ⟨r, by rw [Function.update_of_ne hne, hr], rfl⟩
      · by_cases hd : d = digest
        · subst hd
          rw [Function.update_self] at hr
          cases hr
          exact .inr ⟨row, List.mem_singleton.2 rfl, rfl⟩
        · rw [Function.update_of_ne hd] at hr
          exact .inl ⟨r, hr, rfl⟩
  | some old =>
      simp only [hold, set_eq_ok_iff] at h
      subst h
      refine ⟨fun d r hr => ?_, fun d r hr => ?_⟩
      · by_cases hd : d = digest
        · subst hd
          rw [hold] at hr
          cases hr
          exact ⟨_, Function.update_self .., rfl⟩
        · exact ⟨r, by rw [Function.update_of_ne hd, hr], rfl⟩
      · by_cases hd : d = digest
        · subst hd
          rw [Function.update_self] at hr
          cases hr
          exact .inl ⟨old, hold, rfl⟩
        · rw [Function.update_of_ne hd] at hr
          exact .inl ⟨r, hr, rfl⟩

theorem upsertAll_ok {prepared : List (String × SpoolRow)} {rows rows' : Spool}
    (h : upsertAll prepared rows = .ok () rows') :
    KeepsWires rows rows' ∧ InsertedOrKept prepared rows rows' := by
  induction prepared generalizing rows with
  | nil =>
      obtain ⟨-, rfl⟩ := pure_eq_ok_iff.1 h
      exact ⟨.refl _, fun d r hr => .inl ⟨r, hr, rfl⟩⟩
  | cons p rest ih =>
      obtain ⟨digest, row⟩ := p
      obtain ⟨_, rows₁, h₁, h₂⟩ := bind_eq_ok_iff.1 h
      obtain ⟨hkeeps₁, hinserted₁⟩ := upsert_ok h₁
      obtain ⟨hkeeps₂, hinserted₂⟩ := ih h₂
      refine ⟨hkeeps₁.trans hkeeps₂, fun d r hr => ?_⟩
      rcases hinserted₂ d r hr with ⟨r₁, hr₁, hwire⟩ | ⟨r₁, hr₁, hwire⟩
      · rcases hinserted₁ d r₁ hr₁ with ⟨r₀, hr₀, hwire₀⟩ | ⟨r₀, hr₀, hwire₀⟩
        · exact .inl ⟨r₀, hr₀, hwire.trans hwire₀⟩
        · obtain ⟨rfl, rfl⟩ := Prod.mk.inj (List.mem_singleton.1 hr₀)
          exact .inr ⟨r₀, List.mem_cons_self, hwire.trans hwire₀⟩
      · exact .inr ⟨r₁, List.mem_cons_of_mem _ hr₁, hwire⟩

theorem checkPersisted_ok {prepared : List (String × SpoolRow)} {rows rows' : Spool}
    (h : checkPersisted prepared rows = .ok () rows') :
    rows' = rows ∧ ∀ p ∈ prepared, rows p.1 = some p.2 := by
  induction prepared generalizing rows with
  | nil =>
      obtain ⟨-, rfl⟩ := pure_eq_ok_iff.1 h
      exact ⟨rfl, fun p hp => nomatch hp⟩
  | cons p rest ih =>
      obtain ⟨digest, row⟩ := p
      obtain ⟨_, _, h₁, h⟩ := bind_eq_ok_iff.1 h
      obtain ⟨rfl, rfl⟩ := get_eq_ok_iff.1 h₁
      dsimp only at h
      split at h
      · cases h
      · rename_i hpersisted
        obtain ⟨hsame, hrest⟩ := ih h
        refine ⟨hsame, fun p hp => ?_⟩
        rcases List.mem_cons.1 hp with rfl | hp
        · exact not_not.1 hpersisted
        · exact hrest p hp

/-- A validated batch: the rows of the records in order, each with a wire that can be read. -/
theorem prepare_ok {reasonCode : String} {instant : Instant} {index total : Nat}
    {records : List BlindTransportRecord} {prepared : List (String × SpoolRow)}
    (h : prepare H config reasonCode instant index total records = .ok prepared) :
    prepared.map Prod.fst = records.map (fun r => r.digest H) ∧
      ∀ p ∈ prepared, ∃ record ∈ records, p.1 = record.digest H ∧ p.2.key = record.key ∧
        record.wireBytes ≤ config.limits.maxRecordWireBytes ∧
        canonicalWire H config record = .ok p.2.wireJson := by
  induction records generalizing index total prepared with
  | nil =>
      cases h
      exact ⟨rfl, fun p hp => nomatch hp⟩
  | cons record rest ih =>
      unfold prepare at h
      dsimp only at h
      split at h
      · cases h
      split at h
      · cases h
      rename_i hsize
      split at h
      · cases h
      cases hwire : canonicalWire H config record with
      | error e =>
          rw [hwire] at h
          cases h
      | ok wire =>
          rw [hwire] at h
          cases hrest : prepare H config reasonCode instant (index + 1)
              (total + record.wireBytes) rest with
          | error e =>
              simp only [hrest] at h
              cases h
          | ok rows =>
              simp only [hrest] at h
              cases h
              obtain ⟨hkeys, hrows⟩ := ih hrest
              refine ⟨by rw [List.map_cons, List.map_cons, hkeys], fun p hp => ?_⟩
              rcases List.mem_cons.1 hp with rfl | hp
              · exact ⟨record, List.mem_cons_self, rfl, rfl, Nat.not_lt.1 hsize, hwire⟩
              · obtain ⟨r, hr, hp⟩ := hrows p hp
                exact ⟨r, List.mem_cons_of_mem _ hr, hp⟩

theorem mem_keys_dictSet {α : Type} {key k : String} {value : α} {d : List (String × α)}
    (h : k ∈ d.map Prod.fst) : k ∈ (dictSet key value d).map Prod.fst := by
  induction d with
  | nil => cases h
  | cons p d ih =>
      obtain ⟨k', v⟩ := p
      rw [dictSet]
      split
      · exact h
      · rcases List.mem_cons.1 h with rfl | h
        · exact List.mem_cons_self
        · exact List.mem_cons_of_mem _ (ih h)

theorem key_mem_dictSet {α : Type} (key : String) (value : α) (d : List (String × α)) :
    key ∈ (dictSet key value d).map Prod.fst := by
  induction d with
  | nil => exact List.mem_cons_self
  | cons p d ih =>
      obtain ⟨k', v⟩ := p
      rw [dictSet]
      split
      · rename_i heq
        exact List.mem_cons.2 (.inl heq.symm)
      · exact List.mem_cons_of_mem _ ih

theorem mem_dictSet {α : Type} {key : String} {value : α} {d : List (String × α)}
    {p : String × α} (h : p ∈ dictSet key value d) : p ∈ d ∨ p = (key, value) := by
  induction d with
  | nil => exact .inr (List.mem_singleton.1 h)
  | cons q d ih =>
      obtain ⟨k, v⟩ := q
      rw [dictSet] at h
      split at h
      · rename_i heq
        rcases List.mem_cons.1 h with rfl | h
        · exact .inr (by rw [heq])
        · exact .inl (List.mem_cons_of_mem _ h)
      · rcases List.mem_cons.1 h with rfl | h
        · exact .inl List.mem_cons_self
        · rcases ih h with h | h
          · exact .inl (List.mem_cons_of_mem _ h)
          · exact .inr h

/-- A dictionary has the keys of its pairs, each with the value of one of them. -/
theorem dictOf_spec {α : Type} (pairs : List (String × α)) :
    (∀ p ∈ pairs, p.1 ∈ (dictOf pairs).map Prod.fst) ∧ ∀ p ∈ dictOf pairs, p ∈ pairs := by
  have hfold : ∀ (pairs d : List (String × α)),
      (∀ k, k ∈ d.map Prod.fst ∨ k ∈ pairs.map Prod.fst →
        k ∈ (pairs.foldl (fun d p => dictSet p.1 p.2 d) d).map Prod.fst) ∧
      ∀ p ∈ pairs.foldl (fun d p => dictSet p.1 p.2 d) d, p ∈ d ∨ p ∈ pairs := by
    intro pairs
    induction pairs with
    | nil =>
        intro d
        refine ⟨fun k hk => ?_, fun p hp => .inl hp⟩
        rcases hk with hk | hk
        · exact hk
        · cases hk
    | cons q pairs ih =>
        intro d
        obtain ⟨hkeys, hvalues⟩ := ih (dictSet q.1 q.2 d)
        refine ⟨fun k hk => hkeys k ?_, fun p hp => ?_⟩
        · rcases hk with hk | hk
          · exact .inl (mem_keys_dictSet hk)
          · rcases List.mem_cons.1 hk with rfl | hk
            · exact .inl (key_mem_dictSet _ _ _)
            · exact .inr hk
        · rcases hvalues p hp with hp | hp
          · rcases mem_dictSet hp with hp | hp
            · exact .inl hp
            · exact .inr (List.mem_cons.2 (.inl hp))
          · exact .inr (List.mem_cons_of_mem _ hp)
  obtain ⟨hkeys, hvalues⟩ := hfold pairs []
  refine ⟨fun p hp => hkeys _ (.inr (List.mem_map_of_mem hp)), fun p hp => ?_⟩
  rcases hvalues p hp with hp | hp
  · cases hp
  · exact hp

/-- **Insertion.** A successful insertion keeps every stored wire, makes every record of the batch
recoverable, and stores no other wire than theirs. -/
theorem quarantineMany_ok {instant : Instant} {records : List BlindTransportRecord}
    {reasonCode : String} {rows rows' : Spool}
    (h : quarantineMany H config instant records reasonCode rows = .ok () rows') :
    KeepsWires rows rows' ∧ (∀ r ∈ records, Recoverable H config rows' (r.digest H)) ∧
      ∀ digest row', rows' digest = some row' →
        (∃ row, rows digest = some row ∧ stored row' = stored row) ∨
          ∃ r ∈ records, digest = r.digest H ∧ stored row' = (r.canonicalWire, r.key) := by
  unfold quarantineMany at h
  obtain ⟨_, rows₁, hreason, hbatch⟩ := bind_eq_ok_iff.1 h
  have hsame := (readOnly_lift _).1 _ _ _ hreason
  subst hsame
  obtain ⟨prepared, rows₂, hprepare, hwrite⟩ := bind_eq_ok_iff.1 hbatch
  have hsame := (readOnly_lift _).1 _ _ _ hprepare
  subst hsame
  have hprepared : prepare H config reasonCode instant 0 0 records = .ok prepared := by
    cases hresult : prepare H config reasonCode instant 0 0 records with
    | error e =>
        rw [hresult] at hprepare
        cases hprepare
    | ok prepared' =>
        rw [hresult] at hprepare
        cases hprepare
        rfl
  obtain ⟨hkeys, hrows⟩ := prepare_ok hprepared
  split at hwrite
  · rename_i hnil
    obtain ⟨-, rfl⟩ := pure_eq_ok_iff.1 hwrite
    have hrecords : records = [] := by
      rw [hnil, List.map_nil] at hkeys
      exact List.map_eq_nil_iff.1 hkeys.symm
    subst hrecords
    refine ⟨.refl _, ?_, fun d r hr => .inl ⟨r, hr, rfl⟩⟩
    intro r hr
    cases hr
  · rw [transaction_eq_ok_iff] at hwrite
    obtain ⟨_, rows₃, hupsert, hcheck⟩ := bind_eq_ok_iff.1 hwrite
    obtain ⟨hkeeps, hinserted⟩ := upsertAll_ok hupsert
    obtain ⟨rfl, hpersisted⟩ := checkPersisted_ok hcheck
    obtain ⟨hdictKeys, hdictValues⟩ := dictOf_spec prepared
    refine ⟨hkeeps, fun r hr => ?_, fun d row' hrow' => ?_⟩
    · have hmem : r.digest H ∈ prepared.map Prod.fst := by
        rw [hkeys]
        exact List.mem_map_of_mem hr
      obtain ⟨p, hp, hdigest⟩ := List.mem_map.1 hmem
      obtain ⟨q, hq, hqdigest⟩ := List.mem_map.1 (hdictKeys p hp)
      obtain ⟨record, -, hrecord, -, hsize, hwire⟩ := hrows q (hdictValues q hq)
      obtain ⟨parsed, hparsed⟩ := readRow_of_canonicalWire hwire hsize rfl
      rw [← hdigest, ← hqdigest]
      exact ⟨q.2, parsed, hpersisted q hq, hrecord ▸ hparsed⟩
    · rcases hinserted d row' hrow' with hold | ⟨row, hmem, hwire⟩
      · exact .inl hold
      · obtain ⟨record, hrecord, hdigest, hkey, -, hcanonical⟩ := hrows _ hmem
        refine .inr ⟨record, hrecord, hdigest, hwire.trans ?_⟩
        rw [stored, hkey, (canonicalWire_ok hcanonical).1]

theorem atomic_quarantineMany (instant : Instant) (records : List BlindTransportRecord)
    (reasonCode : String) : Atomic (quarantineMany H config instant records reasonCode) := by
  refine (readOnly_lift _).bind_atomic fun _ => (readOnly_lift _).bind_atomic fun prepared => ?_
  split
  · exact (readOnly_pure _).2
  · exact atomic_transaction _

/-! ## Removing -/

theorem removeMany_ok {digests : List String} {rows rows' : Spool} {n : Nat}
    (h : removeMany digests rows = .ok n rows') :
    rows' = fun digest => if digest ∈ digests then none else rows digest := by
  unfold removeMany at h
  obtain ⟨_, rows₁, hvalid, hrest⟩ := bind_eq_ok_iff.1 h
  have hsame := (readOnly_lift _).1 _ _ _ hvalid
  subst hsame
  obtain ⟨_, _, hget, hwrite⟩ := bind_eq_ok_iff.1 hrest
  obtain ⟨rfl, rfl⟩ := get_eq_ok_iff.1 hget
  obtain ⟨_, rows₂, hset, hcount⟩ := bind_eq_ok_iff.1 hwrite
  obtain ⟨-, rfl⟩ := pure_eq_ok_iff.1 hcount
  exact (set_eq_ok_iff.1 hset).symm

theorem atomic_removeMany (digests : List String) : Atomic (removeMany digests) := by
  refine (readOnly_lift _).bind_atomic fun _ => readOnly_get.bind_atomic fun rows => ?_
  intro s e s' h
  cases h

end SealedSpool

end Polymorph
