import Polymorph.Relay.StoredLease
import Polymorph.StandardHost

/-!
# No poison rows

Each row that a lease reaches is leased or dead-lettered, and only an integer literal beyond the
digit limit of the interpreter makes the call raise.
-/

set_option autoImplicit false

namespace Polymorph

open JsonText Transaction Table Utc

namespace StoredQueue

open SealedRelayQueue

section Lease

variable {H : Host} {ed25519 : List UInt8 → ByteArray → List UInt8 → Bool} {loads : JsonLoads}
  {config : RelayConfig} {registry : Option SourceTrustStore} {now : Instant}

/-- The tables as enqueueing writes them, whatever the bytes of the wires: the digest is the primary
key of the queue, and no queued digest is dead-lettered. -/
structure StoredInv (tables : StoredTables) : Prop where
  digests : UniqueBy (fun row : StoredRow => row.recordDigest) tables.queue
  separate : ∀ row ∈ tables.queue, ∀ letter ∈ tables.deadLetters,
    letter.recordDigest ≠ row.recordDigest

/-- No letter is there for the digest of a queued row. -/
theorem StoredInv.fresh {tables : StoredTables} (h : StoredInv tables)
    {item : StoredRow × List UInt8 × String} (hrow : item.1 ∈ tables.queue) :
    tables.deadLetterRow item.1.recordDigest = none :=
  selectBy_eq_none.2 (h.separate item.1 hrow)

theorem StoredInv.compatible {tables : StoredTables} (h : StoredInv tables)
    {item : StoredRow × List UInt8 × String} (hrow : item.1 ∈ tables.queue) :
    Compatible now tables item := by
  intro existing hexisting
  rw [h.fresh hrow] at hexisting
  cases hexisting

/-- The place of a reached row in a scan. -/
def Placed (H : Host) (ed25519 : List UInt8 → ByteArray → List UInt8 → Bool) (loads : JsonLoads)
    (config : RelayConfig) (registry : Option SourceTrustStore) (now : Instant) (scan : StoredScan)
    (row : StoredRow) : Prop :=
  (row.wireJson.length > config.limits.maxRecordWireBytes ∧ row ∈ scan.oversized) ∨
    (row.wireJson.length ≤ config.limits.maxRecordWireBytes ∧
      ((∃ code, examineRow H ed25519 loads config registry now row =
          .ok (.rejected code) ∧ (row, row.wireJson.bytes, code) ∈ scan.rejected) ∨
        ∃ record, examineRow H ed25519 loads config registry now row =
          .ok (.accepted record) ∧ (row.recordDigest, record) ∈ scan.leased))

/-- The loop places each row that it takes. -/
theorem placed_scanOf {taken : List StoredRow} {budgetBlocked : Bool} {row : StoredRow}
    (hrow : row ∈ taken) (hshort : ¬LongColumn loads config row.wireJson) :
    Placed H ed25519 loads config registry now
      (scanOf H ed25519 loads config registry now taken budgetBlocked) row := by
  cases (@fate_of_short H ed25519 _ _ registry now row) hshort with
  | oversized h => exact .inl ⟨of_decide_eq_true h, List.mem_filter.2 ⟨hrow, h⟩⟩
  | rejected h code hexamine =>
      refine .inr ⟨Nat.not_lt.1 (of_decide_eq_false h), .inl ⟨code, hexamine, ?_⟩⟩
      exact List.mem_filterMap.2 ⟨row, hrow, by simp [rejectedOf, h, hexamine]⟩
  | leased h record hexamine =>
      refine .inr ⟨Nat.not_lt.1 (of_decide_eq_false h), .inr ⟨record, hexamine, ?_⟩⟩
      exact List.mem_filterMap.2 ⟨row, hrow, by simp [leasedOf, h, hexamine]⟩

/-! ## The lease -/

/-- A lease was handed out for the row, which is fenced with it. -/
def HandedOut (H : Host) (leased : List LeasedRecord) (row : StoredRow) (tables : StoredTables) :
    Prop :=
  ∃ l ∈ leased, l.record.digest H = row.recordDigest ∧ ∃ row' ∈ tables.queue,
    row'.toRelayMetadata = row.toRelayMetadata ∧ row'.wireJson = row.wireJson ∧
      row'.lease = some ⟨l.leaseOwner, l.leaseId, l.leaseExpiresAt⟩

/-- The row has moved to the dead letters with a reason. -/
def Moved (reasonCode : String) (row : StoredRow) (tables : StoredTables) : Prop :=
  (∃ letter ∈ tables.deadLetters, letter.toRelayMetadata = row.toRelayMetadata ∧
    letter.reasonCode = reasonCode) ∧ ∀ other ∈ tables.queue, other.recordDigest ≠ row.recordDigest

/-- What a lease makes of a row: it leases one that decodes, validates and has its digest, and
dead-letters any other. -/
def Settled (H : Host) (ed25519 : List UInt8 → ByteArray → List UInt8 → Bool) (loads : JsonLoads)
    (config : RelayConfig) (registry : Option SourceTrustStore) (now : Instant)
    (leased : List LeasedRecord) (row : StoredRow) (tables : StoredTables) : Prop :=
  if row.wireJson.length > config.limits.maxRecordWireBytes then
    Moved "relay_wire_invalid" row tables
  else
    match examineRow H ed25519 loads config registry now row with
    | .ok (.accepted _) => HandedOut H leased row tables
    | .ok (.rejected reasonCode) => Moved reasonCode row tables
    | .error _ => False

/-- The rows that a lease reaches. -/
def reachedRows (H : Host) (ed25519 : List UInt8 → ByteArray → List UInt8 → Bool)
    (loads : JsonLoads) (config : RelayConfig) (registry : Option SourceTrustStore)
    (destinationConnector : String) (limit wireBudget : Nat) (now : Instant)
    (tables : StoredTables) : List StoredRow :=
  reached H ed25519 loads config registry now limit wireBudget 0 0 0
    (scanned destinationConnector now.isoformat limit tables.queue)

/-- The transaction commits, and every row it reached is leased or dead-lettered. -/
def NoPoison (H : Host) (ed25519 : List UInt8 → ByteArray → List UInt8 → Bool)
    (loads : JsonLoads) (config : RelayConfig) (registry : Option SourceTrustStore)
    (destinationConnector leaseOwner : String) (limit wireBudget : Nat) (now expires : Instant)
    (token : Nat → String) (tables : StoredTables) : Prop :=
  ∃ leased budgetBlocked tables', leaseTransaction H ed25519 loads config registry
      destinationConnector leaseOwner limit wireBudget now expires token tables =
        .ok (leased, budgetBlocked) tables' ∧
    ∀ row ∈ reachedRows H ed25519 loads config registry destinationConnector limit wireBudget now
      tables, Settled H ed25519 loads config registry now leased row tables'

/-- A row that a scan placed is settled by the transaction. -/
theorem settled_of_placed {tables : StoredTables} (hinv : StoredInv tables) {scan : StoredScan}
    {row : StoredRow} {leaseOwner expires : String} {token : Nat → String}
    (hmem : row ∈ tables.queue) (hplaced : Placed H ed25519 loads config registry now scan row)
    (hok : ∀ item ∈ scan.leased, item.2.digest H = item.1) (hdistinct : scan.digests.Nodup) :
    Settled H ed25519 loads config registry now
      (leasedRecords leaseOwner expires token 0 scan.leased) row
      (afterLease now tables scan (leaseUpdates leaseOwner expires token 0 scan.leased)) := by
  obtain ⟨-, hleased, hdisjoint⟩ := List.nodup_append.1 hdistinct
  have hmoved : ∀ wire reasonCode, (row, wire, reasonCode) ∈ scan.setAside →
      Moved reasonCode row
        (afterLease now tables scan (leaseUpdates leaseOwner expires token 0 scan.leased)) := by
    intro wire reasonCode hitem
    have hfresh : isFresh tables (row, wire, reasonCode) = true :=
      congrArg Option.isNone (@StoredInv.fresh _ hinv (row, wire, reasonCode) hmem)
    refine ⟨⟨letterOf now (row, wire, reasonCode), ?_, rfl, rfl⟩, ?_⟩
    · exact List.mem_append_right _ (List.mem_map_of_mem (List.mem_filter.2 ⟨hitem, hfresh⟩))
    · intro other hother hsame
      obtain ⟨old, hold, rfl⟩ := List.mem_map.1 hother
      have hdigest : old.recordDigest = row.recordDigest :=
        (congrArg RelayMetadata.recordDigest (fenced_kept _ old).1).symm.trans hsame
      apply of_decide_eq_true (List.mem_filter.1 hold).2
      rw [hdigest]
      exact List.mem_map_of_mem (f := fun item => item.1.recordDigest) hitem
  unfold Settled
  rcases hplaced with ⟨hsize, hover⟩ | ⟨hsize, ⟨code, hexamine, hrejected⟩ |
    ⟨record, hexamine, haccepted⟩⟩
  · rw [if_pos hsize]
    exact hmoved _ _ (List.mem_append_left _ (List.mem_map.2 ⟨row, hover, rfl⟩))
  · rw [if_neg (Nat.not_lt.2 hsize), hexamine]
    exact hmoved _ _ (List.mem_append_right _ hrejected)
  · rw [if_neg (Nat.not_lt.2 hsize), hexamine]
    obtain ⟨l, hl, hrecord, hupdate⟩ := (@mem_leased leaseOwner expires token 0) haccepted
    refine ⟨l, hl, ?_, fenced (leaseUpdates leaseOwner expires token 0 scan.leased) row, ?_,
      (fenced_kept _ row).1, (fenced_kept _ row).2, ?_⟩
    · rw [hrecord]
      exact hok _ haccepted
    · refine List.mem_map_of_mem (List.mem_filter.2 ⟨hmem, decide_eq_true ?_⟩)
      intro hside
      exact hdisjoint _ hside _ (List.mem_map_of_mem (f := Prod.fst) haccepted) rfl
    · refine fenced_of_mem ?_ hupdate
      rw [leaseUpdates_digests]
      exact hleased

/-- A reached row with a long integer makes the transaction raise. -/
theorem not_noPoison_of_longInteger {destinationConnector leaseOwner : String}
    {limit wireBudget : Nat} {expires : Instant} {token : Nat → String} {tables : StoredTables}
    (hinv : StoredInv tables) {row : StoredRow}
    (hrow : row ∈ reachedRows H ed25519 loads config registry destinationConnector limit wireBudget
      now tables) (hlong : LongColumn loads config row.wireJson) :
    ¬NoPoison H ed25519 loads config registry destinationConnector leaseOwner limit wireBudget now
      expires token tables := by
  obtain ⟨hrows, -⟩ := scanned_mem hinv.digests destinationConnector now.isoformat limit
  rcases (@scanRows_spec H ed25519 loads config registry now _ limit wireBudget 0 0 0) hinv.digests
      hrows (Nat.zero_le _) (Nat.zero_le _) (Nat.zero_le _) with
    ⟨hscan, -⟩ | ⟨taken, budgetBlocked, rfl, -, hshort, -⟩
  · rintro ⟨leased, budgetBlocked, tables', hlease, -⟩
    unfold leaseTransaction at hlease
    rw [transaction_eq_ok_iff, bind_apply, get_apply] at hlease
    dsimp only at hlease
    rw [hscan] at hlease
    cases hlease
  · exact absurd hlong (hshort row hrow)

/-- Where no reached row has one, every reached row is settled. -/
theorem noPoison_of_short {destinationConnector leaseOwner : String} {limit wireBudget : Nat}
    {expires : Instant} {token : Nat → String} {tables : StoredTables} (hinv : StoredInv tables)
    (hshort : ∀ row ∈ reachedRows H ed25519 loads config registry destinationConnector limit
      wireBudget now tables, ¬LongColumn loads config row.wireJson) :
    NoPoison H ed25519 loads config registry destinationConnector leaseOwner limit wireBudget now
      expires token tables := by
  obtain ⟨hrows, hdigests⟩ := scanned_mem hinv.digests destinationConnector now.isoformat limit
  rcases (@scanRows_spec H ed25519 loads config registry now _ limit wireBudget 0 0 0) hinv.digests
      hrows (Nat.zero_le _) (Nat.zero_le _) (Nat.zero_le _) with
    ⟨-, row, hrow, hlong⟩ | ⟨taken, budgetBlocked, htaken, hscan, hclear, hexit⟩
  · exact absurd hlong (hshort row hrow)
  · have hok := (@scanOk_scanOf H ed25519 _ _ registry now _ budgetBlocked) hclear
    have hsub := hexit.isPrefix.sublist
    have hmem : ∀ row ∈ taken, row ∈ tables.queue := fun row hrow => hrows row (hsub.subset hrow)
    have hdistinct := hok.nodup (hdigests.sublist (hsub.map _))
    refine ⟨_, _, _, leaseTransaction_eq hinv.digests hscan hok hmem hdistinct ?_, ?_⟩
    · exact fun item hitem => hinv.compatible (hmem _ (hok.setAside item hitem))
    · intro row hrow
      have hrow' : row ∈ taken := htaken ▸ hrow
      exact settled_of_placed hinv (hmem row hrow') (placed_scanOf hrow' (hclear row hrow'))
        hok.leased hdistinct

/-- **A lease has no poison row** exactly when no row it reaches holds an integer literal beyond the
digit limit. -/
theorem no_poison_iff (H : Host) (ed25519 : List UInt8 → ByteArray → List UInt8 → Bool)
    (loads : JsonLoads) (config : RelayConfig) (registry : Option SourceTrustStore)
    (destinationConnector leaseOwner : String) (limit wireBudget : Nat) (now expires : Instant)
    (token : Nat → String) (tables : StoredTables) (hinv : StoredInv tables) :
    NoPoison H ed25519 loads config registry destinationConnector leaseOwner limit wireBudget now
        expires token tables ↔
      ∀ row ∈ reachedRows H ed25519 loads config registry destinationConnector limit wireBudget now
        tables, ¬LongColumn loads config row.wireJson := by
  constructor
  · intro h row hrow hlong
    exact not_noPoison_of_longInteger hinv hrow hlong h
  · exact noPoison_of_short hinv

end Lease

/-! ## A row of digits -/

/-- `json.loads` under the default digit limit, on texts without other defects. -/
def limitedLoads (text : String) : Loaded :=
  match JsonText.loads text with
  | none => .malformed
  | some j => if shortIntegers j then (if strict j then .value j else .duplicateKey) else .longInteger

/-- A wire of one integer literal of `n + 1` digits. -/
def onesWire (n : Nat) : List UInt8 := utf8Bytes (List.replicate (n + 1) '1')

/-- A queue of one row. -/
def oneRow (wire : List UInt8) : StoredTables where
  queue := [{
    recordDigest := "digest"
    tenant := "tenant"
    sourceConnector := "source"
    destinationConnector := "warehouse"
    transferId := "transfer"
    recordId := "record"
    planDigest := "plan"
    receivedAt := "2026-01-01T00:00:00+00:00"
    wireJson := .blob wire
    lease := none }]

theorem storedInv_oneRow (wire : List UInt8) : StoredInv (oneRow wire) :=
  ⟨List.nodup_singleton _, fun _ _ _ h => nomatch h⟩

/-- A relay without routes. -/
def closedRelay : RelayConfig where
  policy := { routes := [] }
  admitsOneRecord := RelayConfig.default_admitsOneRecord

theorem length_utf8Bytes_ones (n : Nat) : (utf8Bytes (List.replicate n '1')).length = n := by
  induction n with
  | zero => rfl
  | succ n ih =>
      rw [List.replicate_succ, utf8Bytes, List.flatMap_cons, List.length_append]
      change 1 + (utf8Bytes (List.replicate n '1')).length = n + 1
      rw [ih, Nat.add_comm]

/-- The value of `n` ones after the value `a`. -/
theorem foldl_ones (n a : Nat) :
    9 * (List.replicate n '1').foldl (fun v d => v * 10 + (d.toNat - 48)) a + 1 =
      (9 * a + 1) * 10 ^ n := by
  induction n generalizing a with
  | zero => rw [List.replicate_zero, List.foldl_nil, Nat.pow_zero, Nat.mul_one]
  | succ n ih =>
      rw [List.replicate_succ, List.foldl_cons, ih, Nat.pow_succ]
      have hstep : 9 * (a * 10 + ('1'.toNat - 48)) + 1 = (9 * a + 1) * 10 := by
        change 9 * (a * 10 + 1) + 1 = _
        omega
      rw [hstep, Nat.mul_assoc, Nat.mul_comm 10]

theorem spanDigits_ones (n : Nat) :
    spanDigits (List.replicate n '1') = (List.replicate n '1', []) := by
  have hall : ∀ c ∈ List.replicate n '1', isDigit c = true := by
    intro c hc
    rw [List.eq_of_mem_replicate hc]
    decide
  have hspan := spanDigits_append hall (.inl rfl)
  rw [List.append_nil] at hspan
  exact hspan

/-- A text of ones is one integer literal. -/
theorem loads_ones (n : Nat) :
    JsonText.loads (String.ofList (List.replicate (n + 1) '1')) =
      some (.int (digitsValue (List.replicate (n + 1) '1'))) := by
  have hpart : readIntPart (List.replicate (n + 1) '1') =
      some (List.replicate (n + 1) '1', []) := by
    rw [List.replicate_succ, readIntPart, if_neg (by decide), if_pos (by decide),
      spanDigits_ones]
  have hvalue : readValue (n + 2) (List.replicate (n + 1) '1') =
      some (.int (digitsValue (List.replicate (n + 1) '1')), []) := by
    have hunsigned : readUnsigned false (List.replicate (n + 1) '1') =
        some (.int (digitsValue (List.replicate (n + 1) '1')), []) := by
      unfold readUnsigned
      rw [hpart]
      rfl
    rw [← hunsigned, List.replicate_succ]
    rfl
  unfold JsonText.loads
  rw [String.toList_ofList, List.length_replicate]
  have hws : skipWs (List.replicate (n + 1) '1') = List.replicate (n + 1) '1' := by
    rw [List.replicate_succ]
    rfl
  rw [hws, hvalue]
  rfl

/-- `n + 1` ones are at least `10 ^ n`. -/
theorem le_digitsValue_ones (n : Nat) : 10 ^ n ≤ digitsValue (List.replicate (n + 1) '1') := by
  have hvalue := foldl_ones (n + 1) 0
  rw [Nat.pow_succ] at hvalue
  unfold digitsValue
  omega

theorem limitedLoads_ones {n : Nat} (h : JsonText.maxStrDigits ≤ n) :
    limitedLoads (String.ofList (List.replicate (n + 1) '1')) = .longInteger := by
  have hlong : shortIntegers (.int (digitsValue (List.replicate (n + 1) '1'))) = false := by
    rw [shortIntegers, Int.natAbs_natCast]
    apply decide_eq_false
    have hpow : 10 ^ JsonText.maxStrDigits ≤ 10 ^ n := Nat.pow_le_pow_right (by decide) h
    exact Nat.not_lt.2 (hpow.trans (le_digitsValue_ones n))
  unfold limitedLoads
  rw [loads_ones]
  dsimp only
  rw [if_neg (by rw [hlong]; decide)]

theorem longInteger_onesWire {n : Nat} (h : JsonText.maxStrDigits ≤ n) (hsize : n < 64 * 1024 * 1024) :
    LongInteger limitedLoads closedRelay (onesWire n) := by
  constructor
  · unfold onesWire
    rw [length_utf8Bytes_ones]
    exact hsize
  · unfold onesWire
    rw [loadWire_utf8Bytes, limitedLoads_ones h]

/-- A lease reaches the one row of a queue whose wire is in the budget. -/
theorem mem_reachedRows_oneRow {H : Host}
    {ed25519 : List UInt8 → ByteArray → List UInt8 → Bool} {loads : JsonLoads}
    {registry : Option SourceTrustStore} {now : Instant} {wire : List UInt8} {wireBudget : Nat}
    (hsize : wire.length ≤ 64 * 1024 * 1024) (hbudget : wire.length ≤ wireBudget) :
    reachedRows H ed25519 loads closedRelay registry "warehouse" 1 wireBudget now (oneRow wire) =
      (oneRow wire).queue := by
  have hscanned : scanned "warehouse" now.isoformat 1 (oneRow wire).queue = (oneRow wire).queue := by
    unfold scanned oneRow
    simp [available]
  unfold reachedRows
  rw [hscanned]
  unfold reached oneRow
  dsimp only
  rw [if_neg (by decide)]
  refine (if_neg (Nat.not_lt.2 hsize)).trans ?_
  refine (if_neg (Nat.not_lt.2 ((Nat.zero_add _).trans_le hbudget))).trans ?_
  split
  · rfl
  · rw [if_neg (by decide)]
    rfl
  · rfl

/-- A wire of 4301 digits makes every lease of its queue raise. -/
theorem digits_poison_lease : StoredInv (oneRow (onesWire JsonText.maxStrDigits)) ∧
    ¬NoPoison standardHost (fun _ _ _ => true) limitedLoads closedRelay none "warehouse" "worker" 1
      65536 ⟨⟨2026, 1, 1, 0, 0, 0, 0⟩, by decide⟩ ⟨⟨2026, 1, 1, 0, 2, 0, 0⟩, by decide⟩
      (fun _ => "token") (oneRow (onesWire JsonText.maxStrDigits)) := by
  have hlength : (onesWire JsonText.maxStrDigits).length = JsonText.maxStrDigits + 1 := length_utf8Bytes_ones (JsonText.maxStrDigits + 1)
  refine ⟨storedInv_oneRow _, ?_⟩
  refine @not_noPoison_of_longInteger _ _ _ _ _ _ _ _ _ _ _ _ _ (storedInv_oneRow _)
    ((oneRow (onesWire JsonText.maxStrDigits)).queue.head (List.cons_ne_nil _ _)) ?_
    ⟨_, rfl, longInteger_onesWire le_rfl (by decide)⟩
  rw [mem_reachedRows_oneRow (by rw [hlength]; decide) (by rw [hlength]; decide)]
  exact List.head_mem _

/-- A wire that is no JSON text moves to the dead letters. -/
theorem no_poison_iff_sample :
    NoPoison standardHost (fun _ _ _ => true) limitedLoads closedRelay none "warehouse" "worker" 1
      65536 ⟨⟨2026, 1, 1, 0, 0, 0, 0⟩, by decide⟩ ⟨⟨2026, 1, 1, 0, 2, 0, 0⟩, by decide⟩
      (fun _ => "token") (oneRow (utf8Bytes ['x'])) := by
  refine (no_poison_iff _ _ _ _ _ _ _ _ _ _ _ _ _ (storedInv_oneRow _)).2 ?_
  rw [mem_reachedRows_oneRow (by decide) (by decide)]
  intro row hrow hlong
  obtain rfl := List.mem_singleton.1 hrow
  obtain ⟨wire, hwire, -, hloaded⟩ := hlong
  cases hwire
  rw [loadWire_utf8Bytes] at hloaded
  unfold limitedLoads JsonText.loads at hloaded
  rw [String.toList_ofList] at hloaded
  cases hloaded

end StoredQueue

end Polymorph
