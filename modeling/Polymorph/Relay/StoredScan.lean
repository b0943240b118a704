import Polymorph.Relay.StoredQueue
import Polymorph.Relay.WireFailures
import Polymorph.Text.Loading

/-!
# The scan of a lease

Which rows the loop of a lease gets to, what it makes of them, and why it stops. A row is leased or
set aside, and only an integer literal beyond the digit limit of the interpreter makes the loop
raise. On wires that are texts, the stored queue examines them as the queue of texts does.
-/

set_option autoImplicit false

namespace Polymorph

open JsonText Transaction Table Utc

/-! ## Checking -/

/-- An exception that `lease` turns into a reason code. -/
def IsClassified (e : Exn) : Prop := (SealedRelayQueue.failureCode e).isSome = true

theorem isClassified_protocolError (message : String) : IsClassified (.protocolError message) := rfl

theorem isClassified_policyViolation (message : String) : IsClassified (.policyViolation message) :=
  rfl

theorem isClassified_integrityError (message : String) : IsClassified (.integrityError message) :=
  rfl

section Checking

variable (ed25519 : List UInt8 → ByteArray → List UInt8 → Bool)

theorem raises_checkIssuance (key : TrustedSourceKey) (issuedAt : Option Instant) :
    Raises IsClassified (SourceTrustStore.checkIssuance key issuedAt) := by
  unfold SourceTrustStore.checkIssuance
  refine raises_ite (fun _ => ?_) fun _ => raises_ok _
  split
  · refine raises_ite (fun _ => raises_error (isClassified_integrityError _)) fun _ => ?_
    exact raises_ok _
  · exact raises_error (isClassified_integrityError _)

theorem raises_verifyEd25519 (publicKey : List UInt8) (payload : ByteArray)
    (signature : List UInt8) :
    Raises IsClassified (SourceTrustStore.verifyEd25519 ed25519 publicKey payload signature) := by
  unfold SourceTrustStore.verifyEd25519
  refine raises_ite (fun _ => raises_error (isClassified_protocolError _)) fun _ => ?_
  refine raises_ite (fun _ => raises_error (isClassified_integrityError _)) fun _ => ?_
  refine raises_ite (fun _ => raises_error (isClassified_integrityError _)) fun _ => ?_
  exact raises_ok _

theorem raises_verifyRecord (store : SourceTrustStore) (record : BlindTransportRecord)
    (now : Instant) :
    Raises IsClassified (store.verifyRecord ed25519 record (.aware now)) := by
  unfold SourceTrustStore.verifyRecord
  split
  · exact raises_throw (isClassified_integrityError _)
  · refine raises_guard (isClassified_integrityError _) ?_
    split
    · exact raises_throw (isClassified_integrityError _)
    · refine raises_guard (isClassified_integrityError _) ?_
      refine raises_guard (isClassified_integrityError _) ?_
      refine Raises.bind ?_ fun payload _ => ?_
      · unfold BlindTransportRecord.sourceAuthenticationBytes
        refine raises_ite (fun _ => raises_error (isClassified_protocolError _)) fun _ => ?_
        exact raises_ok _
      refine (raises_verifyEd25519 ed25519 _ _ _).bind fun _ _ => ?_
      refine Raises.bind (raises_ok _) fun current _ => ?_
      refine raises_guard (isClassified_integrityError _) ?_
      refine raises_guard (isClassified_integrityError _) ?_
      exact (raises_checkIssuance _ _).bind fun _ _ => raises_pure _

/-- Every exception of the admission policy has a reason code. -/
theorem raises_validate (policy : RelayPolicy) (registry : Option SourceTrustStore)
    (record : BlindTransportRecord) (verifiedAt validatedAt : Instant) :
    Raises IsClassified (policy.validate ed25519 registry record verifiedAt validatedAt) := by
  unfold RelayPolicy.validate
  refine raises_guard (isClassified_policyViolation _) ?_
  have hrest : Raises IsClassified (do
      if (policy.routes.any fun route => route.allows record) = false then
        throw (.policyViolation "sealed record route is not authorized")
      record.first.validateTime validatedAt
      if policy.requireExpiry ∧ record.first.expiresAt = none then
        throw (.policyViolation "sealed record has no authenticated expiry")
      if RelayPolicy.lifetimeExceeds record.first policy.maxLifetime then
        throw (.policyViolation "sealed record lifetime exceeds relay policy") :
        Except Exn Unit) := by
    refine raises_guard (isClassified_policyViolation _) ?_
    refine Raises.bind ?_ fun _ _ => ?_
    · unfold TransferContext.validateTime
      split
      · exact raises_ok _
      · refine raises_ite (fun _ => raises_error rfl) fun _ => ?_
        exact raises_ok _
    refine raises_guard (isClassified_policyViolation _) ?_
    refine raises_ite (fun _ => raises_throw (isClassified_policyViolation _)) fun _ => ?_
    exact raises_pure _
  refine raises_ite (fun _ => ?_) fun _ => ?_
  · exact raises_guard (isClassified_policyViolation _) hrest
  · split
    · exact raises_throw (isClassified_policyViolation _)
    · exact (raises_verifyRecord ed25519 _ _ _).bind fun _ _ => hrest

end Checking

namespace StoredQueue

open SealedRelayQueue

section Lease

variable {H : Host} {ed25519 : List UInt8 → ByteArray → List UInt8 → Bool} {loads : JsonLoads}
  {config : RelayConfig} {registry : Option SourceTrustStore} {now : Instant}

/-- A wire within the size limit on which `json.loads` raises `ValueError`. -/
def LongInteger (loads : JsonLoads) (config : RelayConfig) (wire : List UInt8) : Prop :=
  wire.length ≤ config.limits.maxRecordWireBytes ∧ loadWire loads wire = .longInteger

/-- A column with such a wire. -/
def LongColumn (loads : JsonLoads) (config : RelayConfig) (column : WireColumn) : Prop :=
  ∃ wire, column = .blob wire ∧ LongInteger loads config wire

theorem LongColumn.length_le {column : WireColumn} (h : LongColumn loads config column) :
    column.length ≤ config.limits.maxRecordWireBytes := by
  obtain ⟨wire, rfl, hsize, -⟩ := h
  exact hsize

/-- The exception of the digit limit. -/
def digitLimit : Exn := .valueError "Exceeds the limit for integer string conversion"

theorem decodeQueuedRecord_longInteger {wire : List UInt8} (h : LongInteger loads config wire) :
    decodeQueuedRecord H loads config wire = .error digitLimit := by
  unfold decodeQueuedRecord
  rw [if_neg (Nat.not_lt.2 h.1), h.2]
  rfl

theorem raises_decodeQueuedRecord {wire : List UInt8} (h : ¬LongInteger loads config wire) :
    Raises IsClassified (decodeQueuedRecord H loads config wire) := by
  have hprotocol : ∀ message, Raises IsClassified
      (.error (.protocolError message) : Except Exn BlindTransportRecord) :=
    fun message => raises_error (isClassified_protocolError message)
  unfold decodeQueuedRecord
  refine raises_ite (fun _ => hprotocol _) fun hsize => ?_
  split
  · exact hprotocol _
  · exact hprotocol _
  · rename_i hlong
    exact absurd ⟨Nat.not_lt.1 hsize, hlong⟩ h
  · exact hprotocol _
  · exact hprotocol _
  · exact hprotocol _
  · split
    · exact raises_ok _
    · rename_i e he
      refine raises_ite (fun _ => hprotocol _) fun hviolation => ?_
      rcases raises_record_fromWire H _ _ _ _ e he with hwire | ⟨message, rfl⟩
      · exact absurd hwire hviolation
      · exact hprotocol message
  · exact hprotocol _

theorem examine_longInteger {recordDigest : String} {wire : List UInt8}
    (h : LongInteger loads config wire) :
    examine H ed25519 loads config registry now recordDigest wire = .error digitLimit := by
  unfold examine
  rw [decodeQueuedRecord_longInteger h]
  rfl

/-- Examining a wire raises exactly on an integer literal beyond the digit limit. -/
theorem examine_error_iff {recordDigest : String} {wire : List UInt8} :
    (∃ e, examine H ed25519 loads config registry now recordDigest wire = .error e) ↔
      LongInteger loads config wire := by
  constructor
  · rintro ⟨e, h⟩
    by_contra hshort
    unfold examine at h
    split at h
    · split at h
      · cases h
      · cases h
    · rename_i e' he
      have hclassified : IsClassified e' := by
        refine Raises.bind (raises_decodeQueuedRecord hshort) (fun record _ => ?_) e' he
        exact (raises_validate ed25519 _ _ _ _ _).bind fun _ _ => raises_pure _
      obtain ⟨code, hcode⟩ := Option.isSome_iff_exists.1 hclassified
      rw [hcode] at h
      cases h
  · intro h
    exact ⟨digitLimit, examine_longInteger h⟩

/-- The verdict on a row, whose wire is read as it was measured. -/
def examineRow (H : Host) (ed25519 : List UInt8 → ByteArray → List UInt8 → Bool)
    (loads : JsonLoads) (config : RelayConfig) (registry : Option SourceTrustStore) (now : Instant)
    (row : StoredRow) : Except Exn LeaseVerdict :=
  examineStored H ed25519 loads config registry now row.recordDigest row.wireJson.length
    row.wireJson

theorem examineRow_blob {row : StoredRow} {wire : List UInt8} (h : row.wireJson = .blob wire) :
    examineRow H ed25519 loads config registry now row =
      examine H ed25519 loads config registry now row.recordDigest wire := by
  unfold examineRow
  rw [h]
  exact if_neg (not_not.2 rfl)

theorem examineRow_other {row : StoredRow} {length : Nat} (h : row.wireJson = .other length) :
    examineRow H ed25519 loads config registry now row = .ok (.rejected "relay_wire_invalid") := by
  unfold examineRow
  rw [h]
  rfl

theorem examineRow_error_iff {row : StoredRow} :
    (∃ e, examineRow H ed25519 loads config registry now row = .error e) ↔
      LongColumn loads config row.wireJson := by
  cases hcolumn : row.wireJson with
  | blob wire =>
      rw [examineRow_blob hcolumn, examine_error_iff]
      constructor
      · exact fun h => ⟨wire, rfl, h⟩
      · rintro ⟨_, hwire, h⟩
        cases hwire
        exact h
  | other length =>
      rw [examineRow_other hcolumn]
      constructor
      · rintro ⟨e, he⟩
        cases he
      · rintro ⟨_, hwire, -⟩
        cases hwire

theorem examineRow_error {row : StoredRow} {e : Exn}
    (h : examineRow H ed25519 loads config registry now row = .error e) :
    e = digitLimit ∧ LongColumn loads config row.wireJson := by
  have hlong := examineRow_error_iff.1 ⟨e, h⟩
  refine ⟨?_, hlong⟩
  obtain ⟨wire, hcolumn, hwire⟩ := hlong
  rw [examineRow_blob hcolumn, examine_longInteger hwire] at h
  cases h
  rfl

/-! ## Wires that are texts -/

theorem loadWire_utf8Bytes (loads : JsonLoads) (chars : List Char) :
    loadWire loads (utf8Bytes chars) = loads (String.ofList chars) := by
  have hdecode := decodeUtf8_utf8Bytes chars
  unfold decodeUtf8 at hdecode
  rw [loadWire, hdecode]

/-- `json.loads` returns the value of a strict text and raises on any other, within the digit
limit. -/
def Agrees (loads : JsonLoads) (text : String) : Prop :=
  match strictLoads text with
  | some j => loads text = .value j
  | none => loads text ≠ .longInteger ∧ ∀ j, loads text ≠ .value j

/-- On a text, the stored queue examines a wire as the queue of texts does. -/
theorem examine_text {text recordDigest : String} (h : Agrees loads text) :
    examine H ed25519 loads config registry now recordDigest (utf8Bytes text.toList) =
      SealedRelayQueue.examine H ed25519 config registry now recordDigest text := by
  have hload := loadWire_utf8Bytes loads text.toList
  rw [String.ofList_toList] at hload
  -- The two decoders return the same record, or both raise a protocol error.
  have hdecode : decodeQueuedRecord H loads config (utf8Bytes text.toList) =
      SealedRelayQueue.decodeQueuedRecord H config text ∨
      ∃ message message', decodeQueuedRecord H loads config (utf8Bytes text.toList) =
          .error (.protocolError message) ∧
        SealedRelayQueue.decodeQueuedRecord H config text = .error (.protocolError message') := by
    unfold decodeQueuedRecord SealedRelayQueue.decodeQueuedRecord
    rw [length_utf8Bytes, hload]
    by_cases hsize : text.utf8ByteSize > config.limits.maxRecordWireBytes
    · rw [if_pos hsize, if_pos hsize]
      exact .inl rfl
    rw [if_neg hsize, if_neg hsize]
    unfold Agrees at h
    cases hstrict : strictLoads text with
    | some j =>
        rw [hstrict] at h
        rw [h]
        cases j <;> exact .inl rfl
    | none =>
        rw [hstrict] at h
        right
        cases hloaded : loads text with
        | value j => exact absurd hloaded (h.2 j)
        | longInteger => exact absurd hloaded h.1
        | unencodable => exact ⟨_, _, rfl, rfl⟩
        | constant => exact ⟨_, _, rfl, rfl⟩
        | duplicateKey => exact ⟨_, _, rfl, rfl⟩
        | malformed => exact ⟨_, _, rfl, rfl⟩
        | nested => exact ⟨_, _, rfl, rfl⟩
  unfold examine SealedRelayQueue.examine
  rcases hdecode with hsame | ⟨message, message', hstored, htext⟩
  · rw [hsame] <;> rfl
  · rw [hstored, htext]
    rfl

theorem digest_of_accepted {recordDigest : String} {wire : List UInt8}
    {record : BlindTransportRecord}
    (h : examine H ed25519 loads config registry now recordDigest wire = .ok (.accepted record)) :
    record.digest H = recordDigest := by
  unfold examine at h
  split at h
  · split at h
    · cases h
    · rename_i hdigest
      cases h
      exact not_not.1 hdigest
  · split at h
    · cases h
    · cases h

theorem digest_of_examineRow {row : StoredRow} {record : BlindTransportRecord}
    (h : examineRow H ed25519 loads config registry now row = .ok (.accepted record)) :
    record.digest H = row.recordDigest := by
  cases hcolumn : row.wireJson with
  | blob wire =>
      rw [examineRow_blob hcolumn] at h
      exact digest_of_accepted h
  | other length =>
      rw [examineRow_other hcolumn] at h
      cases h

/-! ## The rows a lease reaches -/

/-- The rows that the loop gets to within its limits: those it sets aside or leases, and one on
which it raises. -/
def reached (H : Host) (ed25519 : List UInt8 → ByteArray → List UInt8 → Bool) (loads : JsonLoads)
    (config : RelayConfig) (registry : Option SourceTrustStore) (now : Instant)
    (limit wireBudget : Nat) : Nat → Nat → Nat → List StoredRow → List StoredRow
  | _, _, _, [] => []
  | leased, dead, consumed, row :: rest =>
      if leased ≥ limit then []
      else if row.wireJson.length > config.limits.maxRecordWireBytes then
        if dead ≥ maxDeadLettersPerLease then []
        else row :: reached H ed25519 loads config registry now limit wireBudget leased (dead + 1)
          consumed rest
      else if consumed + row.wireJson.length > wireBudget then []
      else
        match examineRow H ed25519 loads config registry now row with
        | .error _ => [row]
        | .ok (.rejected _) =>
            if dead ≥ maxDeadLettersPerLease then []
            else row :: reached H ed25519 loads config registry now limit wireBudget leased
              (dead + 1) (consumed + row.wireJson.length) rest
        | .ok (.accepted _) =>
            row :: reached H ed25519 loads config registry now limit wireBudget (leased + 1) dead
              (consumed + row.wireJson.length) rest

theorem mem_of_mem_reached {limit wireBudget leased dead consumed : Nat} {rows : List StoredRow}
    {row : StoredRow} (h : row ∈ reached H ed25519 loads config registry now limit wireBudget leased
      dead consumed rows) : row ∈ rows := by
  induction rows generalizing leased dead consumed with
  | nil => cases h
  | cons first rest ih =>
      have hcons : ∀ {leased dead consumed : Nat}, row ∈ first :: reached H ed25519 loads config
          registry now limit wireBudget leased dead consumed rest → row ∈ first :: rest := by
        intro leased dead consumed h
        rcases List.mem_cons.1 h with rfl | h
        · exact List.mem_cons_self
        · exact List.mem_cons_of_mem _ (ih h)
      unfold reached at h
      split at h
      · cases h
      · split at h
        · split at h
          · cases h
          · exact hcons h
        · split at h
          · cases h
          · split at h
            · rw [List.mem_singleton.1 h]
              exact List.mem_cons_self
            · split at h
              · cases h
              · exact hcons h
            · exact hcons h

/-! ## What the loop makes of a row -/

/-- A row too large to be read. -/
def oversized (config : RelayConfig) (row : StoredRow) : Bool :=
  decide (row.wireJson.length > config.limits.maxRecordWireBytes)

/-- The record of a row that is leased, under the digest of the row. -/
def leasedOf (H : Host) (ed25519 : List UInt8 → ByteArray → List UInt8 → Bool) (loads : JsonLoads)
    (config : RelayConfig) (registry : Option SourceTrustStore) (now : Instant) (row : StoredRow) :
    Option (String × BlindTransportRecord) :=
  if oversized config row then none
  else
    match examineRow H ed25519 loads config registry now row with
    | .ok (.accepted record) => some (row.recordDigest, record)
    | _ => none

/-- The letter that is planned for a row that is read and rejected. -/
def rejectedOf (H : Host) (ed25519 : List UInt8 → ByteArray → List UInt8 → Bool)
    (loads : JsonLoads) (config : RelayConfig) (registry : Option SourceTrustStore) (now : Instant)
    (row : StoredRow) : Option (StoredRow × List UInt8 × String) :=
  if oversized config row then none
  else
    match examineRow H ed25519 loads config registry now row with
    | .ok (.rejected code) => some (row, row.wireJson.bytes, code)
    | _ => none

/-- The scan that takes the given rows. -/
def scanOf (H : Host) (ed25519 : List UInt8 → ByteArray → List UInt8 → Bool) (loads : JsonLoads)
    (config : RelayConfig) (registry : Option SourceTrustStore) (now : Instant)
    (taken : List StoredRow) (budgetBlocked : Bool) : StoredScan where
  leased := taken.filterMap (leasedOf H ed25519 loads config registry now)
  oversized := taken.filter (oversized config)
  rejected := taken.filterMap (rejectedOf H ed25519 loads config registry now)
  budgetBlocked := budgetBlocked

/-- The wire bytes that are read of the rows. -/
def bytesRead (config : RelayConfig) (rows : List StoredRow) : Nat :=
  (rows.map fun row => if oversized config row then 0 else row.wireJson.length).sum

/-- The three fates of a row that does not raise. -/
inductive Fate (H : Host) (ed25519 : List UInt8 → ByteArray → List UInt8 → Bool)
    (loads : JsonLoads) (config : RelayConfig) (registry : Option SourceTrustStore) (now : Instant)
    (row : StoredRow) : Prop where
  | oversized (h : oversized config row = true)
  | rejected (h : oversized config row = false) (code : String)
      (hexamine : examineRow H ed25519 loads config registry now row = .ok (.rejected code))
  | leased (h : oversized config row = false) (record : BlindTransportRecord)
      (hexamine : examineRow H ed25519 loads config registry now row = .ok (.accepted record))

theorem fate_of_short {row : StoredRow} (h : ¬LongColumn loads config row.wireJson) :
    Fate H ed25519 loads config registry now row := by
  cases hsize : oversized config row with
  | true => exact .oversized hsize
  | false =>
      cases hexamine : examineRow H ed25519 loads config registry now row with
      | error e => exact absurd (examineRow_error hexamine).2 h
      | ok verdict =>
          cases verdict with
          | rejected code => exact .rejected hsize code hexamine
          | accepted record => exact .leased hsize record hexamine

section ScanOf

variable {row : StoredRow} {taken : List StoredRow} {budgetBlocked : Bool}

theorem scanOf_oversized (h : oversized config row = true) :
    scanOf H ed25519 loads config registry now (row :: taken) budgetBlocked =
      { scanOf H ed25519 loads config registry now taken budgetBlocked with
        oversized := row :: (scanOf H ed25519 loads config registry now taken
          budgetBlocked).oversized } := by
  have hleased : leasedOf H ed25519 loads config registry now row = none := if_pos h
  have hrejected : rejectedOf H ed25519 loads config registry now row = none := if_pos h
  unfold scanOf
  rw [List.filterMap_cons_none hleased, List.filterMap_cons_none hrejected,
    List.filter_cons_of_pos h]

theorem scanOf_rejected {code : String} (h : oversized config row = false)
    (hexamine : examineRow H ed25519 loads config registry now row = .ok (.rejected code)) :
    scanOf H ed25519 loads config registry now (row :: taken) budgetBlocked =
      { scanOf H ed25519 loads config registry now taken budgetBlocked with
        rejected := (row, row.wireJson.bytes, code) ::
          (scanOf H ed25519 loads config registry now taken budgetBlocked).rejected } := by
  have hleased : leasedOf H ed25519 loads config registry now row = none := by
    simp [leasedOf, h, hexamine]
  have hrejected : rejectedOf H ed25519 loads config registry now row =
      some (row, row.wireJson.bytes, code) := by
    simp [rejectedOf, h, hexamine]
  unfold scanOf
  rw [List.filterMap_cons_none hleased, List.filterMap_cons_some hrejected,
    List.filter_cons_of_neg (by simp [h])]

theorem scanOf_leased {record : BlindTransportRecord} (h : oversized config row = false)
    (hexamine : examineRow H ed25519 loads config registry now row = .ok (.accepted record)) :
    scanOf H ed25519 loads config registry now (row :: taken) budgetBlocked =
      { scanOf H ed25519 loads config registry now taken budgetBlocked with
        leased := (row.recordDigest, record) ::
          (scanOf H ed25519 loads config registry now taken budgetBlocked).leased } := by
  have hleased : leasedOf H ed25519 loads config registry now row =
      some (row.recordDigest, record) := by
    simp [leasedOf, h, hexamine]
  have hrejected : rejectedOf H ed25519 loads config registry now row = none := by
    simp [rejectedOf, h, hexamine]
  unfold scanOf
  rw [List.filterMap_cons_some hleased, List.filterMap_cons_none hrejected,
    List.filter_cons_of_neg (by simp [h])]

end ScanOf

/-! ## The exits of the loop -/

/-- Where the loop stopped, after the rows `taken`, with the three counters from where it started:
its counters are within their bounds, and a row is left only for a reason. -/
structure ScanExit (config : RelayConfig) (limit wireBudget leased dead consumed : Nat)
    (rows taken : List StoredRow) (scan : StoredScan) : Prop where
  leased_le : leased + scan.leased.length ≤ limit
  dead_le : dead + scan.setAside.length ≤ maxDeadLettersPerLease
  bytes_le : consumed + bytesRead config taken ≤ wireBudget
  blocked : scan.budgetBlocked = true → ∃ next after, rows = taken ++ next :: after ∧
    oversized config next = false ∧
      wireBudget < consumed + bytesRead config taken + next.wireJson.length
  unblocked : scan.budgetBlocked = false → ∃ after, rows = taken ++ after ∧
    (after = [] ∨ limit ≤ leased + scan.leased.length ∨
      maxDeadLettersPerLease ≤ dead + scan.setAside.length)

/-- Taking one row more, which moved the counters to those of the exit. -/
theorem ScanExit.cons {limit wireBudget leased dead consumed leased' dead' consumed' : Nat}
    {row : StoredRow} {rows taken : List StoredRow} {scan scan' : StoredScan}
    (h : ScanExit config limit wireBudget leased' dead' consumed' rows taken scan)
    (hleased : leased + scan'.leased.length = leased' + scan.leased.length)
    (hdead : dead + scan'.setAside.length = dead' + scan.setAside.length)
    (hconsumed : consumed + (if oversized config row then 0 else row.wireJson.length) = consumed')
    (hblocked : scan'.budgetBlocked = scan.budgetBlocked) :
    ScanExit config limit wireBudget leased dead consumed (row :: rows) (row :: taken) scan' := by
  have hbytes : consumed + bytesRead config (row :: taken) =
      consumed' + bytesRead config taken := by
    unfold bytesRead
    rw [List.map_cons, List.sum_cons, ← Nat.add_assoc, hconsumed]
  constructor
  · rw [hleased]
    exact h.leased_le
  · rw [hdead]
    exact h.dead_le
  · rw [hbytes]
    exact h.bytes_le
  · intro hb
    obtain ⟨next, after, hrows, hsize, hover⟩ := h.blocked (hblocked.symm.trans hb)
    refine ⟨next, after, congrArg (row :: ·) hrows, hsize, ?_⟩
    rw [hbytes]
    exact hover
  · intro hb
    obtain ⟨after, hrows, hwhy⟩ := h.unblocked (hblocked.symm.trans hb)
    refine ⟨after, congrArg (row :: ·) hrows, ?_⟩
    rw [hleased, hdead]
    exact hwhy

/-- The rows taken are the first ones. -/
theorem ScanExit.isPrefix {limit wireBudget leased dead consumed : Nat} {rows taken : List StoredRow}
    {scan : StoredScan}
    (h : ScanExit config limit wireBudget leased dead consumed rows taken scan) : taken <+: rows := by
  cases hb : scan.budgetBlocked with
  | true =>
      obtain ⟨next, after, hrows, -⟩ := h.blocked hb
      exact ⟨next :: after, hrows.symm⟩
  | false =>
      obtain ⟨after, hrows, -⟩ := h.unblocked hb
      exact ⟨after, hrows.symm⟩

section Stop

variable {limit wireBudget leased dead consumed : Nat} {rows : List StoredRow}

/-- An exit with no row taken. -/
theorem ScanExit.stop (hleased : leased ≤ limit) (hdead : dead ≤ maxDeadLettersPerLease)
    (hconsumed : consumed ≤ wireBudget)
    (hwhy : rows = [] ∨ limit ≤ leased ∨ maxDeadLettersPerLease ≤ dead) :
    ScanExit config limit wireBudget leased dead consumed rows [] {} where
  leased_le := hleased
  dead_le := hdead
  bytes_le := hconsumed
  blocked := fun h => nomatch h
  unblocked := fun _ => ⟨rows, rfl, hwhy⟩

/-- The exit at a row that exceeds the wire budget. -/
theorem ScanExit.block {row : StoredRow} (hleased : leased ≤ limit)
    (hdead : dead ≤ maxDeadLettersPerLease) (hconsumed : consumed ≤ wireBudget)
    (hsize : oversized config row = false) (hover : wireBudget < consumed + row.wireJson.length) :
    ScanExit config limit wireBudget leased dead consumed (row :: rows) []
      { budgetBlocked := true } where
  leased_le := hleased
  dead_le := hdead
  bytes_le := hconsumed
  blocked := fun _ => ⟨row, rows, rfl, hsize, hover⟩
  unblocked := fun h => nomatch h

end Stop

/-- The loop raises on a reached row with a long integer; otherwise it takes the reached rows and
stops at one of its exits. -/
theorem scanRows_spec {tables : StoredTables} {limit wireBudget leased dead consumed : Nat}
    {rows : List StoredRow}
    (hqueue : UniqueBy (fun row : StoredRow => row.recordDigest) tables.queue)
    (hrows : ∀ row ∈ rows, row ∈ tables.queue) (hleased : leased ≤ limit)
    (hdead : dead ≤ maxDeadLettersPerLease) (hconsumed : consumed ≤ wireBudget) :
    (scanRows H ed25519 loads config registry now tables limit wireBudget leased dead consumed
        rows = .error digitLimit ∧
      ∃ row ∈ reached H ed25519 loads config registry now limit wireBudget leased dead consumed rows,
        LongColumn loads config row.wireJson) ∨
    ∃ taken budgetBlocked, taken = reached H ed25519 loads config registry now limit wireBudget
        leased dead consumed rows ∧
      scanRows H ed25519 loads config registry now tables limit wireBudget leased dead consumed
        rows = .ok (scanOf H ed25519 loads config registry now taken budgetBlocked) ∧
      (∀ row ∈ taken, ¬LongColumn loads config row.wireJson) ∧
      ScanExit config limit wireBudget leased dead consumed rows taken
        (scanOf H ed25519 loads config registry now taken budgetBlocked) := by
  -- An exit takes no row and leaves the scan empty.
  have hstop : ∀ {rows : List StoredRow} {leased dead consumed : Nat}, leased ≤ limit →
      dead ≤ maxDeadLettersPerLease → consumed ≤ wireBudget →
      (rows = [] ∨ limit ≤ leased ∨ maxDeadLettersPerLease ≤ dead) →
      ∃ taken budgetBlocked, taken = [] ∧
        (.ok {} : Except Exn StoredScan) =
          .ok (scanOf H ed25519 loads config registry now taken budgetBlocked) ∧
        (∀ row ∈ taken, ¬LongColumn loads config row.wireJson) ∧
        ScanExit config limit wireBudget leased dead consumed rows taken
          (scanOf H ed25519 loads config registry now taken budgetBlocked) :=
    fun hleased hdead hconsumed hwhy =>
      ⟨[], false, rfl, rfl, fun _ h => (nomatch h), ScanExit.stop hleased hdead hconsumed hwhy⟩
  induction rows generalizing leased dead consumed with
  | nil => exact .inr (hstop hleased hdead hconsumed (.inl rfl))
  | cons row rest ih =>
      have hrest := fun r hr => hrows r (List.mem_cons_of_mem _ hr)
      unfold scanRows reached
      by_cases hlimit : leased ≥ limit
      · rw [if_pos hlimit, if_pos hlimit]
        exact .inr (hstop hleased hdead hconsumed (.inr (.inl hlimit)))
      rw [if_neg hlimit, if_neg hlimit]
      dsimp only
      by_cases hsize : row.wireJson.length > config.limits.maxRecordWireBytes
      · have hover : oversized config row = true := decide_eq_true hsize
        rw [if_pos hsize, if_pos hsize]
        by_cases hfull : dead ≥ maxDeadLettersPerLease
        · rw [if_pos hfull, if_pos hfull]
          exact .inr (hstop hleased hdead hconsumed (.inr (.inr hfull)))
        rw [if_neg hfull, if_neg hfull]
        rcases ih hrest hleased (Nat.lt_of_not_le hfull) hconsumed with
          ⟨hscan, r, hr, hlong⟩ | ⟨taken, budgetBlocked, htaken, hscan, hshort, hexit⟩
        · rw [hscan]
          exact .inl ⟨rfl, r, List.mem_cons_of_mem _ hr, hlong⟩
        · rw [hscan]
          refine .inr ⟨row :: taken, budgetBlocked, congrArg (row :: ·) htaken, ?_, ?_, ?_⟩
          · rw [scanOf_oversized hover]
            rfl
          · intro r hr
            rcases List.mem_cons.1 hr with rfl | hr
            · exact fun hlong => absurd hlong.length_le (Nat.not_le.2 hsize)
            · exact hshort r hr
          · rw [scanOf_oversized hover]
            refine hexit.cons rfl ?_ ?_ rfl
            · unfold StoredScan.setAside
              simp only [List.map_cons, List.cons_append, List.length_cons]
              omega
            · rw [if_pos hover]
              rfl
      have hfits : oversized config row = false := decide_eq_false hsize
      rw [if_neg hsize, if_neg hsize]
      by_cases hbudget : consumed + row.wireJson.length > wireBudget
      · rw [if_pos hbudget, if_pos hbudget]
        exact .inr ⟨[], true, rfl, rfl, fun _ h => (nomatch h),
          ScanExit.block hleased hdead hconsumed hfits hbudget⟩
      rw [if_neg hbudget, if_neg hbudget]
      have hstored : tables.queueRow row.recordDigest = some row :=
        hqueue.selectBy_eq_some.2 ⟨hrows row List.mem_cons_self, rfl⟩
      rw [hstored]
      dsimp only
      have hverdict : examineStored H ed25519 loads config registry now row.recordDigest
          row.wireJson.length row.wireJson = examineRow H ed25519 loads config registry now row := rfl
      rw [hverdict]
      have hread : consumed + (if oversized config row then 0 else row.wireJson.length) =
          consumed + row.wireJson.length := by
        rw [hfits]
        rfl
      cases hexamine : examineRow H ed25519 loads config registry now row with
      | error e =>
          obtain ⟨rfl, hlong⟩ := examineRow_error hexamine
          exact .inl ⟨rfl, row, List.mem_cons_self, hlong⟩
      | ok verdict =>
          have hrow : ¬LongColumn loads config row.wireJson := by
            intro hlong
            obtain ⟨e, he⟩ := (@examineRow_error_iff H ed25519 _ _ registry now row).2 hlong
            rw [hexamine] at he
            cases he
          cases verdict with
          | rejected code =>
              dsimp only
              by_cases hfull : dead ≥ maxDeadLettersPerLease
              · rw [if_pos hfull, if_pos hfull]
                exact .inr (hstop hleased hdead hconsumed (.inr (.inr hfull)))
              rw [if_neg hfull, if_neg hfull]
              rcases ih hrest hleased (Nat.lt_of_not_le hfull) (Nat.not_lt.1 hbudget) with
                ⟨hscan, r, hr, hlong⟩ | ⟨taken, budgetBlocked, htaken, hscan, hshort, hexit⟩
              · rw [hscan]
                exact .inl ⟨rfl, r, List.mem_cons_of_mem _ hr, hlong⟩
              · rw [hscan]
                refine .inr ⟨row :: taken, budgetBlocked, congrArg (row :: ·) htaken, ?_, ?_, ?_⟩
                · rw [scanOf_rejected hfits hexamine]
                  rfl
                · intro r hr
                  rcases List.mem_cons.1 hr with rfl | hr
                  · exact hrow
                  · exact hshort r hr
                · rw [scanOf_rejected hfits hexamine]
                  refine hexit.cons rfl ?_ hread rfl
                  unfold StoredScan.setAside
                  simp only [List.length_append, List.length_cons]
                  omega
          | accepted record =>
              dsimp only
              rcases ih hrest (Nat.lt_of_not_le hlimit) hdead (Nat.not_lt.1 hbudget) with
                ⟨hscan, r, hr, hlong⟩ | ⟨taken, budgetBlocked, htaken, hscan, hshort, hexit⟩
              · rw [hscan]
                exact .inl ⟨rfl, r, List.mem_cons_of_mem _ hr, hlong⟩
              · rw [hscan]
                refine .inr ⟨row :: taken, budgetBlocked, congrArg (row :: ·) htaken, ?_, ?_, ?_⟩
                · rw [scanOf_leased hfits hexamine]
                  rfl
                · intro r hr
                  rcases List.mem_cons.1 hr with rfl | hr
                  · exact hrow
                  · exact hshort r hr
                · rw [scanOf_leased hfits hexamine]
                  refine hexit.cons ?_ rfl hread rfl
                  simp only [List.length_cons]
                  omega

end Lease

end StoredQueue

end Polymorph
