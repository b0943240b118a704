import Polymorph.Relay.PoisonRows

/-!
# The batch of a lease

A lease that returns has taken the first rows of its destination, in the order of the queue: it
leased those whose wire passes, dead-lettered the others for their first failing stage, and left
every row behind them alone.
-/

set_option autoImplicit false

namespace Polymorph

open JsonText Transaction Table Utc

namespace StoredQueue

open SealedRelayQueue

/-- The rows of the destination that no running lease holds, first come first. -/
def availableRows (destinationConnector now : String) (queue : List StoredRow) : List StoredRow :=
  (queue.filter (available destinationConnector now)).insertionSort precedes

section Stages

variable (H : Host) (ed25519 : List UInt8 → ByteArray → List UInt8 → Bool) (loads : JsonLoads)
  (config : RelayConfig) (registry : Option SourceTrustStore) (now : Instant)

/-- The wire of the row decodes to a record, which the policy admits and which has the digest of the
row. -/
structure Passes (row : StoredRow) (record : BlindTransportRecord) : Prop where
  size : row.wireJson.length ≤ config.limits.maxRecordWireBytes
  decodes : ∃ wire, row.wireJson = .blob wire ∧
    decodeQueuedRecord H loads config wire = .ok record
  validates : config.policy.validate ed25519 registry record now now = .ok ()
  digest : record.digest H = row.recordDigest

/-- The reason code of the first stage that the wire of the row fails. -/
inductive FailsAt (row : StoredRow) : String → Prop where
  | size (h : row.wireJson.length > config.limits.maxRecordWireBytes) :
      FailsAt row "relay_wire_invalid"
  | storage {length : Nat} (hsize : row.wireJson.length ≤ config.limits.maxRecordWireBytes)
      (h : row.wireJson = .other length) : FailsAt row "relay_wire_invalid"
  | decoding {wire : List UInt8} {e : Exn} {code : String}
      (hsize : row.wireJson.length ≤ config.limits.maxRecordWireBytes)
      (hwire : row.wireJson = .blob wire)
      (h : decodeQueuedRecord H loads config wire = .error e) (hcode : failureCode e = some code) :
      FailsAt row code
  | policy {wire : List UInt8} {record : BlindTransportRecord} {e : Exn} {code : String}
      (hsize : row.wireJson.length ≤ config.limits.maxRecordWireBytes)
      (hwire : row.wireJson = .blob wire)
      (hdecode : decodeQueuedRecord H loads config wire = .ok record)
      (h : config.policy.validate ed25519 registry record now now = .error e)
      (hcode : failureCode e = some code) : FailsAt row code
  | digest {wire : List UInt8} {record : BlindTransportRecord}
      (hsize : row.wireJson.length ≤ config.limits.maxRecordWireBytes)
      (hwire : row.wireJson = .blob wire)
      (hdecode : decodeQueuedRecord H loads config wire = .ok record)
      (hvalidate : config.policy.validate ed25519 registry record now now = .ok ())
      (h : record.digest H ≠ row.recordDigest) : FailsAt row "relay_digest_mismatch"

end Stages

section Batch

variable {H : Host} {ed25519 : List UInt8 → ByteArray → List UInt8 → Bool} {loads : JsonLoads}
  {config : RelayConfig} {registry : Option SourceTrustStore} {now : Instant} {row : StoredRow}

/-! ## The verdicts are the stages -/

theorem oversized_eq_false :
    oversized config row = false ↔ row.wireJson.length ≤ config.limits.maxRecordWireBytes := by
  unfold oversized
  rw [decide_eq_false_iff_not, not_lt]

/-- Examining a wire is decoding it, checking the record and comparing the digest. -/
theorem examine_of_decodes {recordDigest : String} {wire : List UInt8}
    {record : BlindTransportRecord} (h : decodeQueuedRecord H loads config wire = .ok record) :
    examine H ed25519 loads config registry now recordDigest wire =
      match config.policy.validate ed25519 registry record now now with
      | .ok () =>
          if record.digest H ≠ recordDigest then .ok (.rejected "relay_digest_mismatch")
          else .ok (.accepted record)
      | .error e =>
          match failureCode e with
          | some code => .ok (.rejected code)
          | none => .error e := by
  unfold examine
  rw [h]
  simp only [bind, Except.bind]
  cases config.policy.validate ed25519 registry record now now with
  | ok u => rfl
  | error e => rfl

theorem examine_of_decodes_error {recordDigest : String} {wire : List UInt8} {e : Exn}
    (h : decodeQueuedRecord H loads config wire = .error e) :
    examine H ed25519 loads config registry now recordDigest wire =
      match failureCode e with
      | some code => .ok (.rejected code)
      | none => .error e := by
  unfold examine
  rw [h]
  rfl

/-- The row is leased exactly when it passes. -/
theorem accepted_iff {record : BlindTransportRecord} :
    (oversized config row = false ∧
        examineRow H ed25519 loads config registry now row = .ok (.accepted record)) ↔
      Passes H ed25519 loads config registry now row record := by
  constructor
  · rintro ⟨hsize, h⟩
    cases hcolumn : row.wireJson with
    | other length =>
        rw [examineRow_other hcolumn] at h
        cases h
    | blob wire =>
        rw [examineRow_blob hcolumn] at h
        cases hdecode : decodeQueuedRecord H loads config wire with
        | error e =>
            rw [examine_of_decodes_error hdecode] at h
            split at h
            · cases h
            · cases h
        | ok decoded =>
            rw [examine_of_decodes hdecode] at h
            cases hvalidate : config.policy.validate ed25519 registry decoded now now with
            | error e =>
                rw [hvalidate] at h
                dsimp only at h
                split at h
                · cases h
                · cases h
            | ok u =>
                rw [hvalidate] at h
                dsimp only at h
                split at h
                · cases h
                · rename_i hdigest
                  cases h
                  exact ⟨oversized_eq_false.1 hsize, ⟨wire, hcolumn, hdecode⟩, hvalidate,
                    not_not.1 hdigest⟩
  · rintro ⟨hsize, ⟨wire, hcolumn, hdecode⟩, hvalidate, hdigest⟩
    refine ⟨oversized_eq_false.2 hsize, ?_⟩
    rw [examineRow_blob hcolumn, examine_of_decodes hdecode, hvalidate]
    exact if_neg (not_not.2 hdigest)

/-- The row is set aside under the code of its first failing stage. -/
theorem failsAt_of_rejected {code : String} (hsize : oversized config row = false)
    (h : examineRow H ed25519 loads config registry now row = .ok (.rejected code)) :
    FailsAt H ed25519 loads config registry now row code := by
  have hfits := oversized_eq_false.1 hsize
  cases hcolumn : row.wireJson with
  | other length =>
      rw [examineRow_other hcolumn] at h
      cases h
      exact .storage hfits hcolumn
  | blob wire =>
      rw [examineRow_blob hcolumn] at h
      cases hdecode : decodeQueuedRecord H loads config wire with
      | error e =>
          rw [examine_of_decodes_error hdecode] at h
          split at h
          · rename_i found hcode
            cases h
            exact .decoding hfits hcolumn hdecode hcode
          · cases h
      | ok record =>
          rw [examine_of_decodes hdecode] at h
          cases hvalidate : config.policy.validate ed25519 registry record now now with
          | error e =>
              rw [hvalidate] at h
              dsimp only at h
              split at h
              · rename_i found hcode
                cases h
                exact .policy hfits hcolumn hdecode hvalidate hcode
              · cases h
          | ok u =>
              rw [hvalidate] at h
              dsimp only at h
              split at h
              · rename_i hdigest
                cases h
                exact .digest hfits hcolumn hdecode hvalidate hdigest
              · cases h

/-- The reverse for a row that is read. -/
theorem rejected_of_failsAt {code : String} (hsize : oversized config row = false)
    (h : FailsAt H ed25519 loads config registry now row code) :
    examineRow H ed25519 loads config registry now row = .ok (.rejected code) := by
  cases h with
  | size h => exact absurd (oversized_eq_false.1 hsize) (Nat.not_le.2 h)
  | storage _ hcolumn => exact examineRow_other hcolumn
  | decoding _ hcolumn hdecode hcode =>
      rw [examineRow_blob hcolumn, examine_of_decodes_error hdecode, hcode]
  | policy _ hcolumn hdecode hvalidate hcode =>
      rw [examineRow_blob hcolumn, examine_of_decodes hdecode, hvalidate]
      dsimp only
      rw [hcode]
  | digest _ hcolumn hdecode hvalidate hdigest =>
      rw [examineRow_blob hcolumn, examine_of_decodes hdecode, hvalidate]
      exact if_pos hdigest

/-! ## What a lease does with the rows it takes -/

/-- What is planned for a row that fails: an oversized wire is not kept. -/
def letterItem (config : RelayConfig) (row : StoredRow) (code : String) :
    StoredRow × List UInt8 × String :=
  (row, if oversized config row then [] else row.wireJson.bytes, code)

/-- A row that passes. -/
def passing (H : Host) (ed25519 : List UInt8 → ByteArray → List UInt8 → Bool) (loads : JsonLoads)
    (config : RelayConfig) (registry : Option SourceTrustStore) (now : Instant)
    (row : StoredRow) : Bool :=
  (leasedOf H ed25519 loads config registry now row).isSome

/-- Without a long integer, a row passes, or it fails at a stage and is set aside. -/
inductive Decision (H : Host) (ed25519 : List UInt8 → ByteArray → List UInt8 → Bool)
    (loads : JsonLoads) (config : RelayConfig) (registry : Option SourceTrustStore) (now : Instant)
    (row : StoredRow) : Prop where
  | passes (record : BlindTransportRecord)
      (h : Passes H ed25519 loads config registry now row record)
      (hleased : leasedOf H ed25519 loads config registry now row =
        some (row.recordDigest, record))
  | fails (code : String) (h : FailsAt H ed25519 loads config registry now row code)
      (hleased : leasedOf H ed25519 loads config registry now row = none)
      (hset : (scanOf H ed25519 loads config registry now [row] false).setAside =
        [letterItem config row code])

theorem decision_of_short (h : ¬LongColumn loads config row.wireJson) :
    Decision H ed25519 loads config registry now row := by
  cases (@fate_of_short H ed25519 _ _ registry now row) h with
  | oversized hsize =>
      refine .fails _ (.size (of_decide_eq_true hsize)) (if_pos hsize) ?_
      rw [scanOf_oversized hsize, letterItem, if_pos hsize]
      rfl
  | rejected hsize code hexamine =>
      refine .fails code (failsAt_of_rejected hsize hexamine) (by simp [leasedOf, hsize, hexamine]) ?_
      rw [scanOf_rejected hsize hexamine, letterItem, if_neg (by simp [hsize])]
      rfl
  | leased hsize record hexamine =>
      exact .passes record (accepted_iff.1 ⟨hsize, hexamine⟩) (by simp [leasedOf, hsize, hexamine])

/-- A row that passes does not fail. -/
theorem Passes.not_failsAt {record : BlindTransportRecord} {code : String}
    (h : Passes H ed25519 loads config registry now row record) :
    ¬FailsAt H ed25519 loads config registry now row code := by
  intro hfails
  obtain ⟨hsize, hexamine⟩ := accepted_iff.2 h
  rw [rejected_of_failsAt hsize hfails] at hexamine
  cases hexamine

section Taken

variable {taken : List StoredRow} {budgetBlocked : Bool}

/-- What is set aside of one row more. -/
theorem mem_setAside_cons {item : StoredRow × List UInt8 × String} :
    item ∈ (scanOf H ed25519 loads config registry now (row :: taken) budgetBlocked).setAside ↔
      item ∈ (scanOf H ed25519 loads config registry now [row] false).setAside ∨
        item ∈ (scanOf H ed25519 loads config registry now taken budgetBlocked).setAside := by
  have hcons : row :: taken = [row] ++ taken := rfl
  unfold StoredScan.setAside scanOf
  dsimp only
  rw [hcons, List.filter_append, List.filterMap_append, List.map_append]
  simp only [List.mem_append]
  tauto

theorem length_setAside_cons :
    (scanOf H ed25519 loads config registry now (row :: taken) budgetBlocked).setAside.length =
      (scanOf H ed25519 loads config registry now [row] false).setAside.length +
        (scanOf H ed25519 loads config registry now taken budgetBlocked).setAside.length := by
  have hcons : row :: taken = [row] ++ taken := rfl
  unfold StoredScan.setAside scanOf
  dsimp only
  rw [hcons, List.filter_append, List.filterMap_append, List.map_append]
  simp only [List.length_append]
  omega

/-- A taken row that fails is set aside under its code. -/
theorem mem_setAside (hmem : row ∈ taken) (hshort : ¬LongColumn loads config row.wireJson)
    (hrow : passing H ed25519 loads config registry now row = false) :
    ∃ code, FailsAt H ed25519 loads config registry now row code ∧
      letterItem config row code ∈
        (scanOf H ed25519 loads config registry now taken budgetBlocked).setAside := by
  cases (@decision_of_short H ed25519 _ _ registry now row) hshort with
  | passes record h hleased =>
      unfold passing at hrow
      rw [hleased] at hrow
      cases hrow
  | fails code h hleased hset =>
      refine ⟨code, h, ?_⟩
      induction taken with
      | nil => cases hmem
      | cons first rest ih =>
          rw [mem_setAside_cons]
          rcases List.mem_cons.1 hmem with rfl | hmem
          · left
            rw [hset]
            exact List.mem_singleton_self _
          · exact .inr (ih hmem)

/-- Whatever is set aside is a taken row that fails. -/
theorem of_mem_setAside (hshort : ∀ r ∈ taken, ¬LongColumn loads config r.wireJson)
    {item : StoredRow × List UInt8 × String}
    (hitem : item ∈ (scanOf H ed25519 loads config registry now taken budgetBlocked).setAside) :
    item.1 ∈ taken ∧ passing H ed25519 loads config registry now item.1 = false := by
  induction taken with
  | nil => cases hitem
  | cons first rest ih =>
      rcases mem_setAside_cons.1 hitem with hfirst | hrest
      · cases (@decision_of_short H ed25519 _ _ registry now first)
          (hshort first List.mem_cons_self) with
        | passes record h hleased =>
            obtain ⟨hsize, hexamine⟩ := accepted_iff.2 h
            rw [scanOf_leased hsize hexamine] at hfirst
            cases hfirst
        | fails code h hleased hset =>
            rw [hset] at hfirst
            obtain rfl := List.mem_singleton.1 hfirst
            refine ⟨List.mem_cons_self, ?_⟩
            exact congrArg Option.isSome hleased
      · obtain ⟨hmem, hpassing⟩ := ih (fun r hr => hshort r (List.mem_cons_of_mem _ hr)) hrest
        exact ⟨List.mem_cons_of_mem _ hmem, hpassing⟩

/-- Every taken row is leased or set aside. -/
theorem length_taken (hshort : ∀ r ∈ taken, ¬LongColumn loads config r.wireJson) :
    taken.length = (taken.filter (passing H ed25519 loads config registry now)).length +
      (scanOf H ed25519 loads config registry now taken budgetBlocked).setAside.length := by
  induction taken with
  | nil => rfl
  | cons first rest ih =>
      have hrest := ih fun r hr => hshort r (List.mem_cons_of_mem _ hr)
      rw [length_setAside_cons, List.length_cons, hrest]
      cases (@decision_of_short H ed25519 _ _ registry now first)
        (hshort first List.mem_cons_self) with
      | passes record h hleased =>
          have hpassing : passing H ed25519 loads config registry now first = true :=
            congrArg Option.isSome hleased
          obtain ⟨hsize, hexamine⟩ := accepted_iff.2 h
          have hnone : (scanOf H ed25519 loads config registry now [first] false).setAside = [] := by
            rw [scanOf_leased hsize hexamine]
            rfl
          rw [List.filter_cons_of_pos hpassing, hnone, List.length_cons, List.length_nil]
          omega
      | fails code h hleased hset =>
          have hpassing : ¬passing H ed25519 loads config registry now first = true := by
            unfold passing
            rw [hleased]
            exact Bool.false_ne_true
          rw [List.filter_cons_of_neg hpassing, hset, List.length_singleton]
          omega

/-- The wires that pass are among those that are read. -/
theorem sum_passing_le :
    ((taken.filter (passing H ed25519 loads config registry now)).map
      fun row => row.wireJson.length).sum ≤ bytesRead config taken := by
  unfold bytesRead
  induction taken with
  | nil => exact le_rfl
  | cons first rest ih =>
      rw [List.map_cons, List.sum_cons]
      by_cases hpassing : passing H ed25519 loads config registry now first = true
      · have hsize : oversized config first = false := by
          by_contra hsize
          unfold passing leasedOf at hpassing
          rw [if_pos (Bool.eq_true_of_not_eq_false hsize)] at hpassing
          cases hpassing
        rw [List.filter_cons_of_pos hpassing, List.map_cons, List.sum_cons, hsize]
        exact Nat.add_le_add le_rfl ih
      · rw [List.filter_cons_of_neg hpassing]
        exact ih.trans (Nat.le_add_left _ _)

/-- The records are returned in the order of their rows, each under the update of its row. -/
theorem forall₂_leased (leaseOwner expires : String) (token : Nat → String) (index : Nat) :
    List.Forall₂ (fun row l => row ∈ taken ∧ leasedOf H ed25519 loads config registry now row =
          some (row.recordDigest, l.record) ∧ l.leaseOwner = leaseOwner ∧
        (row.recordDigest, (⟨l.leaseOwner, l.leaseId, l.leaseExpiresAt⟩ : RelayLease)) ∈
          leaseUpdates leaseOwner expires token index
            (taken.filterMap (leasedOf H ed25519 loads config registry now)))
      (taken.filter (passing H ed25519 loads config registry now))
      (leasedRecords leaseOwner expires token index
        (taken.filterMap (leasedOf H ed25519 loads config registry now))) := by
  induction taken generalizing index with
  | nil => exact .nil
  | cons first rest ih =>
      cases hleased : leasedOf H ed25519 loads config registry now first with
      | none =>
          have hpassing : ¬passing H ed25519 loads config registry now first = true := by
            unfold passing
            rw [hleased]
            exact Bool.false_ne_true
          rw [List.filter_cons_of_neg hpassing, List.filterMap_cons_none hleased]
          refine (ih index).imp ?_
          rintro row l ⟨hmem, hrow⟩
          exact ⟨List.mem_cons_of_mem _ hmem, hrow⟩
      | some item =>
          have hpassing : passing H ed25519 loads config registry now first = true :=
            congrArg Option.isSome hleased
          have hdigest : item.1 = first.recordDigest := by
            unfold leasedOf at hleased
            split at hleased
            · cases hleased
            · split at hleased
              · cases hleased
                rfl
              · cases hleased
          rw [List.filter_cons_of_pos hpassing, List.filterMap_cons_some hleased]
          obtain ⟨recordDigest, record⟩ := item
          obtain rfl : recordDigest = first.recordDigest := hdigest
          refine .cons ⟨List.mem_cons_self, hleased, rfl, List.mem_cons_self⟩ ?_
          refine (ih (index + 1)).imp ?_
          rintro row l ⟨hmem, hrow, howner, hupdate⟩
          exact ⟨List.mem_cons_of_mem _ hmem, hrow, howner, List.mem_cons_of_mem _ hupdate⟩

end Taken

/-! ## The call -/

/-- The exception about the wire limit. -/
def wireLimitExceeded : Exn := .valueError "next relay record exceeds the lease wire limit"

/-- `max_wire_bytes`, or the bound of the relay where none is given. -/
def wireBudgetOf (config : RelayConfig) (maxWireBytes : Option Int) : Int :=
  maxWireBytes.getD config.maxBatchWireBytes

/-- The arguments pass the checks of the call. -/
structure ValidCall (config : RelayConfig) (leaseOwner : String) (limit leaseFor : Int)
    (maxWireBytes : Option Int) (now : Instant) : Prop where
  owner : leaseOwner ≠ "" ∧ leaseOwner.length ≤ 128
  limit : 1 ≤ limit ∧ limit ≤ 10000
  duration : 0 < leaseFor ∧ leaseFor ≤ maxLeaseDuration
  budget : 1 ≤ wireBudgetOf config maxWireBytes ∧
    wireBudgetOf config maxWireBytes ≤ config.maxBatchWireBytes
  expires : (now.add leaseFor).isSome = true

section Call

variable {destinationConnector leaseOwner : String} {limit leaseFor : Int}
  {maxWireBytes : Option Int} {token : Nat → String} {tables : StoredTables}

theorem lease_of_invalid (h : ¬ValidCall config leaseOwner limit leaseFor maxWireBytes now) :
    ∃ e, lease H ed25519 loads config registry destinationConnector leaseOwner limit leaseFor
        maxWireBytes now token tables = .error e tables ∧ e ≠ wireLimitExceeded := by
  unfold lease
  by_cases howner : leaseOwner = "" ∨ leaseOwner.length > 128
  · rw [if_pos howner]
    exact ⟨_, rfl, by simp [wireLimitExceeded]⟩
  rw [if_neg howner]
  by_cases hlimit : 1 ≤ limit ∧ limit ≤ 10000
  swap
  · rw [if_pos hlimit]
    exact ⟨_, rfl, by simp [wireLimitExceeded]⟩
  rw [if_neg (not_not.2 hlimit)]
  by_cases hduration : leaseFor ≤ 0 ∨ leaseFor > maxLeaseDuration
  · rw [if_pos hduration]
    exact ⟨_, rfl, by simp [wireLimitExceeded]⟩
  rw [if_neg hduration]
  dsimp only
  by_cases hbudget : 1 ≤ maxWireBytes.getD (config.maxBatchWireBytes : Int) ∧
      maxWireBytes.getD (config.maxBatchWireBytes : Int) ≤ config.maxBatchWireBytes
  swap
  · rw [if_pos hbudget]
    exact ⟨_, rfl, by simp [wireLimitExceeded]⟩
  rw [if_neg (not_not.2 hbudget)]
  cases hadd : now.add leaseFor with
  | none => exact ⟨_, rfl, by simp [wireLimitExceeded]⟩
  | some expires =>
      rw [not_or] at howner hduration
      refine absurd ⟨⟨howner.1, not_lt.1 howner.2⟩, hlimit, ⟨?_, ?_⟩, hbudget, ?_⟩ h
      · exact not_le.1 hduration.1
      · exact not_lt.1 hduration.2
      · rw [hadd]
        rfl

/-- Within the checks, the call is its transaction and the last check on the wire limit. -/
theorem lease_of_valid (h : ValidCall config leaseOwner limit leaseFor maxWireBytes now) :
    ∃ expires, lease H ed25519 loads config registry destinationConnector leaseOwner limit leaseFor
        maxWireBytes now token tables =
      match leaseTransaction H ed25519 loads config registry destinationConnector leaseOwner
          limit.toNat (wireBudgetOf config maxWireBytes).toNat now expires token tables with
      | .ok (leased, budgetBlocked) tables' =>
          if budgetBlocked = true ∧ leased.isEmpty = true then .error wireLimitExceeded tables'
          else .ok leased tables'
      | .error e tables' => .error e tables' := by
  obtain ⟨expires, hadd⟩ := Option.isSome_iff_exists.1 h.expires
  have howner : ¬(leaseOwner = "" ∨ leaseOwner.length > 128) :=
    not_or.2 ⟨h.owner.1, not_lt.2 h.owner.2⟩
  have hduration : ¬(leaseFor ≤ 0 ∨ leaseFor > maxLeaseDuration) :=
    not_or.2 ⟨not_le.2 h.duration.1, not_lt.2 h.duration.2⟩
  have hbudget : 1 ≤ maxWireBytes.getD (config.maxBatchWireBytes : Int) ∧
      maxWireBytes.getD (config.maxBatchWireBytes : Int) ≤ config.maxBatchWireBytes := h.budget
  refine ⟨expires, ?_⟩
  unfold lease
  rw [if_neg howner, if_neg (not_not.2 h.limit), if_neg hduration]
  dsimp only
  rw [if_neg (not_not.2 hbudget), hadd]
  dsimp only
  have hname : maxWireBytes.getD (config.maxBatchWireBytes : Int) =
      wireBudgetOf config maxWireBytes := rfl
  rw [bind_apply, hname]
  cases leaseTransaction H ed25519 loads config registry destinationConnector leaseOwner
      limit.toNat (wireBudgetOf config maxWireBytes).toNat now expires token tables with
  | error e tables' => rfl
  | ok result tables' =>
      obtain ⟨leased, budgetBlocked⟩ := result
      dsimp only
      split
      · rfl
      · rfl

/-- A transaction that committed: the rows it took, and how its loop ended. -/
structure Committed (H : Host) (ed25519 : List UInt8 → ByteArray → List UInt8 → Bool)
    (loads : JsonLoads) (config : RelayConfig) (registry : Option SourceTrustStore) (now : Instant)
    (destinationConnector : String) (limit wireBudget : Nat) (tables : StoredTables)
    (taken : List StoredRow) (scan : StoredScan) : Prop where
  exit : ScanExit config limit wireBudget 0 0 0
    (scanned destinationConnector now.isoformat limit tables.queue) taken scan
  short : ∀ row ∈ taken, ¬LongColumn loads config row.wireJson
  queued : ∀ row ∈ taken, row ∈ tables.queue
  digests : scan.digests.Nodup
  within : ∀ recordDigest ∈ scan.digests, ∃ row ∈ taken, row.recordDigest = recordDigest
  compatible : ∀ item ∈ scan.setAside, Compatible now tables item
  scan_eq : scan = scanOf H ed25519 loads config registry now taken scan.budgetBlocked

/-- A scan that succeeds, with no letter in the way, commits. -/
theorem committed_of_scan {limit wireBudget : Nat} {expires : Instant} {taken : List StoredRow}
    {budgetBlocked : Bool}
    (hqueue : UniqueBy (fun row : StoredRow => row.recordDigest) tables.queue)
    (hscan : scanRows H ed25519 loads config registry now tables limit wireBudget 0 0 0
      (scanned destinationConnector now.isoformat limit tables.queue) =
        .ok (scanOf H ed25519 loads config registry now taken budgetBlocked))
    (hshort : ∀ row ∈ taken, ¬LongColumn loads config row.wireJson)
    (hexit : ScanExit config limit wireBudget 0 0 0
      (scanned destinationConnector now.isoformat limit tables.queue) taken
      (scanOf H ed25519 loads config registry now taken budgetBlocked))
    (hcompatible : ∀ item ∈ (scanOf H ed25519 loads config registry now taken
      budgetBlocked).setAside, Compatible now tables item) :
    Committed H ed25519 loads config registry now destinationConnector limit wireBudget tables taken
        (scanOf H ed25519 loads config registry now taken budgetBlocked) ∧
      leaseTransaction H ed25519 loads config registry destinationConnector leaseOwner limit
          wireBudget now expires token tables =
        .ok (leasedRecords leaseOwner expires.isoformat token 0
            (scanOf H ed25519 loads config registry now taken budgetBlocked).leased, budgetBlocked)
          (afterLease now tables (scanOf H ed25519 loads config registry now taken budgetBlocked)
            (leaseUpdates leaseOwner expires.isoformat token 0
              (scanOf H ed25519 loads config registry now taken budgetBlocked).leased)) := by
  obtain ⟨hrows, hdigests⟩ := scanned_mem hqueue destinationConnector now.isoformat limit
  have hok := (@scanOk_scanOf H ed25519 _ _ registry now _ budgetBlocked) hshort
  have hsub := hexit.isPrefix.sublist
  have hmem : ∀ row ∈ taken, row ∈ tables.queue := fun row hrow => hrows row (hsub.subset hrow)
  have hdistinct := hok.nodup (hdigests.sublist (hsub.map _))
  refine ⟨⟨hexit, hshort, hmem, hdistinct, ?_, hcompatible, rfl⟩,
    leaseTransaction_eq hqueue hscan hok hmem hdistinct hcompatible⟩
  intro recordDigest hdigest
  obtain ⟨row, hrow, hsame⟩ := List.mem_map.1 (hok.digests.subset hdigest)
  exact ⟨row, hrow, hsame⟩

/-- The transaction raises without a trace, for another reason than the wire limit, or commits. -/
theorem leaseTransaction_cases {limit wireBudget : Nat} {expires : Instant}
    (hqueue : UniqueBy (fun row : StoredRow => row.recordDigest) tables.queue) :
    (∃ e, leaseTransaction H ed25519 loads config registry destinationConnector leaseOwner limit
        wireBudget now expires token tables = .error e tables ∧ e ≠ wireLimitExceeded) ∨
    ∃ taken scan, Committed H ed25519 loads config registry now destinationConnector limit
        wireBudget tables taken scan ∧
      leaseTransaction H ed25519 loads config registry destinationConnector leaseOwner limit
          wireBudget now expires token tables =
        .ok (leasedRecords leaseOwner expires.isoformat token 0 scan.leased, scan.budgetBlocked)
          (afterLease now tables scan
            (leaseUpdates leaseOwner expires.isoformat token 0 scan.leased)) := by
  obtain ⟨hrows, hdigests⟩ := scanned_mem hqueue destinationConnector now.isoformat limit
  rcases (@scanRows_spec H ed25519 loads config registry now _ limit wireBudget 0 0 0) hqueue hrows
      (Nat.zero_le _) (Nat.zero_le _) (Nat.zero_le _) with
    ⟨hscan, -⟩ | ⟨taken, budgetBlocked, -, hscan, hshort, hexit⟩
  · refine .inl ⟨digitLimit, ?_, by simp [digitLimit, wireLimitExceeded]⟩
    unfold leaseTransaction transaction
    rw [bind_apply, get_apply]
    dsimp only
    rw [hscan]
    rfl
  · by_cases hcompatible : ∀ item ∈ (scanOf H ed25519 loads config registry now taken
        budgetBlocked).setAside, Compatible now tables item
    · exact .inr ⟨taken, _, committed_of_scan hqueue hscan hshort hexit hcompatible⟩
    · have hok := (@scanOk_scanOf H ed25519 _ _ registry now _ budgetBlocked) hshort
      have hdistinct := hok.nodup (hdigests.sublist (hexit.isPrefix.sublist.map _))
      push Not at hcompatible
      obtain ⟨message, herror⟩ := (@leaseTransaction_conflict H ed25519 loads config registry now
        tables destinationConnector leaseOwner limit wireBudget expires token) hscan hdistinct
          hcompatible
      exact .inl ⟨_, herror, by simp [wireLimitExceeded]⟩

/-! ## The rows afterwards -/

section After

variable {limit wireBudget : Nat} {taken : List StoredRow} {scan : StoredScan} {expires : String}

/-- A row with the lease of its update is the row but for the lease. -/
theorem fenced_eq {updates : List (String × RelayLease)} {lease : RelayLease}
    (h : (fenced updates row).lease = some lease) :
    fenced updates row = { row with lease := some lease } := by
  obtain ⟨hmetadata, hwire⟩ := fenced_kept updates row
  cases hfenced : fenced updates row with
  | mk metadata wireJson found =>
      rw [hfenced] at h hmetadata hwire
      cases hmetadata
      cases hwire
      cases h
      rfl

/-- A row with a leased digest is not set aside. -/
theorem Committed.kept (h : Committed H ed25519 loads config registry now destinationConnector limit
    wireBudget tables taken scan) {row : StoredRow}
    (hrow : row.recordDigest ∈ scan.leased.map Prod.fst) :
    row.recordDigest ∉ scan.setAside.map fun item => item.1.recordDigest := by
  obtain ⟨-, -, hdisjoint⟩ := List.nodup_append.1 h.digests
  exact fun hside => hdisjoint _ hside _ hrow rfl

/-- The row of an update is fenced with it. -/
theorem Committed.leased (h : Committed H ed25519 loads config registry now destinationConnector
    limit wireBudget tables taken scan) {row : StoredRow} (hrow : row ∈ tables.queue)
    {lease : RelayLease}
    (hupdate : (row.recordDigest, lease) ∈ leaseUpdates leaseOwner expires token 0 scan.leased) :
    { row with lease := some lease } ∈ (afterLease now tables scan
      (leaseUpdates leaseOwner expires token 0 scan.leased)).queue := by
  obtain ⟨-, hleased, -⟩ := List.nodup_append.1 h.digests
  have hdigest : row.recordDigest ∈ scan.leased.map Prod.fst := by
    rw [← (@leaseUpdates_digests leaseOwner expires token) 0]
    exact List.mem_map_of_mem (f := Prod.fst) hupdate
  have hfenced : (fenced (leaseUpdates leaseOwner expires token 0 scan.leased) row).lease =
      some lease := by
    refine fenced_of_mem ?_ hupdate
    rw [leaseUpdates_digests]
    exact hleased
  rw [← fenced_eq hfenced]
  exact List.mem_map_of_mem (List.mem_filter.2 ⟨hrow, decide_eq_true (h.kept hdigest)⟩)

/-- A row that was not taken is as it was. -/
theorem Committed.untouched (h : Committed H ed25519 loads config registry now destinationConnector
    limit wireBudget tables taken scan)
    (hqueue : UniqueBy (fun row : StoredRow => row.recordDigest) tables.queue)
    {row : StoredRow} (hrow : row ∈ tables.queue) (htaken : row ∉ taken) :
    row ∈ (afterLease now tables scan
      (leaseUpdates leaseOwner expires token 0 scan.leased)).queue := by
  have hother : row.recordDigest ∉ scan.digests := by
    intro hdigest
    obtain ⟨other, hother, hsame⟩ := h.within _ hdigest
    exact htaken (hqueue.eq_of_mem (h.queued other hother) hrow hsame ▸ hother)
  have hside : row.recordDigest ∉ scan.setAside.map fun item => item.1.recordDigest :=
    fun hside => hother (List.mem_append_left _ hside)
  have hupdates : row.recordDigest ∉
      (leaseUpdates leaseOwner expires token 0 scan.leased).map Prod.fst := by
    rw [leaseUpdates_digests]
    exact fun hupdate => hother (List.mem_append_right _ hupdate)
  have hsame : fenced (leaseUpdates leaseOwner expires token 0 scan.leased) row = row :=
    fenced_of_notMem hupdates
  rw [← hsame]
  exact List.mem_map_of_mem (List.mem_filter.2 ⟨hrow, decide_eq_true hside⟩)

/-- A row that was set aside has moved. -/
theorem Committed.moved (h : Committed H ed25519 loads config registry now destinationConnector
    limit wireBudget tables taken scan) {item : StoredRow × List UInt8 × String}
    (hitem : item ∈ scan.setAside) (updates : List (String × RelayLease)) :
    (∃ letter ∈ (afterLease now tables scan updates).deadLetters,
        letter.toRelayMetadata = item.1.toRelayMetadata ∧ letter.reasonCode = item.2.2) ∧
      ∀ other ∈ (afterLease now tables scan updates).queue,
        other.recordDigest ≠ item.1.recordDigest := by
  obtain ⟨hset, -, -⟩ := List.nodup_append.1 h.digests
  have hcompatible := h.compatible item hitem
  obtain ⟨hletter, hgone⟩ := (@deadLetterRow_afterLease now tables scan updates) hset hitem
    hcompatible
  obtain ⟨hmetadata, hreason⟩ := letterKept_spec hcompatible
  refine ⟨⟨_, (mem_of_selectBy hletter).1, hmetadata, hreason⟩, ?_⟩
  have hnone := selectBy_eq_none.1 hgone
  intro other hother hsame
  exact hnone other hother (hsame.trans (congrArg RelayMetadata.recordDigest hmetadata).symm)

end After

end Call

end Batch

/-! ## The first rows, in order -/

/-- The call took the rows `taken`, of which those of `passed` passed. -/
structure TakesFirst (H : Host) (ed25519 : List UInt8 → ByteArray → List UInt8 → Bool)
    (loads : JsonLoads) (config : RelayConfig) (registry : Option SourceTrustStore)
    (now : Instant) (destinationConnector leaseOwner : String) (limit wireBudget : Int)
    (tables tables' : StoredTables) (leased : List LeasedRecord)
    (taken passed : List StoredRow) : Prop where
  fifo : taken <+: availableRows destinationConnector now.isoformat tables.queue
  progress : availableRows destinationConnector now.isoformat tables.queue ≠ [] → taken ≠ []
  sublist : passed.Sublist taken
  passes : ∀ row ∈ taken, row ∈ passed ↔
    ∃ record, Passes H ed25519 loads config registry now row record
  /-- the records are returned in the order of their rows, which carry their leases -/
  returned : List.Forall₂ (fun row l => Passes H ed25519 loads config registry now row l.record ∧
    l.leaseOwner = leaseOwner ∧
      { row with lease := some ⟨l.leaseOwner, l.leaseId, l.leaseExpiresAt⟩ } ∈ tables'.queue)
    passed leased
  deadLettered : ∀ row ∈ taken, row ∉ passed → ∃ code,
    FailsAt H ed25519 loads config registry now row code ∧
      (∃ letter ∈ tables'.deadLetters, letter.toRelayMetadata = row.toRelayMetadata ∧
        letter.reasonCode = code) ∧
      ∀ other ∈ tables'.queue, other.recordDigest ≠ row.recordDigest
  unchanged : ∀ row ∈ tables.queue, row ∉ taken → row ∈ tables'.queue
  nothingNew : ∀ row' ∈ tables'.queue, ∃ row ∈ tables.queue, row'.recordDigest = row.recordDigest
  unique : UniqueBy (fun row : StoredRow => row.recordDigest) tables'.queue
  limit_le : (leased.length : Int) ≤ limit
  budget_le : (((passed.map fun row => row.wireJson.length).sum : Nat) : Int) ≤ wireBudget
  deadLetters_le : taken.length ≤ passed.length + maxDeadLettersPerLease
  letters : ∃ moved, tables'.deadLetters = tables.deadLetters ++ moved ∧
    moved.length ≤ maxDeadLettersPerLease ∧
    ∀ letter ∈ moved, ∃ row ∈ taken, row ∉ passed ∧ letter.toRelayMetadata = row.toRelayMetadata

section First

variable {H : Host} {ed25519 : List UInt8 → ByteArray → List UInt8 → Bool} {loads : JsonLoads}
  {config : RelayConfig} {registry : Option SourceTrustStore} {now : Instant}
  {destinationConnector leaseOwner expires : String} {limit wireBudget : Nat}
  {token : Nat → String} {tables : StoredTables} {taken : List StoredRow} {scan : StoredScan}

/-- A loop with room for a first row takes it, unless the row exceeds the wire budget. -/
theorem Committed.progress (h : Committed H ed25519 loads config registry now destinationConnector
    limit wireBudget tables taken scan) (hlimit : 0 < limit)
    (hrows : availableRows destinationConnector now.isoformat tables.queue ≠ [])
    (hgoes : ¬(scan.budgetBlocked = true ∧ scan.leased = [])) : taken ≠ [] := by
  rintro rfl
  have hscan := h.scan_eq
  have hempty : scan.leased = [] ∧ scan.setAside = [] := by
    rw [hscan]
    exact ⟨rfl, rfl⟩
  cases hb : scan.budgetBlocked with
  | true => exact hgoes ⟨hb, hempty.1⟩
  | false =>
      obtain ⟨after, hsplit, hwhy⟩ := h.exit.unblocked hb
      rw [hempty.1, hempty.2] at hwhy
      rcases hwhy with hafter | hfull | hfull
      · rw [hafter] at hsplit
        -- The scanned rows are a first part, of positive length, of the available ones.
        have hnone : (availableRows destinationConnector now.isoformat tables.queue).take
            (limit + maxDeadLettersPerLease) = [] := hsplit
        rw [List.take_eq_nil_iff] at hnone
        rcases hnone with hzero | hnone
        · omega
        · exact hrows hnone
      · exact absurd hfull (by rw [List.length_nil]; omega)
      · exact absurd hfull (by decide)

theorem Committed.takesFirst (h : Committed H ed25519 loads config registry now destinationConnector
    limit wireBudget tables taken scan)
    (hqueue : UniqueBy (fun row : StoredRow => row.recordDigest) tables.queue)
    (hlimit : 0 < limit) (hgoes : ¬(scan.budgetBlocked = true ∧ scan.leased = [])) :
    TakesFirst H ed25519 loads config registry now destinationConnector leaseOwner limit wireBudget
      tables (afterLease now tables scan (leaseUpdates leaseOwner expires token 0 scan.leased))
      (leasedRecords leaseOwner expires token 0 scan.leased) taken
      (taken.filter (passing H ed25519 loads config registry now)) := by
  have hleased : scan.leased = taken.filterMap (leasedOf H ed25519 loads config registry now) := by
    rw [h.scan_eq]
    rfl
  have hset : scan.setAside = (scanOf H ed25519 loads config registry now taken
      scan.budgetBlocked).setAside := congrArg StoredScan.setAside h.scan_eq
  have hlength : taken.length =
      (taken.filter (passing H ed25519 loads config registry now)).length +
        scan.setAside.length := by
    rw [hset]
    exact length_taken h.short
  have hdead := h.exit.dead_le
  have hreturned := (@forall₂_leased H ed25519 loads config registry now taken) leaseOwner expires
    token 0
  rw [← hleased] at hreturned
  refine {
    fifo := h.exit.isPrefix.trans (List.take_prefix _ _)
    progress := fun hrows => h.progress hlimit hrows hgoes
    sublist := List.filter_sublist
    passes := ?_
    returned := ?_
    deadLettered := ?_
    unchanged := fun row hrow htaken => h.untouched hqueue hrow htaken
    nothingNew := ?_
    unique := ?_
    limit_le := ?_
    budget_le := ?_
    deadLetters_le := by omega
    letters := ?_ }
  · intro row hrow
    rw [List.mem_filter]
    cases (@decision_of_short H ed25519 _ _ registry now row) (h.short row hrow) with
    | passes record hpasses hrowLeased =>
        have hpassing : passing H ed25519 loads config registry now row = true :=
          congrArg Option.isSome hrowLeased
        exact ⟨fun _ => ⟨record, hpasses⟩, fun _ => ⟨hrow, hpassing⟩⟩
    | fails code hfails hrowLeased _ =>
        constructor
        · rintro ⟨-, hpassing⟩
          unfold passing at hpassing
          rw [hrowLeased] at hpassing
          cases hpassing
        · rintro ⟨record, hpasses⟩
          exact absurd hfails hpasses.not_failsAt
  · refine hreturned.imp ?_
    rintro row l ⟨hmem, hrowLeased, howner, hupdate⟩
    refine ⟨?_, howner, h.leased (h.queued row hmem) hupdate⟩
    cases (@decision_of_short H ed25519 _ _ registry now row) (h.short row hmem) with
    | passes record hpasses hrecord =>
        rw [hrowLeased] at hrecord
        cases hrecord
        exact hpasses
    | fails code _ hnone _ =>
        rw [hrowLeased] at hnone
        cases hnone
  · intro row hrow hfailed
    have hpassing : passing H ed25519 loads config registry now row = false := by
      by_contra hpassing
      exact hfailed (List.mem_filter.2 ⟨hrow, Bool.eq_true_of_not_eq_false hpassing⟩)
    obtain ⟨code, hfails, hitem⟩ := (@mem_setAside H ed25519 loads config registry now row taken
      scan.budgetBlocked) hrow (h.short row hrow) hpassing
    rw [← hset] at hitem
    exact ⟨code, hfails, h.moved hitem _⟩
  · intro row' hrow'
    obtain ⟨row, hrow, rfl⟩ := List.mem_map.1 hrow'
    exact ⟨row, List.mem_of_mem_filter hrow,
      congrArg RelayMetadata.recordDigest (fenced_kept _ row).1⟩
  · unfold UniqueBy afterLease
    rw [List.map_map]
    have hsame : (fun row : StoredRow => row.recordDigest) ∘
        fenced (leaseUpdates leaseOwner expires token 0 scan.leased) =
        fun row => row.recordDigest :=
      funext fun row => congrArg RelayMetadata.recordDigest (fenced_kept _ row).1
    rw [hsame]
    exact hqueue.sublist List.filter_sublist
  · have hcount := hreturned.length_eq
    have hbound := h.exit.leased_le
    rw [hleased] at hbound hcount
    rw [hleased, ← hcount]
    have hitems : (taken.filterMap (leasedOf H ed25519 loads config registry now)).length =
        (taken.filter (passing H ed25519 loads config registry now)).length := by
      rw [List.length_filterMap_eq_countP, List.countP_eq_length_filter]
      rfl
    omega
  · have hbytes := h.exit.bytes_le
    have hsum := (@sum_passing_le H ed25519 loads config registry now taken)
    omega
  · refine ⟨(scan.setAside.filter (isFresh tables)).map (letterOf now), rfl, ?_, ?_⟩
    · rw [List.length_map]
      have hfresh := List.length_filter_le (isFresh tables) scan.setAside
      omega
    · intro letter hletter
      obtain ⟨item, hitem, rfl⟩ := List.mem_map.1 hletter
      have hmem := List.mem_of_mem_filter hitem
      rw [hset] at hmem
      obtain ⟨htaken, hpassing⟩ := of_mem_setAside h.short hmem
      refine ⟨item.1, htaken, ?_, rfl⟩
      intro hpassed
      rw [(List.mem_filter.1 hpassed).2] at hpassing
      cases hpassing

end First

/-- **A lease takes the first rows of its destination**: it leases those that pass, in order,
dead-letters the others for their first failing stage, and leaves all other rows alone. -/
theorem lease_takesFirst (H : Host) (ed25519 : List UInt8 → ByteArray → List UInt8 → Bool)
    (loads : JsonLoads) (config : RelayConfig) (registry : Option SourceTrustStore) (now : Instant)
    (destinationConnector leaseOwner : String) (limit leaseFor : Int) (maxWireBytes : Option Int)
    (token : Nat → String) (tables tables' : StoredTables) (leased : List LeasedRecord)
    (hqueue : UniqueBy (fun row : StoredRow => row.recordDigest) tables.queue)
    (hlease : lease H ed25519 loads config registry destinationConnector leaseOwner limit leaseFor
      maxWireBytes now token tables = .ok leased tables') :
    ∃ taken passed, TakesFirst H ed25519 loads config registry now destinationConnector leaseOwner
      limit (wireBudgetOf config maxWireBytes) tables tables' leased taken passed := by
  by_cases hvalid : ValidCall config leaseOwner limit leaseFor maxWireBytes now
  swap
  · obtain ⟨e, herror, -⟩ := (@lease_of_invalid H ed25519 loads config registry now
      destinationConnector leaseOwner limit leaseFor maxWireBytes token tables) hvalid
    rw [herror] at hlease
    cases hlease
  obtain ⟨expires, hcall⟩ := (@lease_of_valid H ed25519 loads config registry now
    destinationConnector leaseOwner limit leaseFor maxWireBytes token tables) hvalid
  rw [hcall] at hlease
  rcases (@leaseTransaction_cases H ed25519 loads config registry now destinationConnector
      leaseOwner token tables limit.toNat (wireBudgetOf config maxWireBytes).toNat expires)
      hqueue with ⟨e, herror, -⟩ | ⟨taken, scan, hcommitted, hrun⟩
  · rw [herror] at hlease
    cases hlease
  · rw [hrun] at hlease
    dsimp only at hlease
    split at hlease
    · cases hlease
    · rename_i hgoes
      cases hlease
      have hlimit : (limit.toNat : Int) = limit := Int.toNat_of_nonneg (by have := hvalid.limit; omega)
      have hbudget : ((wireBudgetOf config maxWireBytes).toNat : Int) =
          wireBudgetOf config maxWireBytes :=
        Int.toNat_of_nonneg (by have := hvalid.budget; omega)
      refine ⟨taken, taken.filter (passing H ed25519 loads config registry now), ?_⟩
      rw [← hlimit, ← hbudget]
      refine hcommitted.takesFirst hqueue (by have := hvalid.limit; omega) ?_
      rintro ⟨hblocked, hnone⟩
      apply hgoes
      rw [hnone]
      exact ⟨hblocked, rfl⟩

/-- A lease of one row whose wire is no JSON text. -/
theorem lease_takesFirst_sample : ∃ tables' taken passed,
    TakesFirst standardHost (fun _ _ _ => true) limitedLoads closedRelay none
      ⟨⟨2026, 1, 1, 0, 0, 0, 0⟩, by decide⟩ "warehouse" "worker" 1
      (wireBudgetOf closedRelay (some 65536)) (oneRow (utf8Bytes ['x'])) tables' [] taken passed :=
  ⟨_, lease_takesFirst standardHost (fun _ _ _ => true) limitedLoads closedRelay none
    ⟨⟨2026, 1, 1, 0, 0, 0, 0⟩, by decide⟩ "warehouse" "worker" 1 60000000 (some 65536)
    (fun _ => "token") (oneRow (utf8Bytes ['x'])) _ [] (List.nodup_singleton _) rfl⟩

end StoredQueue

end Polymorph
