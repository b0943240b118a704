import Polymorph.Relay.QueueSpec
import Polymorph.Trust.SourceAuthority

/-!
# Conservation in the relay queue

The transactions of any number of workers, one after the other as SQLite serializes them. A record
that was accepted stays queued until it is acknowledged under its current lease or moved to the
dead letters. The current lease of a row is the latest one that was handed out for its digest, so
the holder of an earlier one has lost it for good.
-/

set_option autoImplicit false

namespace Polymorph

open JsonText Transaction Table Utc

/-- A call of a worker. -/
inductive RelayCall where
  | enqueueMany (registry : Option SourceTrustStore)
      (times : Nat → SealedRelayQueue.EnqueueTimes) (records : List BlindTransportRecord)
  | lease (registry : Option SourceTrustStore) (destinationConnector leaseOwner : String)
      (limit leaseFor : Int) (maxWireBytes : Option Int) (now : Instant)
  | ackMany (acknowledgements : List (String × String)) (leaseOwner : String) (now : Instant)
  | release (recordDigest leaseOwner leaseId : String) (now : Instant)

/-- What the worker saw. -/
inductive RelayResult where
  | enqueued (result : Except Exn (List RelayReceipt))
  | leased (result : Except Exn (List LeasedRecord))
  | acked (result : Except Exn Unit)
  | released (result : Except Exn Unit)

/-- The exception of a call that raised. -/
def RelayResult.raised : RelayResult → Option Exn
  | .enqueued (.error x) | .leased (.error x) | .acked (.error x) | .released (.error x) => some x
  | _ => none

namespace SealedRelayQueue

variable (H : Host) (ed25519 : List UInt8 → ByteArray → List UInt8 → Bool) (config : RelayConfig)

/-- One call; `token` gives the lease ids that it draws. -/
def exec (token : Nat → String) : RelayCall → RelayTables → RelayResult × RelayTables
  | .enqueueMany registry times records, tables =>
      let (result, tables') := outcome (enqueueMany H ed25519 config registry times records) tables
      (.enqueued result, tables')
  | .lease registry destinationConnector leaseOwner limit leaseFor maxWireBytes now, tables =>
      let (result, tables') := outcome (lease H ed25519 config registry destinationConnector
        leaseOwner limit leaseFor maxWireBytes now token) tables
      (.leased result, tables')
  | .ackMany acknowledgements leaseOwner now, tables =>
      let (result, tables') := outcome (ackMany H acknowledgements leaseOwner now) tables
      (.acked result, tables')
  | .release recordDigest leaseOwner leaseId now, tables =>
      let (result, tables') := outcome (release recordDigest leaseOwner leaseId now) tables
      (.released result, tables')

/-- A history, the latest call first, and the tables. The `n`-th call draws from `token n`. -/
def run (token : Nat → Nat → String) :
    List RelayCall → List (RelayCall × RelayResult) × RelayTables
  | [] => ([], {})
  | call :: earlier =>
      let (history, tables) := run token earlier
      let (result, tables') := exec H ed25519 config (token history.length) call tables
      ((call, result) :: history, tables')

/-- The lease ids handed out for a digest, the latest first. -/
def handed (recordDigest : String) : List (RelayCall × RelayResult) → List String
  | [] => []
  | (_, .leased (.ok leased)) :: earlier =>
      handedIn H recordDigest leased ++ handed recordDigest earlier
  | _ :: earlier => handed recordDigest earlier

/-- The call acknowledges the row under its current lease, before that lease expires. -/
def AcknowledgedBy (call : RelayCall) (result : RelayResult) (row : QueueRow) : Prop :=
  ∃ acknowledgements leaseOwner now, call = .ackMany acknowledgements leaseOwner now ∧
    result = .acked (.ok ()) ∧
    ∃ (lease : RelayLease) (expires : Instant), row.lease = some lease ∧
      (row.recordDigest, lease.leaseId) ∈ acknowledgements ∧ lease.leaseOwner = leaseOwner ∧
      lease.leaseExpiresAt = expires.isoformat ∧ now < expires

/-- The call is a lease, and it moved the row to the dead letters. -/
def BuriedBy (call : RelayCall) (row : QueueRow) (tables' : RelayTables) : Prop :=
  (∃ registry destinationConnector leaseOwner limit leaseFor maxWireBytes now,
    call = .lease registry destinationConnector leaseOwner limit leaseFor maxWireBytes now) ∧
  DeadLettered row tables'

/-- The exception that `lease` raises after its commit. -/
def RaisedAfterCommit (call : RelayCall) (x : Exn) : Prop :=
  (∃ registry destinationConnector leaseOwner limit leaseFor maxWireBytes now,
    call = .lease registry destinationConnector leaseOwner limit leaseFor maxWireBytes now) ∧
  x = .valueError "next relay record exceeds the lease wire limit"

/-- What holds of the tables after a history, and of whatever call comes next. -/
structure Conserved (history : List (RelayCall × RelayResult)) (tables : RelayTables) :
    Prop where
  /-- every transfer identity occurs at most once in both tables together -/
  identities : tables.identities.Nodup
  /-- a queued row stays, is acknowledged under its lease, or becomes a dead letter -/
  leaves : ∀ (token : Nat → String) (call : RelayCall), ∀ row ∈ tables.queue,
    Queued row (exec H ed25519 config token call tables).2 ∨
    AcknowledgedBy call (exec H ed25519 config token call tables).1 row ∨
    BuriedBy call row (exec H ed25519 config token call tables).2
  /-- the holder of an earlier lease neither acknowledges nor releases -/
  exclusive : ∀ recordDigest leaseId, leaseId ∈ (handed H recordDigest history).tail →
    (∀ acknowledgements leaseOwner now, (recordDigest, leaseId) ∈ acknowledgements →
      ∃ x, ackMany H acknowledgements leaseOwner now tables = .error x tables) ∧
    ∀ leaseOwner now, ∃ x, release recordDigest leaseOwner leaseId now tables = .error x tables
  /-- a call that raises before its commit changes neither table -/
  atomic : ∀ (token : Nat → String) (call : RelayCall) (x : Exn),
    (exec H ed25519 config token call tables).1.raised = some x → ¬RaisedAfterCommit call x →
    (exec H ed25519 config token call tables).2 = tables

variable {H} {ed25519} {config}

/-! ## One call -/

/-- `lease` raises and changes nothing, or it commits; then it raises only when nothing was
leased. -/
theorem lease_cases {tables : RelayTables} (h : RelayInv tables)
    (registry : Option SourceTrustStore) (destinationConnector leaseOwner : String)
    (limit leaseFor : Int) (maxWireBytes : Option Int) (now : Instant) (token : Nat → String) :
    (∃ x, lease H ed25519 config registry destinationConnector leaseOwner limit leaseFor
      maxWireBytes now token tables = .error x tables) ∨
    ∃ leased tables', Leased H token leased tables tables' ∧
      (lease H ed25519 config registry destinationConnector leaseOwner limit leaseFor
        maxWireBytes now token tables = .ok leased tables' ∨
      leased = [] ∧ lease H ed25519 config registry destinationConnector leaseOwner limit leaseFor
        maxWireBytes now token tables =
          .error (.valueError "next relay record exceeds the lease wire limit") tables') := by
  unfold lease
  by_cases howner : leaseOwner = "" ∨ leaseOwner.length > 128
  · rw [if_pos howner]
    exact .inl ⟨_, rfl⟩
  rw [if_neg howner]
  by_cases hlimit : ¬(1 ≤ limit ∧ limit ≤ 10000)
  · rw [if_pos hlimit]
    exact .inl ⟨_, rfl⟩
  rw [if_neg hlimit]
  by_cases hduration : leaseFor ≤ 0 ∨ leaseFor > maxLeaseDuration
  · rw [if_pos hduration]
    exact .inl ⟨_, rfl⟩
  rw [if_neg hduration]
  by_cases hbudget : ¬(1 ≤ maxWireBytes.getD config.maxBatchWireBytes ∧
      maxWireBytes.getD config.maxBatchWireBytes ≤ config.maxBatchWireBytes)
  · rw [if_pos hbudget]
    exact .inl ⟨_, rfl⟩
  rw [if_neg hbudget]
  cases hexpires : now.add leaseFor with
  | none => exact .inl ⟨_, rfl⟩
  | some expires =>
      cases htransaction : leaseTransaction H ed25519 config registry destinationConnector
          leaseOwner limit.toNat (maxWireBytes.getD config.maxBatchWireBytes).toNat now expires
          token tables with
      | error x t =>
          obtain rfl := atomic_transaction _ _ _ _ htransaction
          refine .inl ⟨x, ?_⟩
          dsimp only
          rw [bind_apply, htransaction]
      | ok result t =>
          obtain ⟨leased, budgetBlocked⟩ := result
          refine .inr ⟨leased, t, leaseTransaction_ok h htransaction, ?_⟩
          dsimp only
          rw [bind_apply, htransaction]
          dsimp only
          by_cases hblocked : budgetBlocked = true ∧ leased.isEmpty
          · right
            rw [if_pos hblocked]
            exact ⟨List.isEmpty_iff.1 hblocked.2, rfl⟩
          · left
            rw [if_neg hblocked]
            rfl

/-- The lease of every row is the latest one handed out for its digest. -/
def Current (H : Host) (history : List (RelayCall × RelayResult)) (tables : RelayTables) : Prop :=
  ∀ row ∈ tables.queue, ∀ lease ∈ row.lease,
    (handed H row.recordDigest history).head? = some lease.leaseId

/-- The invariants after a commit of `lease`. -/
theorem Leased.current {token : Nat → String} {leased : List LeasedRecord}
    {tables tables' : RelayTables} {history : List (RelayCall × RelayResult)}
    (h : Leased H token leased tables tables') (hcurrent : Current H history tables) :
    ∀ row ∈ tables'.queue, ∀ lease ∈ row.lease,
      (handedIn H row.recordDigest leased ++ handed H row.recordDigest history).head? =
        some lease.leaseId := by
  intro row hrow lease hlease
  rcases h.rows row hrow with ⟨hnone, old, hold, hdigest, hsame⟩ | ⟨lease', hlease', hone⟩
  · rw [← hsame] at hlease
    rw [hnone, List.nil_append, ← hdigest]
    exact hcurrent old hold lease hlease
  · rw [hlease'] at hlease
    cases hlease
    rw [hone]
    rfl

/-- One call keeps the invariants. -/
theorem exec_inv {history : List (RelayCall × RelayResult)} {tables : RelayTables}
    (h : RelayInv tables) (hcurrent : Current H history tables) (token : Nat → String)
    (call : RelayCall) :
    RelayInv (exec H ed25519 config token call tables).2 ∧
      Current H ((call, (exec H ed25519 config token call tables).1) :: history)
        (exec H ed25519 config token call tables).2 := by
  cases call with
  | enqueueMany registry times records =>
      unfold exec
      dsimp only
      rcases (@enqueueMany_cases H ed25519 config) h registry times
        records with ⟨x, hx⟩ | ⟨receipts, tables', hok, henqueued⟩
      · rw [outcome_of_error hx]
        exact ⟨h, hcurrent⟩
      · rw [outcome_of_ok hok]
        refine ⟨henqueued.inv, ?_⟩
        obtain ⟨added, hqueue, hnone⟩ := henqueued.appended
        intro row hrow lease hlease
        rw [hqueue] at hrow
        rcases List.mem_append.1 hrow with hrow | hrow
        · exact hcurrent row hrow lease hlease
        · rw [hnone row hrow] at hlease
          cases hlease
  | lease registry destinationConnector leaseOwner limit leaseFor maxWireBytes now =>
      unfold exec
      dsimp only
      rcases (@lease_cases H ed25519 config) h registry
        destinationConnector leaseOwner limit leaseFor maxWireBytes now token with
        ⟨x, hx⟩ | ⟨leased, tables', hleased, hok | ⟨rfl, hx⟩⟩
      · rw [outcome_of_error hx]
        exact ⟨h, hcurrent⟩
      · rw [outcome_of_ok hok]
        exact ⟨hleased.inv, hleased.current hcurrent⟩
      · rw [outcome_of_error hx]
        exact ⟨hleased.inv, hleased.current hcurrent⟩
  | ackMany acknowledgements leaseOwner now =>
      unfold exec
      dsimp only
      rcases ackMany_cases (H := H) h acknowledgements leaseOwner now with ⟨x, hx⟩ | ⟨hok, -⟩
      · rw [outcome_of_error hx]
        exact ⟨h, hcurrent⟩
      · rw [outcome_of_ok hok]
        refine ⟨h.filter_queue _, ?_⟩
        intro row hrow lease hlease
        exact hcurrent row (List.mem_of_mem_filter hrow) lease hlease
  | release recordDigest leaseOwner leaseId now =>
      unfold exec
      dsimp only
      rcases release_cases h recordDigest leaseOwner leaseId now with ⟨x, hx⟩ | ⟨hok, -⟩
      · rw [outcome_of_error hx]
        exact ⟨h, hcurrent⟩
      · rw [outcome_of_ok hok]
        refine ⟨relayInv_released h recordDigest leaseOwner leaseId now.isoformat, ?_⟩
        intro row hrow lease hlease
        obtain ⟨old, hold, rfl⟩ := List.mem_map.1 hrow
        have hdigest := congrArg RelayMetadata.recordDigest
          (released_metadata recordDigest leaseOwner leaseId now.isoformat old).1
        rw [hdigest]
        exact hcurrent old hold lease (lease_of_released hlease)

/-- How a row leaves the queue. -/
theorem exec_leaves {tables : RelayTables} (h : RelayInv tables) (token : Nat → String)
    (call : RelayCall) {row : QueueRow} (hrow : row ∈ tables.queue) :
    Queued row (exec H ed25519 config token call tables).2 ∨
    AcknowledgedBy call (exec H ed25519 config token call tables).1 row ∨
    BuriedBy call row (exec H ed25519 config token call tables).2 := by
  cases call with
  | enqueueMany registry times records =>
      left
      unfold exec
      dsimp only
      rcases (@enqueueMany_cases H ed25519 config) h registry times
        records with ⟨x, hx⟩ | ⟨receipts, tables', hok, henqueued⟩
      · rw [outcome_of_error hx]
        exact Queued.of_mem hrow
      · rw [outcome_of_ok hok]
        obtain ⟨added, hqueue, -⟩ := henqueued.appended
        apply Queued.of_mem
        rw [hqueue]
        exact List.mem_append_left _ hrow
  | lease registry destinationConnector leaseOwner limit leaseFor maxWireBytes now =>
      have hcall : ∃ r d o l f m n, RelayCall.lease registry destinationConnector leaseOwner limit
          leaseFor maxWireBytes now = .lease r d o l f m n := ⟨_, _, _, _, _, _, _, rfl⟩
      unfold exec
      dsimp only
      rcases (@lease_cases H ed25519 config) h registry
        destinationConnector leaseOwner limit leaseFor maxWireBytes now token with
        ⟨x, hx⟩ | ⟨leased, tables', hleased, hok | ⟨-, hx⟩⟩
      · rw [outcome_of_error hx]
        exact .inl (Queued.of_mem hrow)
      · rw [outcome_of_ok hok]
        exact (hleased.kept row hrow).imp id fun hburied => .inr ⟨hcall, hburied⟩
      · rw [outcome_of_error hx]
        exact (hleased.kept row hrow).imp id fun hburied => .inr ⟨hcall, hburied⟩
  | ackMany acknowledgements leaseOwner now =>
      unfold exec
      dsimp only
      rcases ackMany_cases (H := H) h acknowledgements leaseOwner now with ⟨x, hx⟩ | ⟨hok, -⟩
      · rw [outcome_of_error hx]
        exact .inl (Queued.of_mem hrow)
      · rw [outcome_of_ok hok]
        by_cases hacked : acknowledged leaseOwner now.isoformat acknowledgements row = true
        · right
          left
          obtain ⟨a, ha, hholds⟩ := List.any_eq_true.1 hacked
          obtain ⟨hdigest, lease, hlease, howner, hid, hexpiry⟩ := holdsLease_iff.1 hholds
          obtain ⟨expires, hexpires⟩ := h.expiries row hrow lease hlease
          refine ⟨acknowledgements, leaseOwner, now, rfl, rfl, lease, expires, hlease, ?_, howner,
            hexpires, ?_⟩
          · rw [hdigest, hid]
            exact ha
          · rw [hexpires] at hexpiry
            exact isoformat_lt_iff.1 hexpiry
        · left
          apply Queued.of_mem
          rw [List.mem_filter]
          exact ⟨hrow, by simp [hacked]⟩
  | release recordDigest leaseOwner leaseId now =>
      left
      unfold exec
      dsimp only
      rcases release_cases h recordDigest leaseOwner leaseId now with ⟨x, hx⟩ | ⟨hok, -⟩
      · rw [outcome_of_error hx]
        exact Queued.of_mem hrow
      · rw [outcome_of_ok hok]
        obtain ⟨hmetadata, hwire⟩ :=
          released_metadata recordDigest leaseOwner leaseId now.isoformat row
        exact ⟨_, List.mem_map_of_mem hrow, hmetadata, hwire⟩

/-- A call that raises before its commit changes nothing. -/
theorem exec_atomic {tables : RelayTables} (h : RelayInv tables) (token : Nat → String)
    (call : RelayCall) {x : Exn}
    (hraised : (exec H ed25519 config token call tables).1.raised = some x)
    (hbefore : ¬RaisedAfterCommit call x) :
    (exec H ed25519 config token call tables).2 = tables := by
  cases call with
  | enqueueMany registry times records =>
      unfold exec at hraised ⊢
      dsimp only at hraised ⊢
      rcases (@enqueueMany_cases H ed25519 config) h registry times
        records with ⟨x', hx⟩ | ⟨receipts, tables', hok, -⟩
      · rw [outcome_of_error hx]
      · rw [outcome_of_ok hok] at hraised
        cases hraised
  | lease registry destinationConnector leaseOwner limit leaseFor maxWireBytes now =>
      unfold exec at hraised ⊢
      dsimp only at hraised ⊢
      rcases (@lease_cases H ed25519 config) h registry
        destinationConnector leaseOwner limit leaseFor maxWireBytes now token with
        ⟨x', hx⟩ | ⟨leased, tables', -, hok | ⟨-, hx⟩⟩
      · rw [outcome_of_error hx]
      · rw [outcome_of_ok hok] at hraised
        cases hraised
      · rw [outcome_of_error hx] at hraised
        exact absurd ⟨⟨_, _, _, _, _, _, _, rfl⟩, (Option.some.inj hraised).symm⟩ hbefore
  | ackMany acknowledgements leaseOwner now =>
      unfold exec at hraised ⊢
      dsimp only at hraised ⊢
      rcases ackMany_cases (H := H) h acknowledgements leaseOwner now with ⟨x', hx⟩ | ⟨hok, -⟩
      · rw [outcome_of_error hx]
      · rw [outcome_of_ok hok] at hraised
        cases hraised
  | release recordDigest leaseOwner leaseId now =>
      unfold exec at hraised ⊢
      dsimp only at hraised ⊢
      rcases release_cases h recordDigest leaseOwner leaseId now with ⟨x', hx⟩ | ⟨hok, -⟩
      · rw [outcome_of_error hx]
      · rw [outcome_of_ok hok] at hraised
        cases hraised

/-! ## Exclusive leases -/

/-- A lease that is held by a row is the latest one of the row's digest. -/
theorem latest_of_holds {history : List (RelayCall × RelayResult)} {tables : RelayTables}
    (hcurrent : Current H history tables) {recordDigest leaseOwner leaseId now : String}
    {row : QueueRow} (hrow : row ∈ tables.queue)
    (hholds : holdsLease recordDigest leaseOwner leaseId now row = true) :
    (handed H recordDigest history).head? = some leaseId := by
  obtain ⟨rfl, lease, hlease, -, rfl, -⟩ := holdsLease_iff.1 hholds
  exact hcurrent row hrow lease hlease

theorem exclusive_of_current {history : List (RelayCall × RelayResult)} {tables : RelayTables}
    (h : RelayInv tables) (hcurrent : Current H history tables) {recordDigest leaseId : String}
    (hearlier : (handed H recordDigest history).head? ≠ some leaseId) :
    (∀ acknowledgements leaseOwner now, (recordDigest, leaseId) ∈ acknowledgements →
      ∃ x, ackMany H acknowledgements leaseOwner now tables = .error x tables) ∧
    ∀ leaseOwner now, ∃ x,
      release recordDigest leaseOwner leaseId now tables = .error x tables := by
  constructor
  · intro acknowledgements leaseOwner now hmem
    rcases ackMany_cases (H := H) h acknowledgements leaseOwner now with hx | ⟨-, hall⟩
    · exact hx
    · obtain ⟨row, hrow, hholds⟩ := hall (recordDigest, leaseId) hmem
      exact absurd (latest_of_holds hcurrent hrow hholds) hearlier
  · intro leaseOwner now
    rcases release_cases h recordDigest leaseOwner leaseId now with hx | ⟨-, row, hrow, hholds⟩
    · exact hx
    · exact absurd (latest_of_holds hcurrent hrow hholds) hearlier

/-- A call hands out at most one of its own ids for a digest. -/
theorem exec_handed {tables : RelayTables} (h : RelayInv tables) (token : Nat → String)
    (call : RelayCall) (recordDigest : String) :
    ∃ ids : List String,
      (∀ history, handed H recordDigest
        ((call, (exec H ed25519 config token call tables).1) :: history) =
          ids ++ handed H recordDigest history) ∧
      ids.length ≤ 1 ∧ ∀ id ∈ ids, ∃ m, id = token m := by
  cases call with
  | lease registry destinationConnector leaseOwner limit leaseFor maxWireBytes now =>
      unfold exec
      dsimp only
      rcases (@lease_cases H ed25519 config) h registry
        destinationConnector leaseOwner limit leaseFor maxWireBytes now token with
        ⟨x, hx⟩ | ⟨leased, tables', hleased, hok | ⟨-, hx⟩⟩
      · rw [outcome_of_error hx]
        exact ⟨[], fun _ => rfl, Nat.zero_le _, fun _ h => nomatch h⟩
      · rw [outcome_of_ok hok]
        refine ⟨handedIn H recordDigest leased, fun _ => rfl, hleased.once recordDigest, ?_⟩
        intro id hid
        obtain ⟨l, hl, rfl⟩ := List.mem_map.1 hid
        exact hleased.tokens l (List.mem_of_mem_filter hl)
      · rw [outcome_of_error hx]
        exact ⟨[], fun _ => rfl, Nat.zero_le _, fun _ h => nomatch h⟩
  | enqueueMany registry times records =>
      exact ⟨[], fun _ => rfl, Nat.zero_le _, fun _ h => nomatch h⟩
  | ackMany acknowledgements leaseOwner now =>
      exact ⟨[], fun _ => rfl, Nat.zero_le _, fun _ h => nomatch h⟩
  | release recordDigest' leaseOwner leaseId now =>
      exact ⟨[], fun _ => rfl, Nat.zero_le _, fun _ h => nomatch h⟩

/-! ## Every history -/

theorem run_inv (token : Nat → Nat → String) (calls : List RelayCall) :
    (run H ed25519 config token calls).1.length = calls.length ∧
      RelayInv (run H ed25519 config token calls).2 ∧
      Current H (run H ed25519 config token calls).1 (run H ed25519 config token calls).2 := by
  induction calls with
  | nil => exact ⟨rfl, RelayInv.empty, fun _ h => nomatch h⟩
  | cons call earlier ih =>
      obtain ⟨hlength, hinv, hcurrent⟩ := ih
      have hstep := (@exec_inv _ ed25519 config) hinv hcurrent
        (token (run H ed25519 config token earlier).1.length) call
      exact ⟨congrArg Nat.succ hlength, hstep⟩

/-- Every id comes from the call that handed it out, so no digest gets an id twice. -/
theorem run_handed {token : Nat → Nat → String}
    (htoken : ∀ n m n' m', token n m = token n' m' → n = n' ∧ m = m') (calls : List RelayCall)
    (recordDigest : String) :
    (handed H recordDigest (run H ed25519 config token calls).1).Nodup ∧
    ∀ id ∈ handed H recordDigest (run H ed25519 config token calls).1,
      ∃ n < calls.length, ∃ m, id = token n m := by
  induction calls with
  | nil => exact ⟨List.nodup_nil, fun _ h => nomatch h⟩
  | cons call earlier ih =>
      obtain ⟨hnodup, hdrawn⟩ := ih
      obtain ⟨hlength, hinv, -⟩ := (@run_inv H ed25519 config) token
        earlier
      obtain ⟨ids, hids, hone, htokens⟩ := (@exec_handed H ed25519 config) hinv
          (token (run H ed25519 config token earlier).1.length) call
        recordDigest
      have hhanded : handed H recordDigest (run H ed25519 config token (call :: earlier)).1 =
          ids ++ handed H recordDigest (run H ed25519 config token earlier).1 := hids _
      rw [hhanded]
      constructor
      · rw [List.nodup_append]
        refine ⟨?_, hnodup, ?_⟩
        · match ids, hone with
          | [], _ => exact List.nodup_nil
          | [id], _ => exact List.nodup_singleton id
        · rintro a ha b hb rfl
          obtain ⟨m, hm⟩ := htokens a ha
          obtain ⟨n, hn, m', hm'⟩ := hdrawn a hb
          have hsame := (htoken _ _ _ _ (hm.symm.trans hm')).1
          rw [hlength] at hsame
          omega
      · intro id hid
        rcases List.mem_append.1 hid with hid | hid
        · obtain ⟨m, hm⟩ := htokens id hid
          rw [hlength] at hm
          exact ⟨earlier.length, Nat.lt_succ_self _, m, hm⟩
        · obtain ⟨n, hn, m, hm⟩ := hdrawn id hid
          exact ⟨n, Nat.lt_succ_of_lt hn, m, hm⟩

theorem head_ne_of_mem_tail {α : Type} {l : List α} (h : l.Nodup) {a : α} (ha : a ∈ l.tail) :
    l.head? ≠ some a := by
  cases l with
  | nil => cases ha
  | cons b rest =>
      intro hhead
      cases hhead
      exact (List.nodup_cons.1 h).1 ha

end SealedRelayQueue

open SealedRelayQueue in
/-- Records are conserved and leases are exclusive after every history, when the random lease ids
are distinct. -/
theorem relay_conservation (H : Host) (ed25519 : List UInt8 → ByteArray → List UInt8 → Bool)
    (config : RelayConfig) (token : Nat → Nat → String)
    (htoken : ∀ n m n' m', token n m = token n' m' → n = n' ∧ m = m')
    (calls : List RelayCall) :
    Conserved H ed25519 config (run H ed25519 config token calls).1
      (run H ed25519 config token calls).2 := by
  obtain ⟨-, hinv, hcurrent⟩ := (@run_inv H ed25519 config) token
    calls
  refine ⟨hinv.identities, fun token call row hrow => exec_leaves hinv token call hrow, ?_,
    fun token call x hraised hbefore => exec_atomic hinv token call hraised hbefore⟩
  intro recordDigest leaseId hearlier
  have hnodup := ((@run_handed H ed25519 config) htoken calls
    recordDigest).1
  exact exclusive_of_current hinv hcurrent (head_ne_of_mem_tail hnodup hearlier)

namespace SampleRelay

open SealedRelayQueue SampleSource

/-- Distinct lease ids. -/
def token (n m : Nat) : String := unary (Nat.pair n m)

theorem token_inj (n m n' m' : Nat) (h : token n m = token n' m') : n = n' ∧ m = m' :=
  Nat.pair_eq_pair.1 (unary_injective h)

def config : RelayConfig where
  policy := { routes := [{ tenant := "tenant", sourceConnector := "source"
                           destinationConnector := "destination" }] }
  admitsOneRecord := RelayConfig.default_admitsOneRecord

def registry : Option SourceTrustStore := some ⟨[(keyId, added)], 0⟩

noncomputable def recordDigest : String := record.digest standardHost

/-- A record is leased twice, because the first lease expires, and its first holder acknowledges
after that. -/
noncomputable def calls : List RelayCall :=
  [.ackMany [(recordDigest, token 1 0)] "first" deadline,
    .lease registry "destination" "second" 100 120000000 none deadline,
    .lease registry "destination" "first" 100 120000000 none issuedAt,
    .enqueueMany registry (fun _ => ⟨issuedAt, issuedAt, issuedAt⟩) [record]]

end SampleRelay

open SealedRelayQueue SampleRelay in
/-- Conservation over the sample's history. -/
theorem relay_conservation_sample :
    Conserved standardHost SampleSource.ed25519 config
      (run standardHost SampleSource.ed25519 config token calls).1
      (run standardHost SampleSource.ed25519 config token calls).2 :=
  relay_conservation standardHost SampleSource.ed25519 config token token_inj calls

end Polymorph
