import Polymorph.Relay.Conservation
import Polymorph.Source.OutboxDurability
import Polymorph.Time.Chronology

/-!
# Chronological queues

Both queues stamp a row with the text of the time at which they accept it, and no later call
changes the text. So after any history the order in which the rows are read is the order of time,
and a lease has run out for the availability query exactly when its time has come.
-/

set_option autoImplicit false

namespace Polymorph

open JsonText Transaction Table Utc

/-- A text that `isoformat` writes of an instant. -/
def IsStamp (text : String) : Prop := ∃ i : Instant, text = i.isoformat

/-! ## The relay queue -/

namespace SealedRelayQueue

variable {H : Host} {ed25519 : List UInt8 → ByteArray → List UInt8 → Bool} {config : RelayConfig}
  {tables : RelayTables}

/-- Every row of the queue is stamped. -/
def Stamped (tables : RelayTables) : Prop := ∀ row ∈ tables.queue, IsStamp row.receivedAt

theorem authorize_stamped {registry : Option SourceTrustStore} {times : Nat → EnqueueTimes}
    {index : Nat} {records : List BlindTransportRecord} {rows : List QueueRow}
    (h : authorize H ed25519 config registry times index records = .ok rows) :
    ∀ row ∈ rows, IsStamp row.receivedAt := by
  induction records generalizing index rows with
  | nil =>
      cases h
      exact List.forall_mem_nil _
  | cons record rest ih =>
      unfold authorize at h
      obtain ⟨_, -, h⟩ := bind_eq_ok h
      obtain ⟨others, hothers, h⟩ := bind_eq_ok h
      cases h
      exact List.forall_mem_cons.mpr ⟨⟨_, rfl⟩, ih hothers⟩

theorem retains_insertRow {row : QueueRow} (hrow : IsStamp row.receivedAt)
    (hs : Stamped tables) : Retains Stamped (insertRow row) tables := by
  unfold insertRow
  refine retains_get_bind (retains_guard hs fun _ => retains_set ?_)
  exact List.forall_mem_append.mpr ⟨hs, List.forall_mem_singleton.mpr hrow⟩

theorem retains_enqueueRow {row : QueueRow} (hrow : IsStamp row.receivedAt)
    (hs : Stamped tables) : Retains Stamped (enqueueRow row) tables := by
  unfold enqueueRow
  refine retains_get_bind ?_
  dsimp only
  cases tables.queueIdentity row.key with
  | some identity =>
      exact retains_guard hs fun _ => retains_guard hs fun _ => retains_pure hs _
  | none =>
      refine retains_guard hs fun _ => ?_
      exact (retains_insertRow hrow hs).bind fun _ _ h => retains_pure h _

theorem retains_enqueueRows {rows : List QueueRow} (hrows : ∀ row ∈ rows, IsStamp row.receivedAt)
    (hs : Stamped tables) : Retains Stamped (enqueueRows rows) tables := by
  induction rows generalizing tables with
  | nil => exact retains_pure hs _
  | cons row rest ih =>
      have hrow := List.forall_mem_cons.mp hrows
      refine (retains_enqueueRow hrow.1 hs).bind fun _ _ h => ?_
      exact (ih hrow.2 h).bind fun _ _ h => retains_pure h _

theorem retains_enqueueMany (registry : Option SourceTrustStore) (times : Nat → EnqueueTimes)
    (records : List BlindTransportRecord) (hs : Stamped tables) :
    Retains Stamped (enqueueMany H ed25519 config registry times records) tables := by
  unfold enqueueMany
  refine retains_lift_bind hs fun _ _ => ?_
  split
  · exact retains_pure hs _
  · refine retains_lift_bind hs fun rows hrows => ?_
    refine retains_transaction hs ?_
    refine (retains_enqueueRows (authorize_stamped hrows) hs).bind fun _ _ h => ?_
    exact ((readOnly_assertQueuePostconditions _).retains h).bind fun _ _ h => retains_pure h _

theorem retains_deadLetter (row : QueueRow) (wire reasonCode : String) (now : Instant)
    (hs : Stamped tables) : Retains Stamped (deadLetter row wire reasonCode now) tables := by
  have hremaining : ∀ r ∈ tables.queue.filter (fun r => r.recordDigest ≠ row.recordDigest),
      IsStamp r.receivedAt := fun r hr => hs r (List.mem_of_mem_filter hr)
  unfold deadLetter
  refine retains_get_bind ?_
  dsimp only
  cases tables.deadLetterRow row.recordDigest with
  | none => exact Retains.bind (retains_set hremaining) fun _ _ h => retains_pure h _
  | some existing =>
      refine retains_guard hs fun _ => ?_
      exact Retains.bind (retains_set hremaining) fun _ _ h => retains_pure h _

theorem retains_deadLetterAll (now : Instant) (letters : List (QueueRow × String × String))
    (hs : Stamped tables) : Retains Stamped (deadLetterAll now letters) tables := by
  induction letters generalizing tables with
  | nil => exact retains_pure hs _
  | cons letter rest ih =>
      refine (retains_deadLetter letter.1 letter.2.1 letter.2.2 now hs).bind fun _ _ h => ?_
      exact (ih h).bind fun _ _ h => retains_pure h _

theorem retains_fenceRows (updates : List (String × RelayLease)) (hs : Stamped tables) :
    Retains Stamped (fenceRows updates) tables := by
  induction updates generalizing tables with
  | nil => exact retains_pure hs _
  | cons update rest ih =>
      refine retains_get_bind (Retains.bind (retains_set ?_) fun _ _ h => ?_)
      · intro row hrow
        obtain ⟨old, hold, rfl⟩ := List.mem_map.mp hrow
        have hstamp := hs old hold
        split
        · exact hstamp
        · exact hstamp
      · exact (ih h).bind fun _ _ h => retains_pure h _

theorem retains_leaseTransaction (registry : Option SourceTrustStore)
    (destinationConnector leaseOwner : String) (limit wireBudget : Nat) (now expires : Instant)
    (token : Nat → String) (hs : Stamped tables) :
    Retains Stamped (leaseTransaction H ed25519 config registry destinationConnector leaseOwner
      limit wireBudget now expires token) tables := by
  unfold leaseTransaction
  refine retains_transaction hs (retains_get_bind (retains_lift_bind hs fun scan _ => ?_))
  refine (retains_deadLetterAll now _ hs).bind fun _ _ h => ?_
  refine (retains_fenceRows _ h).bind fun _ _ h => retains_guard h fun _ => ?_
  exact ((readOnly_assertDeadLetterPostconditions _).retains h).bind fun _ _ h => retains_pure h _

theorem retains_lease (registry : Option SourceTrustStore)
    (destinationConnector leaseOwner : String) (limit leaseFor : Int) (maxWireBytes : Option Int)
    (now : Instant) (token : Nat → String) (hs : Stamped tables) :
    Retains Stamped (lease H ed25519 config registry destinationConnector leaseOwner limit
      leaseFor maxWireBytes now token) tables := by
  unfold lease
  refine retains_guard hs fun _ => retains_guard hs fun _ => retains_guard hs fun _ => ?_
  refine retains_guard hs fun _ => ?_
  cases now.add leaseFor with
  | none => exact retains_throw hs _
  | some expires =>
      refine (retains_leaseTransaction _ _ _ _ _ _ _ _ hs).bind fun _ _ h => ?_
      exact retains_guard h fun _ => retains_pure h _

theorem retains_deleteHeld (leaseOwner now : String) (acknowledgements : List (String × String))
    (hs : Stamped tables) : Retains Stamped (deleteHeld leaseOwner now acknowledgements) tables := by
  induction acknowledgements generalizing tables with
  | nil => exact retains_pure hs _
  | cons acknowledgement rest ih =>
      refine retains_get_bind (Retains.bind (retains_set ?_) fun _ _ h => ?_)
      · exact fun row hrow => hs row (List.mem_of_mem_filter hrow)
      · exact (ih h).bind fun _ _ h => retains_pure h _

theorem retains_ackMany (acknowledgements : List (String × String)) (leaseOwner : String)
    (now : Instant) (hs : Stamped tables) :
    Retains Stamped (ackMany H acknowledgements leaseOwner now) tables := by
  unfold ackMany
  refine retains_guard hs fun _ => retains_lift_bind hs fun _ _ => ?_
  split
  · exact retains_pure hs _
  · refine retains_transaction hs ?_
    refine (retains_deleteHeld _ _ _ hs).bind fun _ _ h => ?_
    split
    · exact retains_throw h _
    · exact retains_pure h _

theorem retains_release (recordDigest leaseOwner leaseId : String) (now : Instant)
    (hs : Stamped tables) :
    Retains Stamped (release recordDigest leaseOwner leaseId now) tables := by
  unfold release
  refine retains_guard hs fun _ => retains_get_bind (Retains.bind (retains_set ?_) fun _ _ h => ?_)
  · intro row hrow
    obtain ⟨old, hold, rfl⟩ := List.mem_map.mp hrow
    have hstamp := hs old hold
    split
    · exact hstamp
    · exact hstamp
  · split
    · exact retains_throw h _
    · exact retains_pure h _

/-- A call keeps the rows stamped. -/
theorem exec_stamped (token : Nat → String) (call : RelayCall) (hs : Stamped tables) :
    Stamped (exec H ed25519 config token call tables).2 := by
  cases call with
  | enqueueMany registry times records => exact retains_enqueueMany registry times records hs
  | lease registry destinationConnector leaseOwner limit leaseFor maxWireBytes now =>
      exact retains_lease registry destinationConnector leaseOwner limit leaseFor maxWireBytes now
        token hs
  | ackMany acknowledgements leaseOwner now => exact retains_ackMany acknowledgements leaseOwner now hs
  | release recordDigest leaseOwner leaseId now =>
      exact retains_release recordDigest leaseOwner leaseId now hs

/-- The rows of every history are stamped. -/
theorem run_stamped (token : Nat → Nat → String) (calls : List RelayCall) :
    Stamped (run H ed25519 config token calls).2 := by
  induction calls with
  | nil => exact List.forall_mem_nil _
  | cons call earlier ih => exact exec_stamped _ call ih

end SealedRelayQueue

/-! ## The outbox -/

namespace SourceOutbox

variable {H : Host} {config : OutboxConfig} {rows : Outbox}

/-- Every row of the outbox is stamped. -/
def Stamped (rows : Outbox) : Prop := ∀ row ∈ rows, IsStamp row.stagedAt

theorem prepareBatch_stamped {clock : Nat → Instant} {index total : Nat}
    {records : List BlindTransportRecord} {prepared : List OutboxRow}
    (h : prepareBatch H config clock index total records = .ok prepared) : Stamped prepared := by
  induction records generalizing index total prepared with
  | nil =>
      cases h
      exact List.forall_mem_nil _
  | cons record rest ih =>
      unfold prepareBatch at h
      obtain ⟨-, h⟩ := guard_eq_ok h
      obtain ⟨row, hrow, h⟩ := bind_eq_ok h
      obtain ⟨-, h⟩ := guard_eq_ok h
      obtain ⟨others, hothers, h⟩ := bind_eq_ok h
      cases h
      refine List.forall_mem_cons.mpr ⟨?_, ih hothers⟩
      unfold prepareStage at hrow
      obtain ⟨-, hrow⟩ := guard_eq_ok hrow
      obtain ⟨parsed, -, hrow⟩ := bind_eq_ok hrow
      obtain ⟨-, hrow⟩ := guard_eq_ok hrow
      cases hrow
      exact ⟨_, rfl⟩

theorem retains_stageRow {row : OutboxRow} (hrow : IsStamp row.stagedAt) (hs : Stamped rows) :
    Retains Stamped (stageRow row) rows := by
  unfold stageRow
  refine retains_get_bind ?_
  dsimp only
  cases selectBy OutboxRow.key row.key rows with
  | some identity =>
      exact retains_guard hs fun _ => retains_guard hs fun _ => retains_pure hs _
  | none =>
      refine Retains.bind ?_ fun _ _ h => retains_pure h _
      refine retains_get_bind (retains_guard hs fun _ => retains_set ?_)
      exact List.forall_mem_append.mpr ⟨hs, List.forall_mem_singleton.mpr hrow⟩

theorem retains_stageRows {prepared : List OutboxRow} (hprepared : Stamped prepared)
    (hs : Stamped rows) : Retains Stamped (stageRows prepared) rows := by
  induction prepared generalizing rows with
  | nil => exact retains_pure hs _
  | cons row rest ih =>
      have hrow := List.forall_mem_cons.mp hprepared
      refine (retains_stageRow hrow.1 hs).bind fun _ _ h => ?_
      exact (ih hrow.2 h).bind fun _ _ h => retains_pure h _

theorem retains_checkPersisted (expected : List OutboxRow) (hs : Stamped rows) :
    Retains Stamped (checkPersisted expected) rows := by
  induction expected with
  | nil => exact retains_pure hs _
  | cons row rest ih => exact retains_get_bind (retains_guard hs fun _ => ih)

theorem retains_stageMany (clock : Nat → Instant) (records : List BlindTransportRecord)
    (hs : Stamped rows) : Retains Stamped (stageMany H config clock records) rows := by
  unfold stageMany
  refine retains_lift_bind hs fun prepared hprepared => ?_
  split
  · exact retains_pure hs _
  · refine retains_transaction hs ?_
    refine (retains_stageRows (prepareBatch_stamped hprepared) hs).bind fun _ _ h => ?_
    exact (retains_checkPersisted _ h).bind fun _ _ h => retains_pure h _

theorem retains_deleteDigests (digests : List String) (hs : Stamped rows) :
    Retains Stamped (deleteDigests digests) rows := by
  induction digests generalizing rows with
  | nil => exact retains_pure hs _
  | cons digest rest ih =>
      refine retains_get_bind (Retains.bind (retains_set ?_) fun _ _ h => ?_)
      · exact fun row hrow => hs row (List.mem_of_mem_filter hrow)
      · exact (ih h).bind fun _ _ h => retains_pure h _

theorem retains_ackMany (digests : List String) (hs : Stamped rows) :
    Retains Stamped (ackMany digests) rows := by
  unfold ackMany
  refine retains_lift_bind hs fun _ _ => ?_
  split
  · exact retains_pure hs _
  · exact retains_transaction hs (retains_deleteDigests digests hs)

theorem exec_stamped (call : OutboxCall) (hs : Stamped rows) :
    Stamped (exec H config call rows).2 := by
  cases call with
  | stageMany clock records => exact retains_stageMany clock records hs
  | pending limit maxWireBytes => exact (readOnly_pending limit maxWireBytes).retains hs
  | ackMany digests => exact retains_ackMany digests hs
  | reopen => exact hs

theorem run_stamped (calls : List OutboxCall) : Stamped (run H config calls).2 := by
  induction calls with
  | nil => exact List.forall_mem_nil _
  | cons call earlier ih => exact exec_stamped call ih

end SourceOutbox

end Polymorph
