import Polymorph.Delivery.Ledger
import Polymorph.Relay.Fifo

/-!
# Stored timestamps

The stores keep times as texts, and compare them as texts in their queries. The ledger also reads a
text back and compares the times themselves. Both answer alike on every text that is written, and
the rows of both queues are read in the order of time.
-/

set_option autoImplicit false

namespace Polymorph

open JsonText Transaction Table Utc

/-! ## The ledger -/

namespace DeliveryLedger

/-- `_parse_expiry` -/
def parseExpiry (H : Host) : Option String → Option Instant
  | none => none
  | some raw =>
      if raw = "" then none
      else
        match H.fromisoformat raw with
        | some (.aware instant) => some instant
        | _ => none

/-- `claim_expires_at > ?`: texts compare by their bytes, and nothing is greater than a null. -/
def sqlExpiresAfter (expires : Option String) (now : String) : Bool :=
  match expires with
  | some text => decide (textBytes now < textBytes text)
  | none => false

/-- `previous_expiry is not None and previous_expiry > now_value` -/
def parsedExpiresAfter (expiry : Option Instant) (now : Instant) : Bool :=
  match expiry with
  | some instant => decide (now < instant)
  | none => false

/-- The stored text of a column that holds a time or a null. -/
def storedText (time : Option Instant) : Option String := time.map Instant.isoformat

theorem parseExpiry_storedText (H : Host) (time : Option Instant) :
    parseExpiry H (storedText time) = time := by
  cases time with
  | none => rfl
  | some instant =>
      have hne : instant.isoformat ≠ "" := by
        intro h
        have hlength := congrArg String.toList h
        rw [toList_isoformat] at hlength
        exact absurd hlength (List.append_ne_nil_of_right_ne_nil _ (List.cons_ne_nil _ _))
      rw [storedText, Option.map_some, parseExpiry, if_neg hne, H.fromisoformat_isoformat]

theorem sqlExpiresAfter_storedText (time : Option Instant) (now : Instant) :
    sqlExpiresAfter (storedText time) now.isoformat = parsedExpiresAfter time now := by
  cases time with
  | none => rfl
  | some instant =>
      rw [storedText, Option.map_some, sqlExpiresAfter, parsedExpiresAfter]
      exact decide_eq_decide.mpr (textBytes_lt_iff.trans lt_iff_micros.symm)

/-- The time test of a transition is the one of its SQL statement. -/
theorem applies_eq_sql (t : Transition) (H : Host) (now : Instant) (record : BlindTransportRecord)
    (claimToken : String) (row : LedgerRow) :
    t.applies H now record claimToken row =
      ({ t with requireUnexpired := false }.applies H now record claimToken row &&
        (!t.requireUnexpired || sqlExpiresAfter (storedText row.claimExpiresAt) now.isoformat)) := by
  rw [sqlExpiresAfter_storedText]
  unfold Transition.applies parsedExpiresAfter
  cases row.claimExpiresAt with
  | none => simp only [Bool.not_false, Bool.true_or, Bool.and_true]
  | some expires => simp only [Bool.not_false, Bool.true_or, Bool.and_true]

/-- A claim whose row carries an expiry compares it as the SQL statement does. -/
theorem fencing_eq_sql (row : LedgerRow) (now : Instant) :
    (fencing row).map (fun fence => decide (now < fence.2)) =
      (fencing row).map fun _ => sqlExpiresAfter (storedText row.claimExpiresAt) now.isoformat := by
  rw [sqlExpiresAfter_storedText]
  unfold fencing
  cases row.claimToken with
  | none => rfl
  | some token =>
      cases hexpiry : row.claimExpiresAt with
      | none => rfl
      | some expires =>
          dsimp only
          split
          · rfl
          · rfl

end DeliveryLedger

/-! ## The queues -/

/-- Both texts are stamps, and the time of the first is not later. -/
def NotLater (text other : String) : Prop :=
  ∃ i j : Instant, text = i.isoformat ∧ other = j.isoformat ∧ i.micros ≤ j.micros

theorem notLater_of_le {text other : String} (h : IsStamp text) (h' : IsStamp other)
    (hle : text ≤ other) : NotLater text other := by
  obtain ⟨i, rfl⟩ := h
  obtain ⟨j, rfl⟩ := h'
  exact ⟨i, j, rfl, rfl, isoformat_le_iff.mp hle⟩

namespace SealedRelayQueue

variable {tables : RelayTables}

/-- A row is available when its lease, if it has one, has run out. -/
theorem available_iff (h : RelayInv tables) {row : QueueRow} (hrow : row ∈ tables.queue)
    (destinationConnector : String) (now : Instant) :
    available destinationConnector now.isoformat row = true ↔
      row.destinationConnector = destinationConnector ∧ ∀ lease ∈ row.lease,
        ∃ expires : Instant, lease.leaseExpiresAt = expires.isoformat ∧
          expires.micros ≤ now.micros := by
  have hexpiries := h.expiries row hrow
  rw [available, Bool.and_eq_true, decide_eq_true_iff]
  refine and_congr_right fun _ => ?_
  cases hlease : row.lease with
  | none =>
      refine ⟨fun _ lease hmem => ?_, fun _ => rfl⟩
      cases hmem
  | some lease =>
      obtain ⟨expires, hexpires⟩ := hexpiries lease hlease
      rw [Option.all_some, decide_eq_true_iff, hexpires, isoformat_le_iff]
      constructor
      · rintro hle other hother
        obtain rfl := Option.some.inj hother
        exact ⟨expires, hexpires, hle⟩
      · intro hall
        obtain ⟨e, he, hle⟩ := hall lease rfl
        rwa [isoformat_injective (hexpires.symm.trans he)]

/-- The rows that a lease scans, and those that it leaves, in the order of time. -/
theorem scanned_chronological (hs : Stamped tables) (destinationConnector now : String)
    (limit : Nat) :
    (scanned destinationConnector now limit tables.queue).Pairwise
        (fun a b => NotLater a.receivedAt b.receivedAt) ∧
      ∀ row ∈ tables.queue, available destinationConnector now row = true →
        row ∉ scanned destinationConnector now limit tables.queue →
        ∀ a ∈ scanned destinationConnector now limit tables.queue,
          NotLater a.receivedAt row.receivedAt := by
  have hsorted : ((tables.queue.filter (available destinationConnector now)).insertionSort
      precedes).Pairwise precedes :=
    pairwise_orderBy (r := precedes) (f := fun row => row.receivedAt)
      (g := fun row => row.recordDigest) (fun _ _ => Iff.rfl) _
  have hmem : ∀ row, row ∈ (tables.queue.filter
      (available destinationConnector now)).insertionSort precedes →
      IsStamp row.receivedAt := fun row hrow =>
    hs row (List.mem_of_mem_filter ((List.perm_insertionSort precedes _).mem_iff.mp hrow))
  have hrelated : ∀ a b : QueueRow, IsStamp a.receivedAt → IsStamp b.receivedAt →
      precedes a b → NotLater a.receivedAt b.receivedAt := fun a b ha hb hab =>
    notLater_of_le ha hb (OrderBy.le (f := fun row : QueueRow => row.receivedAt) (g := fun row => row.recordDigest) hab)
  have hsplit := List.take_append_drop (limit + maxDeadLettersPerLease)
    ((tables.queue.filter (available destinationConnector now)).insertionSort precedes)
  rw [← hsplit, List.pairwise_append] at hsorted
  constructor
  · refine hsorted.1.imp_of_mem fun ha hb hab => hrelated _ _ ?_ ?_ hab
    · exact hmem _ (List.mem_of_mem_take ha)
    · exact hmem _ (List.mem_of_mem_take hb)
  · intro row hrow havailable hleft a ha
    have hfound : row ∈ (tables.queue.filter (available destinationConnector now)).insertionSort
        precedes :=
      (List.perm_insertionSort precedes _).mem_iff.mpr (List.mem_filter.mpr ⟨hrow, havailable⟩)
    rw [← hsplit, List.mem_append] at hfound
    have hlater := hfound.resolve_left hleft
    exact hrelated a row (hmem a (List.mem_of_mem_take ha)) (hs row hrow)
      (hsorted.2.2 a ha row hlater)

end SealedRelayQueue

namespace SourceOutbox

theorem ordered_chronological {rows : Outbox} (hs : Stamped rows) :
    (ordered rows).Pairwise fun a b => NotLater a.stagedAt b.stagedAt := by
  have hsorted : (ordered rows).Pairwise precedes :=
    pairwise_orderBy (r := precedes) (f := fun row => row.stagedAt)
      (g := fun row => row.recordDigest) (fun _ _ => Iff.rfl) rows
  have hmem : ∀ row ∈ ordered rows, IsStamp row.stagedAt := fun row hrow =>
    hs row ((List.perm_insertionSort precedes rows).mem_iff.mp hrow)
  exact hsorted.imp_of_mem fun ha hb hab => notLater_of_le (hmem _ ha) (hmem _ hb)
    (OrderBy.le (f := fun row : OutboxRow => row.stagedAt) (g := fun row => row.recordDigest) hab)

end SourceOutbox

/-! ## All stores -/

open DeliveryLedger in
/-- The texts of times are ordered as time is, and equal for equal times only. So the ledger's text
comparison agrees with its comparison of parsed times, a lease of the relay is over for its query
when its time has come, and the relay and the outbox read their rows in the order of time. -/
theorem stored_times_chronological :
    (∀ i j : Instant,
      (textBytes i.isoformat < textBytes j.isoformat ↔ i.micros < j.micros) ∧
      (i.isoformat = j.isoformat ↔ i = j) ∧ (i.micros = j.micros ↔ i = j)) ∧
    (∀ (H : Host) (time : Option Instant) (now : Instant),
      sqlExpiresAfter (storedText time) now.isoformat =
        parsedExpiresAfter (parseExpiry H (storedText time)) now) ∧
    (∀ (t : Transition) (H : Host) (now : Instant) (record : BlindTransportRecord)
      (claimToken : String) (row : LedgerRow),
      t.applies H now record claimToken row =
        ({ t with requireUnexpired := false }.applies H now record claimToken row &&
          (!t.requireUnexpired ||
            sqlExpiresAfter (storedText row.claimExpiresAt) now.isoformat)) ∧
      (fencing row).map (fun fence => decide (now < fence.2)) =
        (fencing row).map fun _ =>
          sqlExpiresAfter (storedText row.claimExpiresAt) now.isoformat) ∧
    (∀ (H : Host) (ed25519 : List UInt8 → ByteArray → List UInt8 → Bool) (config : RelayConfig)
      (token : Nat → Nat → String) (calls : List RelayCall) (destinationConnector : String)
      (now : Instant) (limit : Nat),
      let queue := (SealedRelayQueue.run H ed25519 config token calls).2.queue
      let available := SealedRelayQueue.available destinationConnector now.isoformat
      let scanned := SealedRelayQueue.scanned destinationConnector now.isoformat limit queue
      (∀ row ∈ queue, available row = true ↔ row.destinationConnector = destinationConnector ∧
        ∀ lease ∈ row.lease, ∃ expires : Instant, lease.leaseExpiresAt = expires.isoformat ∧
          expires.micros ≤ now.micros) ∧
      scanned.Pairwise (fun a b => NotLater a.receivedAt b.receivedAt) ∧
      ∀ row ∈ queue, available row = true → row ∉ scanned → ∀ a ∈ scanned,
        NotLater a.receivedAt row.receivedAt) ∧
    (∀ (H : Host) (config : OutboxConfig) (calls : List OutboxCall),
      (SourceOutbox.ordered (SourceOutbox.run H config calls).2).Pairwise fun a b =>
        NotLater a.stagedAt b.stagedAt) := by
  refine ⟨fun i j => ⟨textBytes_lt_iff, isoformat_injective.eq_iff, micros_injective.eq_iff⟩,
    fun H time now => ?_, fun t H now record claimToken row =>
      ⟨applies_eq_sql t H now record claimToken row, fencing_eq_sql row now⟩,
    fun H ed25519 config token calls destinationConnector now limit => ?_,
    fun H config calls => SourceOutbox.ordered_chronological (SourceOutbox.run_stamped calls)⟩
  · rw [parseExpiry_storedText, sqlExpiresAfter_storedText]
  · have hinv := (@SealedRelayQueue.run_inv H ed25519 config token calls).2.1
    exact ⟨fun row hrow => SealedRelayQueue.available_iff hinv hrow destinationConnector now,
      SealedRelayQueue.scanned_chronological (SealedRelayQueue.run_stamped token calls) _ _ _⟩

end Polymorph
