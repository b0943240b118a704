import Polymorph.Delivery.Ledger

/-!
# Chunks of a batch delivery

`deliver_many` cuts its input into chunks for the atomic writer: within the record and byte limits,
of one transfer scope, and without a repeated identity. A record above the byte limit is a chunk of
its own.
-/

set_option autoImplicit false

namespace Polymorph

/-- The values every record of one chunk shares. -/
structure ChunkScope where
  tenant : String
  destinationConnector : String
  transferId : String
  planDigest : String
deriving DecidableEq

/-- The scope of a record. -/
def BlindTransportRecord.scope (r : BlindTransportRecord) : ChunkScope :=
  ⟨r.tenant, r.destinationConnector, r.transferId, r.planDigest⟩

/-- The loop's variables. -/
structure ChunkState where
  chunks : List (List BlindTransportRecord) := []
  current : List BlindTransportRecord := []
  currentIdentities : List DeliveryKey := []
  currentBytes : Nat := 0
  currentScope : Option ChunkScope := none

namespace ChunkState

/-- Close the current chunk. -/
def flush (s : ChunkState) : ChunkState := { chunks := s.chunks ++ [s.current] }

/-- Whether the record must not join the current chunk. -/
def wouldOverflow (maxRecords maxWireBytes : Nat) (s : ChunkState)
    (record : BlindTransportRecord) : Bool :=
  !s.current.isEmpty && (decide (s.current.length ≥ maxRecords) ||
    decide (s.currentBytes + record.wireBytes > maxWireBytes) ||
    decide (some record.scope ≠ s.currentScope) ||
    s.currentIdentities.contains record.key)

/-- One record of the input. -/
def push (maxRecords maxWireBytes : Nat) (s : ChunkState) (record : BlindTransportRecord) :
    ChunkState :=
  let s := if s.wouldOverflow maxRecords maxWireBytes record then s.flush else s
  if record.wireBytes > maxWireBytes then
    let s := if s.current.isEmpty then s else s.flush
    { s with chunks := s.chunks ++ [[record]] }
  else
    { chunks := s.chunks
      current := s.current ++ [record]
      currentIdentities := record.key :: s.currentIdentities
      currentBytes := s.currentBytes + record.wireBytes
      currentScope := if s.current.isEmpty then some record.scope else s.currentScope }

/-- The chunks after the last record. -/
def finish (s : ChunkState) : List (List BlindTransportRecord) :=
  if s.current.isEmpty then s.chunks else s.chunks ++ [s.current]

end ChunkState

/-- The chunks of `deliver_many`. -/
def deliveryChunks (maxRecords maxWireBytes : Nat) (records : List BlindTransportRecord) :
    List (List BlindTransportRecord) :=
  (records.foldl (ChunkState.push maxRecords maxWireBytes) {}).finish

/-- The loop keeps records of the input only. -/
def ChunkState.From (records : List BlindTransportRecord) (s : ChunkState) : Prop :=
  (∀ chunk ∈ s.chunks, ∀ r ∈ chunk, r ∈ records) ∧ ∀ r ∈ s.current, r ∈ records

theorem ChunkState.From.flush {records : List BlindTransportRecord} {s : ChunkState}
    (h : s.From records) : s.flush.From records := by
  refine ⟨fun chunk hchunk => ?_, by rintro r ⟨⟩⟩
  rcases List.mem_append.1 hchunk with hchunk | hchunk
  · exact h.1 chunk hchunk
  · rw [List.mem_singleton.1 hchunk]
    exact h.2

theorem ChunkState.From.push {records : List BlindTransportRecord} {s : ChunkState}
    {record : BlindTransportRecord} (h : s.From records) (hrecord : record ∈ records)
    (maxRecords maxWireBytes : Nat) :
    (s.push maxRecords maxWireBytes record).From records := by
  have hstart : ChunkState.From records
      (if s.wouldOverflow maxRecords maxWireBytes record then s.flush else s) := by
    split
    · exact h.flush
    · exact h
  unfold ChunkState.push
  dsimp only
  generalize (if s.wouldOverflow maxRecords maxWireBytes record = true then s.flush else s) = t
    at hstart ⊢
  have hclosed : ChunkState.From records (if t.current.isEmpty then t else t.flush) := by
    split
    · exact hstart
    · exact hstart.flush
  split
  · refine ⟨fun chunk hchunk => ?_, hclosed.2⟩
    rcases List.mem_append.1 hchunk with hchunk | hchunk
    · exact hclosed.1 chunk hchunk
    · intro r hr
      rw [List.mem_singleton.1 hchunk] at hr
      rw [List.mem_singleton.1 hr]
      exact hrecord
  · refine ⟨hstart.1, fun r hr => ?_⟩
    rcases List.mem_append.1 hr with hr | hr
    · exact hstart.2 r hr
    · rw [List.mem_singleton.1 hr]
      exact hrecord

/-- Chunks hold records of the input. -/
theorem mem_deliveryChunks {maxRecords maxWireBytes : Nat} {records : List BlindTransportRecord}
    {chunk : List BlindTransportRecord} (h : chunk ∈ deliveryChunks maxRecords maxWireBytes records)
    {r : BlindTransportRecord} (hr : r ∈ chunk) : r ∈ records := by
  have hfold : ∀ (rest : List BlindTransportRecord) (s : ChunkState), s.From records →
      (∀ r ∈ rest, r ∈ records) →
      (rest.foldl (ChunkState.push maxRecords maxWireBytes) s).From records := by
    intro rest
    induction rest with
    | nil => exact fun s hs _ => hs
    | cons record rest ih =>
        exact fun s hs hrest => ih _ (hs.push (hrest record List.mem_cons_self) _ _)
          fun r hr => hrest r (List.mem_cons_of_mem _ hr)
  have hempty : ChunkState.From records {} := by
    refine ⟨fun chunk hchunk => ?_, fun r hr => ?_⟩
    · cases hchunk
    · cases hr
  have hfinal := hfold records {} hempty fun r hr => hr
  unfold deliveryChunks ChunkState.finish at h
  split at h
  · exact hfinal.1 chunk h r hr
  · rcases List.mem_append.1 h with h | h
    · exact hfinal.1 chunk h r hr
    · rw [List.mem_singleton.1 h] at hr
      exact hfinal.2 r hr

end Polymorph
