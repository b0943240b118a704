import Polymorph.Delivery.Chunks
import Mathlib.Algebra.Order.BigOperators.Group.List
import Mathlib.Data.List.Chain

/-!
# Chunks partition their input

The chunks of a batch delivery concatenate to its records. Every chunk of several records keeps the
bounds of the atomic writer, and no two neighbours keep them together. The invariant of the loop
treats the open chunk as the last one: the bounds are inherited by initial segments, so a pair that
breaks them goes on breaking them while the open chunk grows.
-/

set_option autoImplicit false

namespace Polymorph

variable {maxRecords maxWireBytes : Nat}

/-- The bounds that the records of one call of the atomic writer keep together. -/
structure ChunkFits (maxRecords maxWireBytes : Nat) (chunk : List BlindTransportRecord) :
    Prop where
  count : chunk.length ≤ maxRecords
  bytes : (chunk.map BlindTransportRecord.wireBytes).sum ≤ maxWireBytes
  scope : ∀ r ∈ chunk, ∀ r' ∈ chunk, r.scope = r'.scope
  identities : (chunk.map BlindTransportRecord.key).Nodup

/-- The bounds are inherited by an initial segment. -/
theorem ChunkFits.left {chunk more : List BlindTransportRecord}
    (h : ChunkFits maxRecords maxWireBytes (chunk ++ more)) :
    ChunkFits maxRecords maxWireBytes chunk := by
  have hcount := h.count
  have hbytes := h.bytes
  have hidentities := h.identities
  rw [List.length_append] at hcount
  rw [List.map_append, List.sum_append] at hbytes
  rw [List.map_append] at hidentities
  constructor
  · omega
  · omega
  · intro r hr r' hr'
    exact h.scope r (List.mem_append_left _ hr) r' (List.mem_append_left _ hr')
  · exact (List.nodup_append.1 hidentities).1

/-- A record above the byte limit breaks the bounds of every chunk. -/
theorem not_chunkFits_of_oversized {chunk : List BlindTransportRecord}
    {record : BlindTransportRecord} (hmem : record ∈ chunk)
    (hsize : maxWireBytes < record.wireBytes) : ¬ChunkFits maxRecords maxWireBytes chunk := by
  intro h
  have hle := List.single_le_sum (fun _ _ => Nat.zero_le _) _
    (List.mem_map_of_mem (f := BlindTransportRecord.wireBytes) hmem)
  exact absurd (hle.trans h.bytes) (by omega)

/-- Neighbours that break the bounds together. -/
def Separated (maxRecords maxWireBytes : Nat) (a b : List BlindTransportRecord) : Prop :=
  ¬ChunkFits maxRecords maxWireBytes (a ++ b)

/-- A chunk that the loop may close. -/
def Closable (maxRecords maxWireBytes : Nat) (chunk : List BlindTransportRecord) : Prop :=
  chunk ≠ [] ∧ (2 ≤ chunk.length → ChunkFits maxRecords maxWireBytes chunk)

namespace ChunkState

/-- The loop's state after the records `done`. -/
structure Partitions (maxRecords maxWireBytes : Nat) (done : List BlindTransportRecord)
    (s : ChunkState) : Prop where
  concatenation : s.chunks.flatten ++ s.current = done
  closed : ∀ chunk ∈ s.chunks, Closable maxRecords maxWireBytes chunk
  separated : (s.chunks ++ [s.current]).IsChain (Separated maxRecords maxWireBytes)
  count : s.current.length ≤ maxRecords ∨ s.current.length ≤ 1
  bytes : s.currentBytes = (s.current.map BlindTransportRecord.wireBytes).sum
  size : s.currentBytes ≤ maxWireBytes
  scope : ∀ r ∈ s.current, s.currentScope = some r.scope
  identities : ∀ key, key ∈ s.currentIdentities ↔ key ∈ s.current.map BlindTransportRecord.key
  distinct : (s.current.map BlindTransportRecord.key).Nodup

variable {done : List BlindTransportRecord} {s : ChunkState} {record : BlindTransportRecord}

theorem Partitions.closable_current (h : s.Partitions maxRecords maxWireBytes done)
    (hcurrent : s.current ≠ []) : Closable maxRecords maxWireBytes s.current := by
  refine ⟨hcurrent, fun hlength => ?_⟩
  constructor
  · have := h.count
    omega
  · rw [← h.bytes]
    exact h.size
  · intro r hr r' hr'
    exact Option.some_inj.1 ((h.scope r hr).symm.trans (h.scope r' hr'))
  · exact h.distinct

/-- The loop's test holds only of a record that breaks the bounds of the open chunk. -/
theorem Partitions.of_wouldOverflow (h : s.Partitions maxRecords maxWireBytes done)
    (hoverflow : s.wouldOverflow maxRecords maxWireBytes record = true) :
    s.current ≠ [] ∧ Separated maxRecords maxWireBytes s.current [record] := by
  simp only [wouldOverflow, Bool.and_eq_true, Bool.not_eq_true', List.isEmpty_eq_false_iff,
    Bool.or_eq_true, decide_eq_true_eq, List.contains_iff_mem] at hoverflow
  obtain ⟨hcurrent, hcause⟩ := hoverflow
  refine ⟨hcurrent, fun hfits => ?_⟩
  rcases hcause with ((hcount | hbytes) | hscope) | hidentity
  · have := hfits.count
    rw [List.length_append, List.length_singleton] at this
    omega
  · have := hfits.bytes
    rw [List.map_append, List.sum_append, List.map_singleton, List.sum_singleton, ← h.bytes] at this
    omega
  · obtain ⟨r, hr⟩ := List.exists_mem_of_ne_nil _ hcurrent
    refine hscope ?_
    rw [h.scope r hr, hfits.scope record (List.mem_append_right _ List.mem_cons_self) r
      (List.mem_append_left _ hr)]
  · have := hfits.identities
    rw [List.map_append, List.nodup_append] at this
    exact this.2.2 _ ((h.identities _).1 hidentity) _ List.mem_cons_self rfl

/-- A record that passes the test keeps the bounds of a chunk that is not empty. -/
theorem Partitions.of_not_wouldOverflow (h : s.Partitions maxRecords maxWireBytes done)
    (hoverflow : ¬s.wouldOverflow maxRecords maxWireBytes record = true)
    (hcurrent : s.current ≠ []) :
    s.current.length < maxRecords ∧ s.currentBytes + record.wireBytes ≤ maxWireBytes ∧
      s.currentScope = some record.scope ∧
        record.key ∉ s.current.map BlindTransportRecord.key := by
  simp only [wouldOverflow, Bool.and_eq_true, Bool.not_eq_true', List.isEmpty_eq_false_iff,
    Bool.or_eq_true, decide_eq_true_eq, List.contains_iff_mem] at hoverflow
  push Not at hoverflow
  obtain ⟨⟨⟨hcount, hbytes⟩, hscope⟩, hidentity⟩ := hoverflow hcurrent
  exact ⟨hcount, hbytes, hscope.symm, fun hmem => hidentity ((h.identities _).2 hmem)⟩

/-- Growing the last chunk keeps the neighbours separated. -/
theorem isChain_grow {chunks : List (List BlindTransportRecord)}
    {last : List BlindTransportRecord}
    (h : (chunks ++ [last]).IsChain (Separated maxRecords maxWireBytes))
    (more : List BlindTransportRecord) :
    (chunks ++ [last ++ more]).IsChain (Separated maxRecords maxWireBytes) := by
  rw [List.isChain_append] at h ⊢
  refine ⟨h.1, List.isChain_singleton _, ?_⟩
  intro a ha b hb hfits
  rw [List.head?_cons, Option.mem_some_iff] at hb
  subst hb
  rw [← List.append_assoc] at hfits
  exact h.2.2 a ha last rfl hfits.left

/-- The chunks before a record that does not join an open chunk. -/
structure Starts (maxRecords maxWireBytes : Nat) (done : List BlindTransportRecord)
    (record : BlindTransportRecord) (s : ChunkState) : Prop where
  concatenation : s.chunks.flatten = done
  closed : ∀ chunk ∈ s.chunks, Closable maxRecords maxWireBytes chunk
  separated : (s.chunks ++ [[record]]).IsChain (Separated maxRecords maxWireBytes)
  current : s.current = []
  bytes : s.currentBytes = 0
  identities : s.currentIdentities = []

/-- Closing the open chunk before a record that breaks its bounds. -/
theorem Partitions.flush (h : s.Partitions maxRecords maxWireBytes done)
    (hcurrent : s.current ≠ [])
    (hseparated : Separated maxRecords maxWireBytes s.current [record]) :
    s.flush.Starts maxRecords maxWireBytes done record where
  concatenation := by
    rw [ChunkState.flush, List.flatten_append, List.flatten_singleton, h.concatenation]
  closed := by
    intro chunk hchunk
    rcases List.mem_append.1 hchunk with hchunk | hchunk
    · exact h.closed chunk hchunk
    · rw [List.mem_singleton.1 hchunk]
      exact h.closable_current hcurrent
  separated := by
    rw [ChunkState.flush, List.append_assoc, List.singleton_append,
      List.isChain_append_cons_cons]
    exact ⟨h.separated, hseparated, List.isChain_singleton _⟩
  current := rfl
  bytes := rfl
  identities := rfl

/-- Without an open chunk every record starts one. -/
theorem Partitions.starts (h : s.Partitions maxRecords maxWireBytes done)
    (hcurrent : s.current = []) : s.Starts maxRecords maxWireBytes done record where
  concatenation := by
    have := h.concatenation
    rwa [hcurrent, List.append_nil] at this
  closed := h.closed
  separated := by
    have := isChain_grow h.separated [record]
    rwa [hcurrent, List.nil_append] at this
  current := hcurrent
  bytes := by
    rw [h.bytes, hcurrent]
    rfl
  identities := by
    rw [List.eq_nil_iff_forall_not_mem]
    intro key hkey
    rw [h.identities, hcurrent] at hkey
    cases hkey

/-- A record above the byte limit is a chunk of its own. -/
theorem Starts.oversized (h : s.Starts maxRecords maxWireBytes done record)
    (hsize : maxWireBytes < record.wireBytes) :
    Partitions maxRecords maxWireBytes (done ++ [record])
      { s with chunks := s.chunks ++ [[record]] } where
  concatenation := by
    rw [List.flatten_append, List.flatten_singleton, h.concatenation, h.current, List.append_nil]
  closed := by
    intro chunk hchunk
    rcases List.mem_append.1 hchunk with hchunk | hchunk
    · exact h.closed chunk hchunk
    · rw [List.mem_singleton.1 hchunk]
      exact ⟨List.cons_ne_nil _ _, fun hlength => absurd hlength (Nat.not_succ_le_self 1)⟩
  separated := by
    rw [List.append_assoc, List.singleton_append, List.isChain_append_cons_cons]
    refine ⟨h.separated, ?_, List.isChain_singleton _⟩
    exact not_chunkFits_of_oversized (List.mem_append_left _ List.mem_cons_self) hsize
  count := .inr (by rw [h.current]; exact Nat.zero_le 1)
  bytes := by
    rw [h.bytes, h.current]
    rfl
  size := by
    rw [h.bytes]
    exact Nat.zero_le _
  scope := by
    intro r hr
    rw [h.current] at hr
    cases hr
  identities := by
    rw [h.identities, h.current]
    exact fun _ => Iff.rfl
  distinct := by
    rw [h.current]
    exact List.nodup_nil

/-- Any other record opens a chunk. -/
theorem Starts.opens (h : s.Starts maxRecords maxWireBytes done record)
    (hsize : record.wireBytes ≤ maxWireBytes) :
    Partitions maxRecords maxWireBytes (done ++ [record]) {
      chunks := s.chunks
      current := s.current ++ [record]
      currentIdentities := record.key :: s.currentIdentities
      currentBytes := s.currentBytes + record.wireBytes
      currentScope := if s.current.isEmpty then some record.scope else s.currentScope } := by
  rw [h.current, h.bytes, h.identities, List.nil_append, Nat.zero_add]
  constructor
  · rw [h.concatenation]
  · exact h.closed
  · exact h.separated
  · exact .inr le_rfl
  · rfl
  · exact hsize
  · intro r hr
    rw [List.mem_singleton.1 hr]
    rfl
  · exact fun _ => Iff.rfl
  · exact List.nodup_singleton _

/-- A record that keeps the bounds joins the open chunk. -/
theorem Partitions.joins (h : s.Partitions maxRecords maxWireBytes done)
    (hcurrent : s.current ≠ []) (hcount : s.current.length < maxRecords)
    (hbytes : s.currentBytes + record.wireBytes ≤ maxWireBytes)
    (hscope : s.currentScope = some record.scope)
    (hidentity : record.key ∉ s.current.map BlindTransportRecord.key) :
    Partitions maxRecords maxWireBytes (done ++ [record]) {
      chunks := s.chunks
      current := s.current ++ [record]
      currentIdentities := record.key :: s.currentIdentities
      currentBytes := s.currentBytes + record.wireBytes
      currentScope := if s.current.isEmpty then some record.scope else s.currentScope } := by
  rw [List.isEmpty_eq_false_iff.2 hcurrent]
  constructor
  · rw [← List.append_assoc, h.concatenation]
  · exact h.closed
  · exact isChain_grow h.separated [record]
  · rw [List.length_append, List.length_singleton]
    exact .inl hcount
  · rw [List.map_append, List.sum_append, h.bytes, List.map_singleton, List.sum_singleton]
  · exact hbytes
  · intro r hr
    rcases List.mem_append.1 hr with hr | hr
    · exact h.scope r hr
    · rw [List.mem_singleton.1 hr]
      exact hscope
  · intro key
    rw [List.mem_cons, List.map_append, List.mem_append, List.map_singleton, List.mem_singleton,
      h.identities, or_comm]
  · rw [List.map_append, List.nodup_append]
    refine ⟨h.distinct, List.nodup_singleton _, ?_⟩
    intro key hkey key' hkey' heq
    rw [List.map_singleton, List.mem_singleton] at hkey'
    exact hidentity (hkey' ▸ heq ▸ hkey)

/-- One record of the input. -/
theorem Partitions.push (h : s.Partitions maxRecords maxWireBytes done)
    (record : BlindTransportRecord) :
    (s.push maxRecords maxWireBytes record).Partitions maxRecords maxWireBytes
      (done ++ [record]) := by
  have hstart : ∀ t : ChunkState, t.Starts maxRecords maxWireBytes done record →
      (if record.wireBytes > maxWireBytes then
        { (if t.current.isEmpty then t else t.flush) with
          chunks := (if t.current.isEmpty then t else t.flush).chunks ++ [[record]] }
      else
        { chunks := t.chunks
          current := t.current ++ [record]
          currentIdentities := record.key :: t.currentIdentities
          currentBytes := t.currentBytes + record.wireBytes
          currentScope := if t.current.isEmpty then some record.scope
            else t.currentScope : ChunkState }).Partitions maxRecords maxWireBytes
        (done ++ [record]) := by
    intro t ht
    split
    · rename_i hsize
      rw [ht.current, List.isEmpty_nil, if_pos rfl]
      exact ht.oversized hsize
    · rename_i hsize
      exact ht.opens (Nat.le_of_not_lt hsize)
  unfold ChunkState.push
  by_cases hoverflow : s.wouldOverflow maxRecords maxWireBytes record = true
  · obtain ⟨hcurrent, hseparated⟩ := h.of_wouldOverflow hoverflow
    rw [if_pos hoverflow]
    exact hstart _ (h.flush hcurrent hseparated)
  · rw [if_neg hoverflow]
    by_cases hcurrent : s.current = []
    · exact hstart _ (h.starts hcurrent)
    · obtain ⟨hcount, hbytes, hscope, hidentity⟩ := h.of_not_wouldOverflow hoverflow hcurrent
      dsimp only
      rw [if_neg (by omega)]
      exact h.joins hcurrent hcount hbytes hscope hidentity

theorem partitions_start : Partitions maxRecords maxWireBytes [] {} where
  concatenation := rfl
  closed := fun _ h => nomatch h
  separated := List.isChain_singleton _
  count := .inr (Nat.zero_le 1)
  bytes := rfl
  size := Nat.zero_le _
  scope := fun _ h => nomatch h
  identities := fun _ => Iff.rfl
  distinct := List.nodup_nil

/-- The whole input. -/
theorem Partitions.foldl (h : s.Partitions maxRecords maxWireBytes done)
    (records : List BlindTransportRecord) :
    (records.foldl (ChunkState.push maxRecords maxWireBytes) s).Partitions maxRecords maxWireBytes
      (done ++ records) := by
  induction records generalizing s done with
  | nil =>
      rw [List.append_nil]
      exact h
  | cons record records ih =>
      have hstep := ih (h.push record)
      rwa [List.append_assoc, List.singleton_append] at hstep

end ChunkState

/-- **Faithful partition.** The chunks concatenate to the input, a chunk of several records keeps
the bounds, and two neighbours never keep them together. -/
theorem deliveryChunks_partition (maxRecords maxWireBytes : Nat)
    (records : List BlindTransportRecord) :
    (deliveryChunks maxRecords maxWireBytes records).flatten = records ∧
      (∀ chunk ∈ deliveryChunks maxRecords maxWireBytes records,
        chunk ≠ [] ∧ (2 ≤ chunk.length → ChunkFits maxRecords maxWireBytes chunk)) ∧
      ∀ before a b after, deliveryChunks maxRecords maxWireBytes records =
        before ++ a :: b :: after → ¬ChunkFits maxRecords maxWireBytes (a ++ b) := by
  have hfinal : ChunkState.Partitions maxRecords maxWireBytes records
      (records.foldl (ChunkState.push maxRecords maxWireBytes) {}) :=
    ChunkState.partitions_start.foldl records
  unfold deliveryChunks ChunkState.finish
  generalize records.foldl (ChunkState.push maxRecords maxWireBytes) {} = s at hfinal ⊢
  have hneighbours : ∀ {chunks : List (List BlindTransportRecord)},
      chunks.IsChain (Separated maxRecords maxWireBytes) → ∀ before a b after,
        chunks = before ++ a :: b :: after → ¬ChunkFits maxRecords maxWireBytes (a ++ b) := by
    rintro _ hchain before a b after rfl
    exact (List.isChain_append_cons_cons.1 hchain).2.1
  by_cases hcurrent : s.current = []
  · rw [hcurrent, List.isEmpty_nil, if_pos rfl]
    refine ⟨?_, hfinal.closed, hneighbours (List.isChain_append.1 hfinal.separated).1⟩
    have hconcatenation := hfinal.concatenation
    rwa [hcurrent, List.append_nil] at hconcatenation
  · rw [List.isEmpty_eq_false_iff.2 hcurrent, if_neg Bool.false_ne_true]
    refine ⟨?_, ?_, hneighbours hfinal.separated⟩
    · rw [List.flatten_append, List.flatten_singleton, hfinal.concatenation]
    · intro chunk hchunk
      rcases List.mem_append.1 hchunk with hchunk | hchunk
      · exact hfinal.closed chunk hchunk
      · rw [List.mem_singleton.1 hchunk]
        exact hfinal.closable_current hcurrent

end Polymorph
