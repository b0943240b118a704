import Polymorph.Inspection.ZipDirectory

/-!
# What the ZIP preflight establishes

The directory that the preflight counts is the one that ends where the selected end record begins:
its bytes lie in the file, the loop reads nowhere else, and what it counted are consecutive
records.
-/

set_option autoImplicit false

namespace Polymorph

namespace ContentInspector

open Bytes Loop

variable {file : List UInt8}

/-- The end record of a file: its last signature, with a comment that ends the file. -/
structure EndRecordAt (file : List UInt8) (offset : Nat) : Prop where
  signature : At file offset zipEocdSignature
  comment : offset + zipEocdSize + number file (offset + 20) 2 = file.length
  last : ∀ later, offset < later → ¬At file later zipEocdSignature

/-- Where the selected record begins: the end record, or the ZIP64 end record before its locator
when there is a locator before the end record. -/
inductive SelectedEnd (file : List UInt8) : Nat → Prop
  | classic {offset : Nat} (hend : EndRecordAt file offset)
      (hlocator : ¬(zip64LocatorSize ≤ offset ∧
        At file (offset - zip64LocatorSize) zip64LocatorSignature)) : SelectedEnd file offset
  | zip64 {offset : Nat} (hend : EndRecordAt file offset)
      (hroom : zip64LocatorSize + zip64EocdMinSize ≤ offset)
      (hlocator : At file (offset - zip64LocatorSize) zip64LocatorSignature)
      (hrecord : At file (offset - zip64LocatorSize - zip64EocdMinSize) zip64EocdSignature) :
      SelectedEnd file (offset - zip64LocatorSize - zip64EocdMinSize)

/-- The bytes from `start` to an offset are so many consecutive central-directory records: each
begins with the signature and spans its header and the three lengths that the header declares. -/
inductive DirectoryRecords (file : List UInt8) (start : Nat) : Nat → Nat → Prop
  | nil : DirectoryRecords file start start 0
  | snoc {position count : Nat} (hbefore : DirectoryRecords file start position count)
      (hsignature : At file position zipCentralDirectorySignature) :
      DirectoryRecords file start
        (position + (zipCentralDirectoryHeaderSize + (number file (position + 28) 2 +
          number file (position + 30) 2 + number file (position + 32) 2)))
        (count + 1)

/-! ## The directory -/

theorem selectEndRecord_spec {offset : Nat} {record : ZipEndRecord}
    (h : selectEndRecord file = .ok (offset, record)) : EndRecordAt file offset := by
  rw [selectEndRecord] at h
  obtain ⟨hlength, h⟩ := guard_eq_ok h
  have hlength := of_not_not hlength
  -- the tail is the end of the file
  generalize hsize : min file.length (zipEocdSize + zipMaxCommentBytes) = tailSize at h hlength
  have hle : tailSize ≤ file.length := hsize ▸ Nat.min_le_left ..
  cases hfind : rfind zipEocdSignature (window file (file.length - tailSize) tailSize) with
  | none =>
      rw [hfind] at h
      exact nomatch h
  | some index =>
      rw [hfind] at h
      obtain ⟨hroom, h⟩ := guard_eq_ok h
      obtain ⟨hcomment, h⟩ := guard_eq_ok h
      obtain ⟨-, h⟩ := guard_eq_ok h
      cases h
      rw [hlength] at hroom hcomment
      obtain ⟨hat, hlast⟩ := rfind_eq_some hfind (List.cons_ne_nil _ _)
      have hsum : index + 22 ≤ tailSize := Nat.not_lt.mp hroom
      refine ⟨(at_window_iff ?_).mp hat, ?_, ?_⟩
      · exact Nat.le_trans (Nat.add_le_add_left (by decide) index) hsum
      · have hnumber := @number_window file (file.length - tailSize) tailSize (index + 20) 2 hsum
        have htotal : index + 22 + number (window file (file.length - tailSize) tailSize)
            (index + 20) 2 = tailSize := of_not_not hcomment
        rw [hnumber, ← Nat.add_assoc] at htotal
        change file.length - tailSize + index + 22 + _ = _
        omega
      · intro later hlater hat'
        have hwithin := hat'.length_le (List.cons_ne_nil _ _)
        change later + 4 ≤ file.length at hwithin
        have heq : later = file.length - tailSize + (later - (file.length - tailSize)) := by omega
        refine hlast (later - (file.length - tailSize)) (by omega) ((at_window_iff ?_).mpr ?_)
        · change later - (file.length - tailSize) + 4 ≤ tailSize
          omega
        · exact heq ▸ hat'

theorem zip64Extent_spec {locatorOffset : Nat} {locator : Zip64Locator} {record : ZipEndRecord}
    {extent : DirectoryExtent} (h : zip64Extent file locatorOffset locator record = .ok extent) :
    zip64EocdMinSize ≤ locatorOffset ∧
      extent.physicalDirectoryEnd = locatorOffset - zip64EocdMinSize ∧
      At file (locatorOffset - zip64EocdMinSize) zip64EocdSignature := by
  rw [zip64Extent] at h
  obtain ⟨-, h⟩ := guard_eq_ok h
  obtain ⟨hroom, h⟩ := guard_eq_ok h
  obtain ⟨-, h⟩ := guard_eq_ok h
  obtain ⟨hvalues, h⟩ := guard_eq_ok h
  obtain ⟨-, h⟩ := guard_eq_ok h
  obtain ⟨-, h⟩ := guard_eq_ok h
  cases h
  have hsignature := of_not_not (not_or.mp hvalues).1
  exact ⟨Nat.not_lt.mp hroom, rfl, (at_window_iff (by decide)).mp hsignature⟩

theorem classicExtent_spec {eocdOffset : Nat} {record : ZipEndRecord} {extent : DirectoryExtent}
    (h : classicExtent eocdOffset record = .ok extent) :
    extent.physicalDirectoryEnd = eocdOffset := by
  rw [classicExtent] at h
  obtain ⟨-, h⟩ := guard_eq_ok h
  obtain ⟨-, h⟩ := guard_eq_ok h
  cases h
  rfl

/-- The directory is taken to end where the selected record begins. -/
theorem directoryExtent_spec {offset : Nat} {record : ZipEndRecord} {extent : DirectoryExtent}
    (hend : EndRecordAt file offset) (h : directoryExtent file offset record = .ok extent) :
    SelectedEnd file extent.physicalDirectoryEnd := by
  have hlocator := @at_window_iff file (offset - zip64LocatorSize) zip64LocatorSize 0
    zip64LocatorSignature (by decide)
  rw [Nat.add_zero] at hlocator
  rw [directoryExtent] at h
  split at h
  · rename_i hfound
    obtain ⟨hroom, hphysical, hrecord⟩ := zip64Extent_spec h
    rw [hphysical]
    refine .zip64 hend ?_ (hlocator.mp hfound.2.2) hrecord
    have hsize := hfound.1
    omega
  · rename_i hfound
    rw [classicExtent_spec h]
    refine .classic hend ?_
    rintro ⟨hroom, hat⟩
    have hinside := hend.comment
    refine hfound ⟨hroom, length_window ?_, hlocator.mpr hat⟩
    omega

theorem zipDirectoryMetadata_spec {metadata : ZipDirectoryMetadata}
    (h : zipDirectoryMetadata file = .ok metadata) :
    SelectedEnd file (metadata.physicalOffset + metadata.sizeBytes) := by
  rw [zipDirectoryMetadata] at h
  obtain ⟨⟨offset, record⟩, hselect, h⟩ := bind_eq_ok h
  obtain ⟨-, h⟩ := guard_eq_ok h
  obtain ⟨extent, hextent, h⟩ := bind_eq_ok h
  obtain ⟨-, h⟩ := guard_eq_ok h
  obtain ⟨hsize, h⟩ := guard_eq_ok h
  cases h
  have hstop : extent.physicalDirectoryEnd - extent.directorySize + extent.directorySize =
      extent.physicalDirectoryEnd := Nat.sub_add_cancel (Nat.not_lt.mp hsize)
  change SelectedEnd file (extent.physicalDirectoryEnd - extent.directorySize +
    extent.directorySize)
  rw [hstop]
  exact directoryExtent_spec (selectEndRecord_spec hselect) hextent

theorem SelectedEnd.le_length {stop : Nat} (h : SelectedEnd file stop) : stop ≤ file.length := by
  cases h with
  | classic hend _ =>
      have hcomment := hend.comment
      omega
  | zip64 hend _ _ _ =>
      have hcomment := hend.comment
      omega

/-! ## The loop -/

/-- What holds between the turns. -/
structure Counting (file : List UInt8) (metadata : ZipDirectoryMetadata) (stopAfter : Nat)
    (s : EntryCount) : Prop where
  position : s.position + s.remaining = metadata.physicalOffset + metadata.sizeBytes
  count : s.count ≤ stopAfter
  records : DirectoryRecords file metadata.physicalOffset s.position s.count
  start : metadata.physicalOffset ≤ s.position
  reads : ∀ r ∈ s.reads, metadata.physicalOffset ≤ r.1 ∧
    r.1 + r.2 ≤ metadata.physicalOffset + metadata.sizeBytes

/-- What the loop is left with. -/
structure Counted (file : List UInt8) (metadata : ZipDirectoryMetadata) (stopAfter : Nat)
    (result : EntryCountResult) : Prop where
  all : ∀ n, result.outcome = .ok (n, false) → n ≤ stopAfter ∧
    DirectoryRecords file metadata.physicalOffset
      (metadata.physicalOffset + metadata.sizeBytes) n
  more : ∀ n, result.outcome = .ok (n, true) → n = stopAfter + 1 ∧
    ∃ stop ≤ metadata.physicalOffset + metadata.sizeBytes,
      DirectoryRecords file metadata.physicalOffset stop (stopAfter + 1)
  reads : ∀ r ∈ result.reads, metadata.physicalOffset ≤ r.1 ∧
    r.1 + r.2 ≤ metadata.physicalOffset + metadata.sizeBytes

theorem counted_error {metadata : ZipDirectoryMetadata} {stopAfter : Nat} {e : Exn}
    {reads : List (Nat × Nat)}
    (hreads : ∀ r ∈ reads, metadata.physicalOffset ≤ r.1 ∧
      r.1 + r.2 ≤ metadata.physicalOffset + metadata.sizeBytes) :
    Counted file metadata stopAfter ⟨.error e, reads⟩ where
  all _ h := nomatch h
  more _ h := nomatch h
  reads := hreads

section Turn

variable {metadata : ZipDirectoryMetadata} {stopAfter : Nat} {s : EntryCount}

theorem variableSize_window (file : List UInt8) (position : Nat) :
    variableSize (window file position zipCentralDirectoryHeaderSize) =
      number file (position + 28) 2 + number file (position + 30) 2 +
        number file (position + 32) 2 := by
  rw [variableSize, number_window (by decide), number_window (by decide),
    number_window (by decide)]

/-- The read of a header stays in the directory. -/
theorem Counting.read (h : Counting file metadata stopAfter s)
    (hroom : zipCentralDirectoryHeaderSize ≤ s.remaining) :
    ∀ r ∈ s.reads ++ [(s.position, zipCentralDirectoryHeaderSize)],
      metadata.physicalOffset ≤ r.1 ∧
        r.1 + r.2 ≤ metadata.physicalOffset + metadata.sizeBytes := by
  intro r hr
  rcases List.mem_append.mp hr with hr | hr
  · exact h.reads r hr
  · rw [List.mem_singleton.mp hr, ← h.position]
    exact ⟨h.start, Nat.add_le_add_left hroom _⟩

/-- A turn keeps the invariant and counts a record, or it leaves the loop with what was counted. -/
theorem countTurn_spec (h : Counting file metadata stopAfter s) :
    (∃ result, countTurn file stopAfter s = .leave result ∧
      Counted file metadata stopAfter result) ∨
    ∃ s', countTurn file stopAfter s = .again s' ∧ Counting file metadata stopAfter s' ∧
      s'.count = s.count + 1 := by
  rw [countTurn]
  split
  · rename_i hremaining
    have hposition := h.position
    rw [hremaining, Nat.add_zero] at hposition
    refine .inl ⟨_, rfl, ?_, ?_, h.reads⟩
    · rintro n hn
      cases hn
      exact ⟨h.count, hposition ▸ h.records⟩
    · exact fun n hn => nomatch hn
  · split
    · exact .inl ⟨_, rfl, counted_error h.reads⟩
    · rename_i hroom
      have hreads := h.read (Nat.not_lt.mp hroom)
      dsimp only
      split
      · exact .inl ⟨_, rfl, counted_error hreads⟩
      · split
        · exact .inl ⟨_, rfl, counted_error hreads⟩
        · rename_i hsignature
          split
          · exact .inl ⟨_, rfl, counted_error hreads⟩
          · rename_i hsize
            have hposition := h.position
            have hat : At file s.position zipCentralDirectorySignature := by
              have hat := (@at_window_iff file s.position zipCentralDirectoryHeaderSize 0
                zipCentralDirectorySignature (by decide)).mp (of_not_not hsignature)
              rwa [Nat.add_zero] at hat
            have hrecords := h.records.snoc hat
            rw [← variableSize_window] at hrecords
            split
            · -- one record more than the limit
              rename_i hcount
              have heq : s.count = stopAfter := by
                have hle := h.count
                omega
              refine .inl ⟨_, rfl, fun n hn => (nomatch hn), ?_, hreads⟩
              rintro n hn
              cases hn
              rw [heq] at hrecords ⊢
              refine ⟨rfl, _, ?_, hrecords⟩
              omega
            · rename_i hcount
              refine .inr ⟨_, rfl, ⟨?_, Nat.not_lt.mp hcount, hrecords, ?_, hreads⟩, rfl⟩
              · dsimp only
                omega
              · exact Nat.le_trans h.start (Nat.le_add_right _ _)

end Turn

theorem counting_start (file : List UInt8) (metadata : ZipDirectoryMetadata) (stopAfter : Nat) :
    Counting file metadata stopAfter (startCount metadata) where
  position := rfl
  count := Nat.zero_le _
  records := .nil
  start := Nat.le_refl _
  reads _ hr := nomatch hr

/-- The loop takes at most one turn for each record that it may count, and one. -/
theorem countZipDirectoryEntries_spec (file : List UInt8) (metadata : ZipDirectoryMetadata)
    (stopAfter : Nat) :
    ∃ result, countZipDirectoryEntries (stopAfter + 1) file metadata stopAfter = some result ∧
      Counted file metadata stopAfter result := by
  have hkeep : ∀ s s', Counting file metadata stopAfter s →
      countTurn file stopAfter s = .again s' →
      Counting file metadata stopAfter s' ∧ s'.count = s.count + 1 := by
    intro s s' hs hturn
    rcases countTurn_spec hs with ⟨_, hleave, -⟩ | ⟨t, hagain, ht, hcount⟩
    · rw [hturn] at hleave
      exact nomatch hleave
    · rw [hturn] at hagain
      cases hagain
      exact ⟨ht, hcount⟩
  have hlower : ∀ s s', Counting file metadata stopAfter s →
      countTurn file stopAfter s = .again s' → stopAfter - s'.count < stopAfter - s.count := by
    intro s s' hs hturn
    obtain ⟨hs', hcount⟩ := hkeep s s' hs hturn
    have hle := hs'.count
    omega
  have hstart := counting_start file metadata stopAfter
  obtain ⟨result, hrun⟩ := run_of_measure (fun s s' hs hturn => (hkeep s s' hs hturn).1) hlower
    hstart
  refine ⟨result, hrun, ?_⟩
  have hleaves : Leaves (countTurn file stopAfter) (startCount metadata) result := ⟨_, hrun⟩
  obtain ⟨s, hs, hleave⟩ :=
    hleaves.invariant (fun s s' hs hturn => (hkeep s s' hs hturn).1) hstart
  rcases countTurn_spec hs with ⟨r, hr, hcounted⟩ | ⟨s', hagain, -, -⟩
  · rw [hleave] at hr
    cases hr
    exact hcounted
  · rw [hleave] at hagain
    exact nomatch hagain

/-- The preflight of a ZIP directory is bounded and exact. -/
theorem zip_preflight {metadata : ZipDirectoryMetadata}
    (h : zipDirectoryMetadata file = .ok metadata) (stopAfter : Nat) :
    (∃ stop, SelectedEnd file stop ∧ stop ≤ file.length ∧
        metadata.physicalOffset + metadata.sizeBytes = stop) ∧
      ∃ result, countZipDirectoryEntries (stopAfter + 1) file metadata stopAfter = some result ∧
        (∀ n, result.outcome = .ok (n, false) → n ≤ stopAfter ∧
          DirectoryRecords file metadata.physicalOffset
            (metadata.physicalOffset + metadata.sizeBytes) n) ∧
        (∀ n, result.outcome = .ok (n, true) → n = stopAfter + 1 ∧
          ∃ stop ≤ metadata.physicalOffset + metadata.sizeBytes,
            DirectoryRecords file metadata.physicalOffset stop (stopAfter + 1)) ∧
        ∀ r ∈ result.reads, metadata.physicalOffset ≤ r.1 ∧
          r.1 + r.2 ≤ metadata.physicalOffset + metadata.sizeBytes := by
  have hselected := zipDirectoryMetadata_spec h
  obtain ⟨result, hrun, hcounted⟩ := countZipDirectoryEntries_spec file metadata stopAfter
  exact ⟨⟨_, hselected, hselected.le_length, rfl⟩,
    result, hrun, hcounted.all, hcounted.more, hcounted.reads⟩

/-- An archive with one empty entry: a central-directory header and the end record. -/
def sampleArchive : List UInt8 :=
  [0x50, 0x4b, 1, 2] ++ List.replicate 42 0 ++
    ([0x50, 0x4b, 5, 6, 0, 0, 0, 0, 1, 0, 1, 0, 46, 0, 0, 0, 0, 0, 0, 0, 0, 0] : List UInt8)

theorem zipDirectoryMetadata_sample :
    zipDirectoryMetadata sampleArchive = .ok ⟨1, 46, 0, 0⟩ := by decide +kernel

theorem zip_preflight_sample :
    ∃ result, countZipDirectoryEntries 2 sampleArchive ⟨1, 46, 0, 0⟩ 1 = some result ∧
      ∀ n, result.outcome = .ok (n, false) → n ≤ 1 := by
  obtain ⟨-, result, hrun, hall, -⟩ := zip_preflight zipDirectoryMetadata_sample 1
  exact ⟨result, hrun, fun n hn => (hall n hn).1⟩

end ContentInspector

end Polymorph
