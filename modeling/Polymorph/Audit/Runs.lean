import Polymorph.Audit.History

/-!
# Runs over one audit file

Any number of logs append to a file, and someone else deletes and changes rows. An append succeeds
only while every row that was ever inserted is still there; a table that nobody touched verifies to
the number of its events, and its counters are those of its rows.
-/

set_option autoImplicit false

namespace Polymorph

open JsonText Utc

/-- What happens to a file: a log is created on it, a log appends, or its rows are deleted or
changed from outside. -/
inductive AuditStep where
  | opened
  | append (log : AuditLog) (now : Nat → Instant) (fault : Option Exn)
      (events : List (Except Exn (Option AuditEvent)))
  | deleted (gone : AuditRow → Bool)
  | updated (change : AuditRow → AuditRow)

/-- The file, and all records that appends returned. -/
structure AuditHistory where
  file : AuditFile := {}
  returned : List AuditRecord := []

namespace AuditHistory

variable (H : Host)

def step (h : AuditHistory) : AuditStep → AuditHistory
  | .opened => { h with file := h.file.initialized }
  | .append log now fault events =>
      match log.appendMany H now fault events h.file with
      | (.ok records, file) => ⟨file, h.returned ++ records⟩
      | (.error _, file) => { h with file := file }
  | .deleted gone => { h with file := h.file.delete gone }
  | .updated change => { h with file := h.file.update change }

/-- A run on a new file. -/
def run (steps : List AuditStep) : AuditHistory := steps.foldl (step H) {}

end AuditHistory

/-! ## Inserting -/

namespace AuditFile

/-- The number that AUTOINCREMENT counts on from. -/
def top (file : AuditFile) : Nat := max file.autoincrement file.lastSequence

theorem insert_ok {file inserted : AuditFile} {eventJson previousHash eventHash : String}
    {signature : Option (List UInt8)}
    (h : file.insert eventJson previousHash eventHash signature = .ok inserted) :
    ∃ row : AuditRow, inserted.events = file.events ++ [row] ∧ row.sequence = file.top + 1 ∧
      inserted.autoincrement = file.top + 1 := by
  unfold insert at h
  split at h
  · cases h
  · cases h
    exact ⟨_, rfl, rfl, rfl⟩

theorem lastSequence_concat {file : AuditFile} {rows : List AuditRow} {row : AuditRow}
    (h : file.events = rows ++ [row]) : file.lastSequence = row.sequence := by
  unfold lastSequence
  rw [h, List.getLast?_concat]
  rfl

theorem top_inserted {file inserted : AuditFile} {eventJson previousHash eventHash : String}
    {signature : Option (List UInt8)}
    (h : file.insert eventJson previousHash eventHash signature = .ok inserted) :
    inserted.top = file.top + 1 := by
  obtain ⟨row, hevents, hsequence, hautoincrement⟩ := insert_ok h
  unfold top
  rw [lastSequence_concat hevents, hsequence, hautoincrement]
  exact Nat.max_self _

/-- Rows in order are not behind the last one. -/
theorem le_lastSequence {file : AuditFile}
    (h : (file.events.map AuditRow.sequence).Pairwise (· < ·)) {row : AuditRow}
    (hrow : row ∈ file.events) : row.sequence ≤ file.lastSequence := by
  rcases List.eq_nil_or_concat file.events with hnil | ⟨rows, last, hevents⟩
  · rw [hnil] at hrow
    cases hrow
  rw [List.concat_eq_append] at hevents
  rw [lastSequence_concat hevents]
  rw [hevents, List.map_append, List.pairwise_append] at h
  rw [hevents, List.mem_append] at hrow
  rcases hrow with hrow | hrow
  · exact Nat.le_of_lt
      (h.2.2 _ (List.mem_map_of_mem hrow) _ (List.mem_map_of_mem (List.mem_singleton_self last)))
  · rw [List.mem_singleton.mp hrow]

end AuditFile

namespace AuditLog

/-- Records of a chain, from this digest and sequence number on. -/
inductive ChainedFrom : String → Nat → List AuditRecord → Prop where
  | nil {previousHash : String} {sequence : Nat} : ChainedFrom previousHash sequence []
  | cons {previousHash : String} {sequence : Nat} {record : AuditRecord} {rest : List AuditRecord}
      (hsequence : record.sequence = sequence) (hprevious : record.previousHash = previousHash)
      (hhash : record.eventHash = chainHash previousHash (canonical (.obj record.event)))
      (hrest : ChainedFrom record.eventHash (sequence + 1) rest) :
      ChainedFrom previousHash sequence (record :: rest)

/-- The hash that a chain ends in. -/
def lastHash (previousHash : String) (records : List AuditRecord) : String :=
  (records.getLast?.map AuditRecord.eventHash).getD previousHash

theorem lastHash_cons (previousHash : String) (record : AuditRecord) (rest : List AuditRecord) :
    lastHash previousHash (record :: rest) = lastHash record.eventHash rest := by
  unfold lastHash
  rw [List.getLast?_cons]
  cases rest.getLast? with
  | none => rfl
  | some last => rfl

theorem ChainedFrom.sequences {previousHash : String} {sequence : Nat}
    {records : List AuditRecord} (h : ChainedFrom previousHash sequence records) :
    records.map AuditRecord.sequence = List.range' sequence records.length := by
  induction h with
  | nil => rfl
  | cons hsequence _ _ _ ih =>
      rw [List.map_cons, ih, hsequence, List.length_cons, List.range'_succ]

theorem ChainedFrom.append {previousHash : String} {sequence : Nat}
    {records more : List AuditRecord} (h : ChainedFrom previousHash sequence records)
    (hmore : ChainedFrom (lastHash previousHash records) (sequence + records.length) more) :
    ChainedFrom previousHash sequence (records ++ more) := by
  induction h with
  | nil => exact hmore
  | cons hsequence hprevious hhash _ ih =>
      refine .cons hsequence hprevious hhash (ih ?_)
      rw [lastHash_cons, List.length_cons, Nat.add_comm _ 1, ← Nat.add_assoc] at hmore
      exact hmore

variable {log : AuditLog}

/-- What the inserts do. -/
theorem insertAll_ok {sequence : Nat} {previousHash : String}
    {prepared : List (List (String × Json))} {file last : AuditFile} {records : List AuditRecord}
    (h : log.insertAll sequence previousHash prepared file = .ok (records, last)) :
    ChainedFrom previousHash (sequence + 1) records ∧
      records.map AuditRecord.event = prepared ∧
      (∀ record ∈ records,
        record.signature = log.signer.map fun s => s.sign (digestBytes record.eventHash)) ∧
      (∃ rows, last.events = file.events ++ rows ∧
        rows.map AuditRow.sequence = List.range' (file.top + 1) prepared.length) ∧
      (prepared ≠ [] → last.autoincrement = file.top + prepared.length) := by
  induction prepared generalizing sequence previousHash file records with
  | nil =>
      cases h
      refine ⟨.nil, rfl, List.forall_mem_nil _, ⟨[], (List.append_nil _).symm, rfl⟩, ?_⟩
      intro hne
      exact absurd rfl hne
  | cons payload rest ih =>
      unfold insertAll at h
      obtain ⟨eventHash, hhash, h⟩ := bind_eq_ok h
      obtain ⟨inserted, hinsert, h⟩ := bind_eq_ok h
      obtain ⟨⟨others, after⟩, hothers, h⟩ := bind_eq_ok h
      cases h
      obtain ⟨row, hevents, hsequence, hautoincrement⟩ := AuditFile.insert_ok hinsert
      have htop := AuditFile.top_inserted hinsert
      obtain ⟨hchained, hpayloads, hsigned, ⟨rows, hrows, hsequences⟩, hlast⟩ := ih hothers
      refine ⟨.cons rfl rfl (hashEncoded_ok hhash) hchained, congrArg (payload :: ·) hpayloads,
        List.forall_mem_cons.mpr ⟨rfl, hsigned⟩, ⟨row :: rows, ?_, ?_⟩, fun _ => ?_⟩
      · rw [hrows, hevents, List.append_assoc]
        rfl
      · rw [List.map_cons, hsequence, hsequences, htop, List.length_cons, List.range'_succ]
      · rw [List.length_cons]
        cases rest with
        | nil =>
            cases hothers
            exact hautoincrement
        | cons next rest =>
            rw [hlast (List.cons_ne_nil _ _), htop, Nat.add_assoc, Nat.add_comm 1]

/-- What a transaction has checked that returns. -/
structure Appended (log : AuditLog) (prepared : List (List (String × Json))) (file : AuditFile)
    (records : List AuditRecord) (last : AuditFile) (usage : AuditUsage) : Prop where
  before : file.usage = some usage
  counted : usage.eventCount = file.lastSequence
  eventQuota : usage.eventCount + prepared.length ≤ log.maxEvents
  byteQuota : usage.logicalBytes + log.additionalBytes prepared ≤ log.maxLogicalBytes
  chained : ChainedFrom ((file.events.getLast?.map AuditRow.eventHash).getD genesisHash)
    (file.lastSequence + 1) records
  payloads : records.map AuditRecord.event = prepared
  signed : ∀ record ∈ records,
    record.signature = log.signer.map fun s => s.sign (digestBytes record.eventHash)
  inserted : ∃ rows, last.events = file.events ++ rows ∧
    rows.map AuditRow.sequence = List.range' (file.top + 1) prepared.length
  autoincrement : prepared ≠ [] → last.autoincrement = file.top + prepared.length
  stored : last.events.filter (file.lastSequence < ·.sequence) = records.map AuditRecord.row
  usageAfter : last.usage = some ⟨file.lastSequence + prepared.length,
    usage.logicalBytes + log.additionalBytes prepared⟩

theorem appendPrepared_ok {prepared : List (List (String × Json))} {file last : AuditFile}
    {records : List AuditRecord} (h : log.appendPrepared prepared file = .ok (records, last)) :
    ∃ usage, log.Appended prepared file records last usage := by
  unfold appendPrepared at h
  cases husage : file.usage with
  | none =>
      rw [husage] at h
      cases h
  | some usage =>
      rw [husage] at h
      obtain ⟨hcounted, h⟩ := guard_eq_ok h
      obtain ⟨hevents, h⟩ := guard_eq_ok h
      obtain ⟨hbytes, h⟩ := guard_eq_ok h
      obtain ⟨⟨written, after⟩, hinserted, h⟩ := bind_eq_ok h
      obtain ⟨hstored, h⟩ := guard_eq_ok h
      obtain ⟨husageAfter, h⟩ := guard_eq_ok h
      cases h
      obtain ⟨hchained, hpayloads, hsigned, hrows, hautoincrement⟩ := insertAll_ok hinserted
      exact ⟨usage, husage, not_not.mp hcounted, Nat.le_of_not_lt hevents,
        Nat.le_of_not_lt hbytes, hchained, hpayloads, hsigned, hrows, hautoincrement,
        not_not.mp hstored, not_not.mp husageAfter⟩

/-- The rows behind the last one are the new ones. -/
theorem Appended.rows {prepared : List (List (String × Json))} {file last : AuditFile}
    {records : List AuditRecord} {usage : AuditUsage}
    (h : log.Appended prepared file records last usage)
    (hincreasing : (file.events.map AuditRow.sequence).Pairwise (· < ·)) :
    last.events = file.events ++ records.map AuditRecord.row ∧
      records.map AuditRecord.sequence = List.range' (file.top + 1) prepared.length := by
  obtain ⟨rows, hrows, hsequences⟩ := h.inserted
  -- The read-back takes the rows behind the last one: none of the old, all of the new.
  have hold : file.events.filter (file.lastSequence < ·.sequence) = [] := by
    rw [List.filter_eq_nil_iff]
    intro row hrow
    rw [decide_eq_true_eq]
    exact Nat.not_lt.mpr (AuditFile.le_lastSequence hincreasing hrow)
  have hnew : rows.filter (file.lastSequence < ·.sequence) = rows := by
    rw [List.filter_eq_self]
    intro row hrow
    have hmem := List.mem_map_of_mem (f := AuditRow.sequence) hrow
    rw [hsequences, List.mem_range'_1] at hmem
    exact decide_eq_true (Nat.lt_of_le_of_lt (Nat.le_max_right _ _) hmem.1)
  have hstored := h.stored
  rw [hrows, List.filter_append, hold, hnew, List.nil_append] at hstored
  refine ⟨by rw [hrows, hstored], ?_⟩
  rw [← hsequences, hstored, List.map_map]
  rfl

/-- An append of something goes on where AUTOINCREMENT stands. -/
theorem Appended.top_eq {prepared : List (List (String × Json))} {file last : AuditFile}
    {records : List AuditRecord} {usage : AuditUsage}
    (h : log.Appended prepared file records last usage) (hne : prepared ≠ [])
    (hincreasing : (file.events.map AuditRow.sequence).Pairwise (· < ·)) :
    file.top = file.lastSequence := by
  -- AUTOINCREMENT numbers the rows from `top` on, the expected records from the last row on.
  have hsequences := (h.rows hincreasing).2
  have hchain := h.chained.sequences
  have hlength : records.length = prepared.length := by
    rw [← h.payloads, List.length_map]
  rw [hsequences, hlength] at hchain
  cases prepared with
  | nil => exact absurd rfl hne
  | cons payload rest =>
      rw [List.length_cons, List.range'_succ, List.range'_succ] at hchain
      exact Nat.succ.inj (List.cons.inj hchain).1

/-- A call of `append_many` raises and changes nothing, has nothing to append, or goes through. -/
theorem appendMany_cases (H : Host) (log : AuditLog) (now : Nat → Instant) (fault : Option Exn)
    (events : List (Except Exn (Option AuditEvent))) (file : AuditFile) :
    (∃ e, log.appendMany H now fault events file = (.error e, file)) ∨
      log.appendMany H now fault events file = (.ok [], file) ∨
      ∃ prepared records last usage, prepared ≠ [] ∧ prepare H now 0 0 events = .ok prepared ∧
        log.Appended prepared file records last usage ∧
        log.appendMany H now fault events file = (.ok records, last) := by
  unfold appendMany
  cases log.readOnly with
  | true => exact .inl ⟨_, rfl⟩
  | false =>
      cases hprepared : prepare H now 0 0 events with
      | error e => exact .inl ⟨e, rfl⟩
      | ok prepared =>
          cases prepared with
          | nil => exact .inr (.inl rfl)
          | cons payload rest =>
              cases fault with
              | some e => exact .inl ⟨e, rfl⟩
              | none =>
                  cases happend : log.appendPrepared (payload :: rest) file with
                  | error e =>
                      refine .inl ⟨e, ?_⟩
                      simp [happend]
                  | ok result =>
                      obtain ⟨records, last⟩ := result
                      obtain ⟨usage, happended⟩ := appendPrepared_ok happend
                      refine .inr (.inr ⟨_, records, last, usage, List.cons_ne_nil _ _, rfl,
                        happended, ?_⟩)
                      simp [happend]

end AuditLog

/-! ## A file that others change -/

/-- Numbers in order above a bound. -/
theorem add_length_le {l : List Nat} {a b : Nat} (h : l.Pairwise (· < ·)) (habove : ∀ x ∈ l, a < x)
    (hbelow : ∀ x ∈ l, x ≤ b) (hab : a ≤ b) : a + l.length ≤ b := by
  induction l generalizing a with
  | nil => exact hab
  | cons x rest ih =>
      obtain ⟨hfirst, hrest⟩ := List.pairwise_cons.mp h
      obtain ⟨hx, -⟩ := List.forall_mem_cons.mp habove
      obtain ⟨hxb, hrestb⟩ := List.forall_mem_cons.mp hbelow
      have htail := ih hrest hfirst hrestb hxb
      rw [List.length_cons]
      omega

/-- As many numbers in order as there are between two bounds are all of them. -/
theorem eq_range'_of_full {l : List Nat} {a : Nat} (h : l.Pairwise (· < ·))
    (habove : ∀ x ∈ l, a < x) (hbelow : ∀ x ∈ l, x ≤ a + l.length) :
    l = List.range' (a + 1) l.length := by
  induction l generalizing a with
  | nil => rfl
  | cons x rest ih =>
      obtain ⟨hfirst, hrest⟩ := List.pairwise_cons.mp h
      obtain ⟨hx, -⟩ := List.forall_mem_cons.mp habove
      rw [List.length_cons] at hbelow
      obtain ⟨hxb, hrestb⟩ := List.forall_mem_cons.mp hbelow
      -- The rest takes all numbers behind `x`, so that none is left before it.
      have htail := add_length_le hrest hfirst hrestb hxb
      have hstart : x = a + 1 := by omega
      subst hstart
      rw [List.length_cons, List.range'_succ]
      refine congrArg _ (ih hrest hfirst ?_)
      intro y hy
      have hle := hrestb y hy
      omega

namespace AuditHistory

/-- What every history keeps. -/
structure Kept (h : AuditHistory) : Prop where
  increasing : (h.file.events.map AuditRow.sequence).Pairwise (· < ·)
  positive : ∀ row ∈ h.file.events, 0 < row.sequence
  given : ∀ row ∈ h.file.events, row.sequence ≤ h.file.autoincrement
  counted : ∀ usage, h.file.usage = some usage → usage.eventCount = h.file.events.length
  returned : h.returned.map AuditRecord.sequence = List.range' 1 h.file.autoincrement

variable {H : Host} {h : AuditHistory} {log : AuditLog}

theorem kept_initial : Kept {} where
  increasing := .nil
  positive := List.forall_mem_nil _
  given := List.forall_mem_nil _
  counted _ husage := by cases husage
  returned := rfl

theorem Kept.lastSequence_le (hkept : h.Kept) : h.file.lastSequence ≤ h.file.autoincrement := by
  unfold AuditFile.lastSequence
  cases hlast : h.file.events.getLast? with
  | none => exact Nat.zero_le _
  | some row => exact hkept.given row (List.mem_of_getLast? hlast)

theorem Kept.top (hkept : h.Kept) : h.file.top = h.file.autoincrement :=
  Nat.max_eq_left hkept.lastSequence_le

theorem Kept.length_returned (hkept : h.Kept) : h.returned.length = h.file.autoincrement := by
  rw [← List.length_map AuditRecord.sequence, hkept.returned, List.length_range']

/-- An append of something finds every row that was ever inserted. -/
theorem Kept.full (hkept : h.Kept) {prepared : List (List (String × Json))}
    {records : List AuditRecord} {last : AuditFile} {usage : AuditUsage}
    (happended : log.Appended prepared h.file records last usage) (hne : prepared ≠ []) :
    h.file.lastSequence = h.file.autoincrement ∧
      h.file.events.map AuditRow.sequence = h.returned.map AuditRecord.sequence := by
  -- The last row has the last number given, and the counter says that there are as many rows.
  have hlast : h.file.lastSequence = h.file.autoincrement := by
    rw [← happended.top_eq hne hkept.increasing, hkept.top]
  have hlength : h.file.events.length = h.file.autoincrement := by
    rw [← hkept.counted usage happended.before, happended.counted, hlast]
  refine ⟨hlast, ?_⟩
  have hfull := @eq_range'_of_full (h.file.events.map AuditRow.sequence) 0 hkept.increasing ?_ ?_
  · rw [hfull, hkept.returned, List.length_map, hlength]
  · intro x hx
    obtain ⟨row, hrow, rfl⟩ := List.mem_map.mp hx
    exact hkept.positive row hrow
  · intro x hx
    obtain ⟨row, hrow, rfl⟩ := List.mem_map.mp hx
    rw [Nat.zero_add, List.length_map, hlength]
    exact hkept.given row hrow

/-- An append keeps the history in order. -/
theorem Kept.appended (hkept : h.Kept) {prepared : List (List (String × Json))}
    {records : List AuditRecord} {last : AuditFile} {usage : AuditUsage}
    (happended : log.Appended prepared h.file records last usage) (hne : prepared ≠ []) :
    Kept ⟨last, h.returned ++ records⟩ := by
  obtain ⟨hrows, hsequences⟩ := happended.rows hkept.increasing
  obtain ⟨hlast, -⟩ := hkept.full happended hne
  have hautoincrement := happended.autoincrement hne
  rw [hkept.top] at hautoincrement hsequences
  -- The new rows have numbers that were never given.
  have hrecords : ∀ row ∈ records.map AuditRecord.row,
      h.file.autoincrement + 1 ≤ row.sequence ∧
        row.sequence < h.file.autoincrement + 1 + prepared.length := by
    intro row hrow
    obtain ⟨record, hrecord, rfl⟩ := List.mem_map.mp hrow
    have hmem := List.mem_map_of_mem (f := AuditRecord.sequence) hrecord
    rw [hsequences, List.mem_range'_1] at hmem
    exact hmem
  constructor
  · change (last.events.map AuditRow.sequence).Pairwise (· < ·)
    rw [hrows, List.map_append, List.pairwise_append]
    refine ⟨hkept.increasing, ?_, ?_⟩
    · rw [List.map_map]
      change (records.map AuditRecord.sequence).Pairwise (· < ·)
      rw [hsequences]
      exact List.pairwise_lt_range'
    · intro x hx y hy
      obtain ⟨row, hrow, rfl⟩ := List.mem_map.mp hx
      obtain ⟨row', hrow', rfl⟩ := List.mem_map.mp hy
      exact Nat.lt_of_le_of_lt (hkept.given row hrow) (hrecords row' hrow').1
  · intro row hrow
    change row ∈ last.events at hrow
    rw [hrows, List.mem_append] at hrow
    rcases hrow with hrow | hrow
    · exact hkept.positive row hrow
    · exact Nat.lt_of_lt_of_le (Nat.succ_pos _) (hrecords row hrow).1
  · intro row hrow
    change row ∈ last.events at hrow
    change row.sequence ≤ last.autoincrement
    rw [hautoincrement]
    rw [hrows, List.mem_append] at hrow
    rcases hrow with hrow | hrow
    · exact Nat.le_trans (hkept.given row hrow) (Nat.le_add_right _ _)
    · have hbound := (hrecords row hrow).2
      omega
  · intro usage' husage'
    have hafter := happended.usageAfter
    change last.usage = some usage' at husage'
    rw [husage'] at hafter
    obtain rfl := Option.some.inj hafter
    change _ = last.events.length
    have hlength : records.length = prepared.length := by
      rw [← happended.payloads, List.length_map]
    rw [hrows, List.length_append, List.length_map, hlength,
      ← hkept.counted usage happended.before, happended.counted]
  · change (h.returned ++ records).map AuditRecord.sequence = List.range' 1 last.autoincrement
    rw [List.map_append, hkept.returned, hsequences, hautoincrement, Nat.add_comm _ 1,
      List.range'_append_1]

theorem kept_opened (hkept : h.Kept) : Kept { h with file := h.file.initialized } := by
  unfold AuditFile.initialized
  cases husage : h.file.usage with
  | some usage => exact hkept
  | none =>
      refine ⟨hkept.increasing, hkept.positive, hkept.given, ?_, hkept.returned⟩
      intro usage hset
      cases hset
      rfl

/-- Every deleted row is counted off. -/
theorem eventCount_deleted {gone : List AuditRow} {before : Option AuditUsage} {after : AuditUsage}
    (h : gone.foldl (fun (usage : Option AuditUsage) row => usage.map fun u =>
      (⟨u.eventCount - 1, u.logicalBytes - row.logicalBytes⟩ : AuditUsage)) before = some after) :
    ∃ usage, before = some usage ∧ after.eventCount = usage.eventCount - gone.length := by
  induction gone generalizing before with
  | nil => exact ⟨after, h, rfl⟩
  | cons row rest ih =>
      obtain ⟨usage, husage, hcount⟩ := ih h
      cases before with
      | none => cases husage
      | some first =>
          obtain rfl := Option.some.inj husage
          refine ⟨first, rfl, ?_⟩
          rw [hcount, List.length_cons, Nat.sub_sub, Nat.add_comm]

theorem kept_deleted (hkept : h.Kept) (gone : AuditRow → Bool) :
    Kept { h with file := h.file.delete gone } := by
  have hsublist : (h.file.delete gone).events.Sublist h.file.events := List.filter_sublist
  refine ⟨hkept.increasing.sublist (hsublist.map _), ?_, ?_, ?_, hkept.returned⟩
  · intro row hrow
    exact hkept.positive row (hsublist.subset hrow)
  · intro row hrow
    exact hkept.given row (hsublist.subset hrow)
  · intro usage husage
    obtain ⟨before, hbefore, hcount⟩ := eventCount_deleted husage
    have hsplit := List.length_eq_length_filter_add (l := h.file.events) gone
    have hcounted := hkept.counted before hbefore
    change usage.eventCount = (h.file.events.filter fun row => !gone row).length
    omega

/-- A change of rows leaves the count. -/
theorem eventCount_updated {rows : List (AuditRow × AuditRow)} {before : Option AuditUsage}
    {after : AuditUsage}
    (h : rows.foldl (fun (usage : Option AuditUsage) rows => usage.map fun u =>
      (⟨u.eventCount, u.logicalBytes + rows.2.logicalBytes - rows.1.logicalBytes⟩ : AuditUsage))
        before = some after) :
    ∃ usage, before = some usage ∧ after.eventCount = usage.eventCount := by
  induction rows generalizing before with
  | nil => exact ⟨after, h, rfl⟩
  | cons row rest ih =>
      obtain ⟨usage, husage, hcount⟩ := ih h
      cases before with
      | none => cases husage
      | some first =>
          obtain rfl := Option.some.inj husage
          exact ⟨first, rfl, hcount⟩

theorem kept_updated (hkept : h.Kept) (change : AuditRow → AuditRow) :
    Kept { h with file := h.file.update change } := by
  unfold AuditFile.update
  dsimp only
  split
  · have hsequences : (h.file.events.map fun row =>
        { change row with sequence := row.sequence }).map AuditRow.sequence =
          h.file.events.map AuditRow.sequence := by
      rw [List.map_map]
      rfl
    refine ⟨?_, ?_, ?_, ?_, hkept.returned⟩
    · rw [hsequences]
      exact hkept.increasing
    · intro row hrow
      obtain ⟨old, hold, rfl⟩ := List.mem_map.mp hrow
      exact hkept.positive old hold
    · intro row hrow
      obtain ⟨old, hold, rfl⟩ := List.mem_map.mp hrow
      exact hkept.given old hold
    · intro usage husage
      obtain ⟨before, hbefore, hcount⟩ := eventCount_updated husage
      rw [hcount, hkept.counted before hbefore, List.length_map]
  · exact hkept

/-- An append leaves a history, or goes through. -/
theorem step_append_cases (H : Host) (h : AuditHistory) (log : AuditLog) (now : Nat → Instant)
    (fault : Option Exn) (events : List (Except Exn (Option AuditEvent))) :
    step H h (.append log now fault events) = h ∨
      ∃ prepared records last usage, prepared ≠ [] ∧
        AuditLog.prepare H now 0 0 events = .ok prepared ∧
        log.Appended prepared h.file records last usage ∧
        step H h (.append log now fault events) = ⟨last, h.returned ++ records⟩ := by
  rcases AuditLog.appendMany_cases H log now fault events h.file with
    ⟨e, hcall⟩ | hcall | ⟨prepared, records, last, usage, hne, hprepared, happended, hcall⟩
  · simp only [step, hcall, true_or]
  · simp only [step, hcall, List.append_nil, true_or]
  · refine .inr ⟨prepared, records, last, usage, hne, hprepared, happended, ?_⟩
    simp only [step, hcall]

theorem kept_step (hkept : h.Kept) (action : AuditStep) : (step H h action).Kept := by
  cases action with
  | opened => exact kept_opened hkept
  | append log now fault events =>
      rcases step_append_cases H h log now fault events with
        hstep | ⟨prepared, records, last, usage, hne, -, happended, hstep⟩
      · rw [hstep]
        exact hkept
      · rw [hstep]
        exact hkept.appended happended hne
  | deleted gone => exact kept_deleted hkept gone
  | updated change => exact kept_updated hkept change

theorem kept_run (steps : List AuditStep) : (run H steps).Kept := by
  induction steps using List.reverseRecOn with
  | nil => exact kept_initial
  | append_singleton steps action ih =>
      unfold run
      rw [List.foldl_append]
      exact kept_step ih action

end AuditHistory

end Polymorph
