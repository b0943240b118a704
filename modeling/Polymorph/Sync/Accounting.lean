import Polymorph.StandardHost
import Polymorph.Sync.State
import Polymorph.Text.SortedKeys

/-!
# Accounting of recurring runs

Histories of calls of `advance` in the order in which their transactions commit. A call either
raises and leaves the table, or repeats the last run of its route and leaves the table, or replaces
the row of its route by the next generation. The committed records of a route are the sum over the
receipts that replaced its row; each run is counted once exactly when no run that was displaced by
a later one is presented again at the current generation.
-/

set_option autoImplicit false

namespace Polymorph

open JsonText Table Transaction Utc

namespace SyncStateStore

variable {H : Host}

/-! ## One call -/

/-- The generation of a route; a route without a row has generation zero. -/
def currentGeneration (routeId : String) (rows : List CheckpointRow) : Nat :=
  (selectBy CheckpointRow.routeId routeId rows).elim 0 CheckpointRow.generation

/-- The committed records of a route. -/
def currentTotal (routeId : String) (rows : List CheckpointRow) : Nat :=
  (selectBy CheckpointRow.routeId routeId rows).elim 0 CheckpointRow.committedRecords

/-- The row that a call writes. -/
def nextRow (call : AdvanceCall H) (rendered : String) (rows : List CheckpointRow) :
    CheckpointRow where
  routeId := call.routeId
  generation := currentGeneration call.routeId rows + 1
  cursorJson := rendered
  committedRecords := currentTotal call.routeId rows + call.receipt.committedRecords
  runId := call.receipt.runId
  updatedAt := nowText call.now
  receiptSha256 := call.receipt.sha256

/-- The table with one row replaced or added. -/
def putRow (new : CheckpointRow) (rows : List CheckpointRow) : List CheckpointRow :=
  if (selectBy CheckpointRow.routeId new.routeId rows).isSome then
    rows.map fun row => if row.routeId = new.routeId then new else row
  else rows ++ [new]

/-- The call passes every check of `advance` and is no repetition of the last run. -/
structure Admissible (call : AdvanceCall H) (rows : List CheckpointRow) : Prop where
  route : isBoundedText 256 call.routeId = true
  cursor : ∃ rendered, cursorJson call.nextCursor.value = .ok rendered
  generation : (currentGeneration call.routeId rows : Int) = call.expectedGeneration
  fits : currentTotal call.routeId rows + call.receipt.committedRecords < sqliteIntegerBound ∧
    currentGeneration call.routeId rows + 1 < sqliteIntegerBound
  notLast : ∀ row, selectBy CheckpointRow.routeId call.routeId rows = some row →
    row.runId ≠ call.receipt.runId
  unused : ∀ row ∈ rows, row.runId = call.receipt.runId → row.routeId = call.routeId

theorem boundedIdentifier_eq_ok {name value text : String} :
    boundedIdentifier name value = .ok text ↔ isBoundedText 256 value = true ∧ text = value := by
  unfold boundedIdentifier
  split
  · rename_i h
    rw [Except.ok.injEq]
    exact ⟨fun heq => ⟨h, heq.symm⟩, fun heq => heq.2.symm⟩
  · rename_i h
    constructor
    · intro heq
      split at heq
      · cases heq
      · cases heq
    · intro heq
      exact absurd heq.1 h

theorem upsert_eq_ok {new : CheckpointRow} {rows rows' : List CheckpointRow} :
    upsert new rows = .ok rows' ↔
      (∀ row ∈ rows, row.runId = new.runId → row.routeId = new.routeId) ∧
        rows' = putRow new rows := by
  have hfree : (rows.any fun row => row.runId = new.runId && row.routeId ≠ new.routeId) = true ↔
      ¬∀ row ∈ rows, row.runId = new.runId → row.routeId = new.routeId := by
    rw [List.any_eq_true]
    push Not
    simp
  unfold upsert putRow
  split
  · rename_i h
    constructor
    · intro heq
      cases heq
    · intro heq
      exact absurd heq.1 (hfree.1 h)
  · rename_i h
    have hunused := not_not.1 (mt hfree.2 h)
    split
    · rw [Except.ok.injEq]
      exact ⟨fun heq => ⟨hunused, heq.symm⟩, fun heq => heq.2.symm⟩
    · rw [Except.ok.injEq]
      exact ⟨fun heq => ⟨hunused, heq.symm⟩, fun heq => heq.2.symm⟩

/-- What a write that returned has checked and done. -/
theorem commitRow_eq_ok {call : AdvanceCall H} {rendered : String}
    {rows rows' : List CheckpointRow} {result : Option SyncCheckpoint} :
    commitRow call rendered (currentGeneration call.routeId rows)
        (currentTotal call.routeId rows) rows = .ok result rows' ↔
      (currentGeneration call.routeId rows : Int) = call.expectedGeneration ∧
        (currentTotal call.routeId rows + call.receipt.committedRecords < sqliteIntegerBound ∧
          currentGeneration call.routeId rows + 1 < sqliteIntegerBound) ∧
        (∀ row ∈ rows, row.runId = call.receipt.runId → row.routeId = call.routeId) ∧
        result = none ∧ rows' = putRow (nextRow call rendered rows) rows := by
  unfold commitRow
  constructor
  · intro h
    obtain ⟨hgeneration, h⟩ := of_guard_eq_ok h
    obtain ⟨hfits, h⟩ := of_guard_eq_ok h
    rw [Bool.or_eq_true, decide_eq_true_eq, decide_eq_true_eq] at hfits
    obtain ⟨_, _, hget, h⟩ := bind_eq_ok_iff.1 h
    obtain ⟨rfl, rfl⟩ := get_eq_ok_iff.1 hget
    obtain ⟨stored, hupsert, h⟩ := lift_bind_eq_ok.1 h
    obtain ⟨_, _, hset, h⟩ := bind_eq_ok_iff.1 h
    obtain ⟨rfl, rfl⟩ := pure_eq_ok_iff.1 h
    rw [set_eq_ok_iff] at hset
    obtain ⟨hunused, hstored⟩ := upsert_eq_ok.1 hupsert
    exact ⟨not_not.1 hgeneration, by omega, hunused, rfl, hset ▸ hstored⟩
  · rintro ⟨hgeneration, hfits, hunused, rfl, rfl⟩
    have hbound : ¬(decide (sqliteIntegerBound ≤ currentTotal call.routeId rows +
        call.receipt.committedRecords) || decide (sqliteIntegerBound ≤
          currentGeneration call.routeId rows + 1)) = true := by
      rw [Bool.or_eq_true, decide_eq_true_eq, decide_eq_true_eq]
      omega
    rw [if_neg (not_not.2 hgeneration), if_neg hbound]
    refine bind_eq_ok_iff.2 ⟨rows, rows, rfl, ?_⟩
    exact lift_bind_eq_ok.2 ⟨_, upsert_eq_ok.2 ⟨hunused, rfl⟩, rfl⟩

/-- A call that returned has left the row of its own run, or was admissible and wrote the next
row. -/
theorem of_advanceTransaction {call : AdvanceCall H} {rows rows' : List CheckpointRow}
    {result : Option SyncCheckpoint} (h : advanceTransaction call rows = .ok result rows') :
    ((∃ row, selectBy CheckpointRow.routeId call.routeId rows = some row ∧
        row.runId = call.receipt.runId) ∧ result.isSome = true ∧ rows' = rows) ∨
      Admissible call rows ∧ result = none ∧
        ∃ rendered, cursorJson call.nextCursor.value = .ok rendered ∧
          rows' = putRow (nextRow call rendered rows) rows := by
  unfold advanceTransaction at h
  obtain ⟨_, hroute, h⟩ := lift_bind_eq_ok.1 h
  obtain ⟨-, h⟩ := of_guard_eq_ok h
  obtain ⟨rendered, hcursor, h⟩ := lift_bind_eq_ok.1 h
  have hrouteBounded := (boundedIdentifier_eq_ok.1 hroute).1
  rw [transaction_eq_ok_iff, advanceBody] at h
  obtain ⟨_, _, hget, h⟩ := bind_eq_ok_iff.1 h
  obtain ⟨rfl, rfl⟩ := get_eq_ok_iff.1 hget
  cases hselect : selectBy CheckpointRow.routeId call.routeId rows with
  | none =>
      rw [hselect] at h
      have hgeneration : currentGeneration call.routeId rows = 0 := by
        rw [currentGeneration, hselect]
        rfl
      have htotal : currentTotal call.routeId rows = 0 := by
        rw [currentTotal, hselect]
        rfl
      have hcommit : commitRow call rendered (currentGeneration call.routeId rows)
          (currentTotal call.routeId rows) rows = .ok result rows' := by
        rw [hgeneration, htotal]
        exact h
      obtain ⟨hexpected, hfits, hunused, hresult, hrows⟩ := commitRow_eq_ok.1 hcommit
      refine .inr ⟨⟨hrouteBounded, ⟨rendered, hcursor⟩, hexpected, hfits, ?_, hunused⟩, hresult,
        rendered, hcursor, hrows⟩
      intro row hrow
      rw [hselect] at hrow
      cases hrow
  | some row =>
      simp only [hselect] at h
      split at h
      · rename_i hrun
        obtain ⟨existing, -, h⟩ := lift_bind_eq_ok.1 h
        obtain ⟨-, h⟩ := of_guard_eq_ok h
        obtain ⟨stored, -, h⟩ := lift_bind_eq_ok.1 h
        obtain ⟨-, h⟩ := of_guard_eq_ok h
        obtain ⟨rfl, rfl⟩ := pure_eq_ok_iff.1 h
        exact .inl ⟨⟨row, rfl, hrun⟩, rfl, rfl⟩
      · rename_i hrun
        have hgeneration : currentGeneration call.routeId rows = row.generation := by
          rw [currentGeneration, hselect]
          rfl
        have htotal : currentTotal call.routeId rows = row.committedRecords := by
          rw [currentTotal, hselect]
          rfl
        have hcommit : commitRow call rendered (currentGeneration call.routeId rows)
            (currentTotal call.routeId rows) rows = .ok result rows' := by
          rw [hgeneration, htotal]
          exact h
        obtain ⟨hexpected, hfits, hunused, hresult, hrows⟩ := commitRow_eq_ok.1 hcommit
        refine .inr ⟨⟨hrouteBounded, ⟨rendered, hcursor⟩, hexpected, hfits, ?_, hunused⟩, hresult,
          rendered, hcursor, hrows⟩
        intro other hother
        rw [hselect] at hother
        cases hother
        exact hrun

/-- An admissible call writes the next row. -/
theorem Admissible.advanceTransaction {call : AdvanceCall H} {rows : List CheckpointRow}
    (h : Admissible call rows) :
    ∃ rendered, cursorJson call.nextCursor.value = .ok rendered ∧
      advanceTransaction call rows = .ok none (putRow (nextRow call rendered rows) rows) := by
  obtain ⟨rendered, hcursor⟩ := h.cursor
  refine ⟨rendered, hcursor, ?_⟩
  have hexpected : ¬call.expectedGeneration < 0 := by
    have := h.generation
    omega
  unfold SyncStateStore.advanceTransaction
  refine lift_bind_eq_ok.2 ⟨_, boundedIdentifier_eq_ok.2 ⟨h.route, rfl⟩, ?_⟩
  rw [if_neg hexpected]
  refine lift_bind_eq_ok.2 ⟨_, hcursor, transaction_of_ok ?_⟩
  unfold advanceBody
  refine bind_eq_ok_iff.2 ⟨rows, rows, rfl, ?_⟩
  have hcommit : commitRow call rendered (currentGeneration call.routeId rows)
      (currentTotal call.routeId rows) rows =
        .ok none (putRow (nextRow call rendered rows) rows) :=
    commitRow_eq_ok.2 ⟨h.generation, h.fits, h.unused, rfl, rfl⟩
  unfold currentGeneration currentTotal at hcommit
  cases hselect : selectBy CheckpointRow.routeId call.routeId rows with
  | none =>
      rw [hselect] at hcommit
      exact hcommit
  | some row =>
      rw [hselect] at hcommit
      simp only [if_neg (h.notLast row hselect)]
      exact hcommit

/-! ## Rows after a write -/

theorem selectBy_putRow_self (new : CheckpointRow) (rows : List CheckpointRow) :
    selectBy CheckpointRow.routeId new.routeId (putRow new rows) = some new := by
  unfold putRow
  split
  · rename_i h
    induction rows with
    | nil => cases h
    | cons row rows ih =>
        by_cases hrow : row.routeId = new.routeId
        · simp [selectBy, hrow]
        · simp only [selectBy, List.map_cons, hrow, if_false, List.find?_cons,
            decide_false] at h ih ⊢
          exact ih h
  · rename_i h
    rw [Option.not_isSome_iff_eq_none] at h
    rw [selectBy] at h ⊢
    rw [List.find?_append, h]
    simp

theorem selectBy_putRow_of_ne {new : CheckpointRow} {rows : List CheckpointRow} {routeId : String}
    (hne : routeId ≠ new.routeId) :
    selectBy CheckpointRow.routeId routeId (putRow new rows) =
      selectBy CheckpointRow.routeId routeId rows := by
  unfold putRow
  split
  · clear * - hne
    induction rows with
    | nil => rfl
    | cons row rows ih =>
        simp only [selectBy, List.map_cons, List.find?_cons] at ih ⊢
        by_cases hrow : row.routeId = new.routeId
        · simp [hrow, Ne.symm hne, ih]
        · simp [hrow, ih]
  · rw [selectBy, selectBy, List.find?_append]
    simp [Ne.symm hne]

theorem mem_putRow {new row : CheckpointRow} {rows : List CheckpointRow}
    (h : row ∈ putRow new rows) : row = new ∨ row ∈ rows := by
  unfold putRow at h
  split at h
  · obtain ⟨old, hold, rfl⟩ := List.mem_map.1 h
    split
    · exact .inl rfl
    · exact .inr hold
  · rcases List.mem_append.1 h with h | h
    · exact .inr h
    · exact .inl (List.mem_singleton.1 h)

/-! ## Histories -/

/-- The table after a history of calls, the newest call first. -/
def tables : List (AdvanceCall H) → List CheckpointRow
  | [] => []
  | call :: earlier => (outcome (advanceTransaction call) (tables earlier)).2

/-- What one call does: it raises, it answers a repetition of the last run of its route, or it is
admissible and writes the next row. -/
inductive Step (call : AdvanceCall H) (earlier : List (AdvanceCall H)) : Prop
  | raised (e : Exn) (result : (outcome (advanceTransaction call) (tables earlier)).1 = .error e)
      (refused : ¬Admissible call (tables earlier))
      (unchanged : tables (call :: earlier) = tables earlier)
  | repeated (existing : SyncCheckpoint) (row : CheckpointRow)
      (result : (outcome (advanceTransaction call) (tables earlier)).1 = .ok (some existing))
      (last : selectBy CheckpointRow.routeId call.routeId (tables earlier) = some row)
      (run : row.runId = call.receipt.runId)
      (unchanged : tables (call :: earlier) = tables earlier)
  | wrote (rendered : String)
      (result : (outcome (advanceTransaction call) (tables earlier)).1 = .ok none)
      (admissible : Admissible call (tables earlier))
      (cursor : cursorJson call.nextCursor.value = .ok rendered)
      (changed : tables (call :: earlier) =
        putRow (nextRow call rendered (tables earlier)) (tables earlier))

theorem advanceTransaction_atomic (call : AdvanceCall H) : Atomic (advanceTransaction call) := by
  refine (readOnly_lift _).bind_atomic fun _ => ?_
  have hrest : Atomic (do
      let rendered ← (monadLift (cursorJson call.nextCursor.value) :
        EStateM Exn (List CheckpointRow) String)
      transaction (advanceBody call rendered)) :=
    (readOnly_lift _).bind_atomic fun _ => atomic_transaction _
  split
  · exact (readOnly_throw _).bind_atomic fun _ => hrest
  · exact hrest

theorem step (call : AdvanceCall H) (earlier : List (AdvanceCall H)) : Step call earlier := by
  cases hcall : advanceTransaction call (tables earlier) with
  | error e rows =>
      have hrows := advanceTransaction_atomic call _ _ _ hcall
      refine .raised e (by rw [outcome_of_error hcall]) ?_ ?_
      · intro hadmissible
        obtain ⟨_, -, hok⟩ := hadmissible.advanceTransaction
        rw [hcall] at hok
        cases hok
      · rw [tables, outcome_of_error hcall, hrows]
  | ok result rows =>
      rcases of_advanceTransaction hcall with
        ⟨⟨row, hselect, hrun⟩, hresult, hrows⟩ | ⟨hadmissible, rfl, rendered, hcursor, hrows⟩
      · obtain ⟨existing, rfl⟩ := Option.isSome_iff_exists.1 hresult
        refine .repeated existing row (by rw [outcome_of_ok hcall]) hselect hrun ?_
        rw [tables, outcome_of_ok hcall, hrows]
      · refine .wrote rendered (by rw [outcome_of_ok hcall]) hadmissible hcursor ?_
        rw [tables, outcome_of_ok hcall, hrows]

/-! ### Rows of a history -/

theorem selectBy_of_wrote {call : AdvanceCall H} {earlier : List (AdvanceCall H)}
    {rendered : String} (h : tables (call :: earlier) =
      putRow (nextRow call rendered (tables earlier)) (tables earlier)) :
    selectBy CheckpointRow.routeId call.routeId (tables (call :: earlier)) =
        some (nextRow call rendered (tables earlier)) ∧
      ∀ routeId, routeId ≠ call.routeId →
        selectBy CheckpointRow.routeId routeId (tables (call :: earlier)) =
          selectBy CheckpointRow.routeId routeId (tables earlier) := by
  rw [h]
  exact ⟨selectBy_putRow_self (nextRow call rendered (tables earlier)) _,
    fun routeId hne => selectBy_putRow_of_ne hne⟩

theorem generation_of_wrote {call : AdvanceCall H} {earlier : List (AdvanceCall H)}
    {rendered : String} (h : tables (call :: earlier) =
      putRow (nextRow call rendered (tables earlier)) (tables earlier)) :
    currentGeneration call.routeId (tables (call :: earlier)) =
      currentGeneration call.routeId (tables earlier) + 1 := by
  rw [currentGeneration, (selectBy_of_wrote h).1]
  rfl

theorem total_of_wrote {call : AdvanceCall H} {earlier : List (AdvanceCall H)}
    {rendered : String} (h : tables (call :: earlier) =
      putRow (nextRow call rendered (tables earlier)) (tables earlier)) :
    currentTotal call.routeId (tables (call :: earlier)) =
      currentTotal call.routeId (tables earlier) + call.receipt.committedRecords := by
  rw [currentTotal, (selectBy_of_wrote h).1]
  rfl

/-- A call on another route leaves the row of a route. -/
theorem selectBy_tables_of_ne {call : AdvanceCall H} {routeId : String}
    (hne : routeId ≠ call.routeId) (earlier : List (AdvanceCall H)) :
    selectBy CheckpointRow.routeId routeId (tables (call :: earlier)) =
      selectBy CheckpointRow.routeId routeId (tables earlier) := by
  cases step call earlier with
  | raised _ _ _ unchanged => rw [unchanged]
  | repeated _ _ _ _ _ unchanged => rw [unchanged]
  | wrote _ _ _ _ changed => exact (selectBy_of_wrote changed).2 routeId hne

/-- A route keeps a row. -/
theorem isSome_selectBy_of_suffix {routeId : String} {earlier later : List (AdvanceCall H)}
    (hsuffix : earlier <:+ later)
    (h : (selectBy CheckpointRow.routeId routeId (tables earlier)).isSome = true) :
    (selectBy CheckpointRow.routeId routeId (tables later)).isSome = true := by
  induction later with
  | nil => rwa [List.suffix_nil.1 hsuffix] at h
  | cons call later ih =>
      rcases List.suffix_cons_iff.1 hsuffix with rfl | hsuffix
      · exact h
      · have hlater := ih hsuffix
        cases step call later with
        | raised _ _ _ unchanged => rwa [unchanged]
        | repeated _ _ _ _ _ unchanged => rwa [unchanged]
        | wrote _ _ _ _ changed =>
            by_cases hroute : routeId = call.routeId
            · rw [hroute, (selectBy_of_wrote changed).1]
              rfl
            · rwa [(selectBy_of_wrote changed).2 routeId hroute]

theorem cursorJson_eq_ok {value : Json} {rendered : String} (h : cursorJson value = .ok rendered) :
    shortIntegers value = true ∧ rendered = asciiCompact.text (sortKeys value) := by
  unfold cursorJson at h
  obtain ⟨_, -, h⟩ := bind_eq_ok h
  obtain ⟨hshort, h⟩ := guard_eq_ok h
  obtain ⟨-, h⟩ := guard_eq_ok h
  cases h
  exact ⟨by simpa using hshort, rfl⟩

/-- The cursor of a stored row is read back. -/
theorem checkpoint_of_cursor {row : CheckpointRow} {cursor : Cursor}
    (h : cursorJson cursor.value = .ok row.cursorJson) :
    ∃ checkpoint, row.checkpoint = .ok checkpoint := by
  obtain ⟨hshort, hrendered⟩ := cursorJson_eq_ok h
  have hload : loads row.cursorJson = some (sortKeys cursor.value) := by
    have hblank := @Layout.loads_text asciiCompact _
      ((leafwise_readable.sortKeys cursor.value).trans cursor.readable) [] (.inl rfl)
    rwa [String.ofList_nil, String.append_empty, ← hrendered] at hblank
  have hshortSorted := (leafwise_shortIntegers.sortKeys cursor.value).trans hshort
  unfold CheckpointRow.checkpoint
  rw [hload]
  simp only [hshortSorted, Bool.not_true, Bool.false_eq_true, if_false]
  exact ⟨_, rfl⟩

theorem exists_cursor_of_mem {history : List (AdvanceCall H)} {row : CheckpointRow}
    (h : row ∈ tables history) :
    ∃ cursor : Cursor, cursorJson cursor.value = .ok row.cursorJson := by
  induction history with
  | nil => cases h
  | cons call earlier ih =>
      cases step call earlier with
      | raised _ _ _ unchanged => exact ih (unchanged ▸ h)
      | repeated _ _ _ _ _ unchanged => exact ih (unchanged ▸ h)
      | wrote rendered _ _ cursor changed =>
          rw [changed] at h
          rcases mem_putRow h with rfl | h
          · exact ⟨call.nextCursor, cursor⟩
          · exact ih h

/-- A call whose transaction has committed does not raise afterwards. -/
theorem unchanged_of_advance_error {call : AdvanceCall H} {earlier later : List (AdvanceCall H)}
    {e : Exn} (hsuffix : call :: earlier <:+ later)
    (h : advance call (tables earlier) (tables later) = .error e) :
    tables (call :: earlier) = tables earlier := by
  cases step call earlier with
  | raised _ _ _ unchanged => exact unchanged
  | repeated _ _ _ _ _ unchanged => exact unchanged
  | wrote rendered result admissible _ changed =>
      have hsome := (@isSome_selectBy_of_suffix _ call.routeId) hsuffix
        (by rw [(selectBy_of_wrote changed).1]; rfl)
      obtain ⟨row, hrow⟩ := Option.isSome_iff_exists.1 hsome
      obtain ⟨cursor, hcursor⟩ := exists_cursor_of_mem (mem_of_selectBy hrow).1
      obtain ⟨checkpoint, hcheckpoint⟩ := checkpoint_of_cursor hcursor
      have hget : getCheckpoint call.routeId (tables later) = .ok (some checkpoint) := by
        rw [getCheckpoint, boundedIdentifier_eq_ok.2 ⟨admissible.route, rfl⟩, ok_bind, hrow]
        simp only [hcheckpoint]
        rfl
      rw [advance, result] at h
      simp only [hget] at h
      cases h

/-! ## Receipts -/

/-- The receipts whose calls changed the generation of a route, the newest first. -/
def counted (routeId : String) : List (AdvanceCall H) → List (CommitReceipt H)
  | [] => []
  | call :: earlier =>
      if currentGeneration routeId (tables (call :: earlier)) =
          currentGeneration routeId (tables earlier) then counted routeId earlier
      else call.receipt :: counted routeId earlier

/-- The receipts of the calls on a route that returned a checkpoint, the newest first. -/
def accepted (routeId : String) : List (AdvanceCall H) → List (CommitReceipt H)
  | [] => []
  | call :: earlier =>
      if call.routeId = routeId ∧
          (outcome (advanceTransaction call) (tables earlier)).1.isOk = true then
        call.receipt :: accepted routeId earlier
      else accepted routeId earlier

/-- The oldest receipt of every run. -/
def distinctReceipts : List (CommitReceipt H) → List (CommitReceipt H)
  | [] => []
  | receipt :: earlier =>
      if receipt.runId ∈ earlier.map CommitReceipt.runId then distinctReceipts earlier
      else receipt :: distinctReceipts earlier

/-- A former state of the route named the run. -/
def Named (routeId runId : String) (history : List (AdvanceCall H)) : Prop :=
  ∃ past, past <:+ history ∧ ∃ row,
    selectBy CheckpointRow.routeId routeId (tables past) = some row ∧ row.runId = runId

theorem counted_of_ne {call : AdvanceCall H} {routeId : String} (hne : routeId ≠ call.routeId)
    (earlier : List (AdvanceCall H)) :
    counted routeId (call :: earlier) = counted routeId earlier := by
  rw [counted, if_pos]
  rw [currentGeneration, selectBy_tables_of_ne hne, currentGeneration]

theorem counted_of_unchanged {call : AdvanceCall H} {earlier : List (AdvanceCall H)}
    (h : tables (call :: earlier) = tables earlier) (routeId : String) :
    counted routeId (call :: earlier) = counted routeId earlier := by
  rw [counted, h, if_pos rfl]

theorem counted_of_wrote {call : AdvanceCall H} {earlier : List (AdvanceCall H)}
    {rendered : String} (h : tables (call :: earlier) =
      putRow (nextRow call rendered (tables earlier)) (tables earlier)) :
    counted call.routeId (call :: earlier) = call.receipt :: counted call.routeId earlier := by
  rw [counted, generation_of_wrote h, if_neg (Nat.succ_ne_self _)]

/-- The committed records are the sum over the receipts counted. -/
theorem currentTotal_tables (routeId : String) (history : List (AdvanceCall H)) :
    currentTotal routeId (tables history) =
      ((counted routeId history).map CommitReceipt.committedRecords).sum := by
  induction history with
  | nil => rfl
  | cons call earlier ih =>
      by_cases hroute : routeId = call.routeId
      · subst hroute
        cases step call earlier with
        | raised _ _ _ unchanged => rw [counted_of_unchanged unchanged, unchanged, ih]
        | repeated _ _ _ _ _ unchanged => rw [counted_of_unchanged unchanged, unchanged, ih]
        | wrote _ _ _ _ changed =>
            rw [counted_of_wrote changed, total_of_wrote changed, ih, List.map_cons,
              List.sum_cons, Nat.add_comm]
      · rw [counted_of_ne hroute, currentTotal, selectBy_tables_of_ne hroute, ← currentTotal, ih]

/-- A run was counted exactly when a former state of the route named it. -/
theorem mem_counted_iff_named {routeId runId : String} {history : List (AdvanceCall H)} :
    runId ∈ (counted routeId history).map CommitReceipt.runId ↔ Named routeId runId history := by
  induction history with
  | nil =>
      constructor
      · intro h
        cases h
      · rintro ⟨past, hpast, row, hrow, -⟩
        rw [List.suffix_nil.1 hpast] at hrow
        cases hrow
  | cons call earlier ih =>
      have hsplit : Named routeId runId (call :: earlier) ↔
          (∃ row, selectBy CheckpointRow.routeId routeId (tables (call :: earlier)) = some row ∧
            row.runId = runId) ∨ Named routeId runId earlier := by
        constructor
        · rintro ⟨past, hpast, hrow⟩
          rcases List.suffix_cons_iff.1 hpast with rfl | hpast
          · exact .inl hrow
          · exact .inr ⟨past, hpast, hrow⟩
        · rintro (hrow | ⟨past, hpast, hrow⟩)
          · exact ⟨_, List.suffix_rfl, hrow⟩
          · exact ⟨past, hpast.trans (List.suffix_cons _ _), hrow⟩
      have hsame (hkept : selectBy CheckpointRow.routeId routeId (tables (call :: earlier)) =
          selectBy CheckpointRow.routeId routeId (tables earlier)) :
          Named routeId runId (call :: earlier) ↔ Named routeId runId earlier := by
        rw [hsplit, hkept]
        exact or_iff_right_of_imp fun hrow => ⟨earlier, List.suffix_rfl, hrow⟩
      by_cases hroute : routeId = call.routeId
      · subst hroute
        cases step call earlier with
        | raised _ _ _ unchanged =>
            rw [counted_of_unchanged unchanged, hsame (by rw [unchanged]), ih]
        | repeated _ _ _ _ _ unchanged =>
            rw [counted_of_unchanged unchanged, hsame (by rw [unchanged]), ih]
        | wrote _ _ _ _ changed =>
            rw [counted_of_wrote changed, hsplit, (selectBy_of_wrote changed).1, List.map_cons,
              List.mem_cons, ih]
            refine or_congr_left ⟨fun h => ⟨_, rfl, h.symm⟩, ?_⟩
            rintro ⟨row, hrow, hrun⟩
            cases hrow
            exact hrun.symm
      · rw [counted_of_ne hroute, hsame (selectBy_tables_of_ne hroute earlier), ih]

/-- The accepted runs are the counted runs. -/
theorem mem_accepted_iff {routeId runId : String} {history : List (AdvanceCall H)} :
    runId ∈ (accepted routeId history).map CommitReceipt.runId ↔
      runId ∈ (counted routeId history).map CommitReceipt.runId := by
  induction history with
  | nil => exact Iff.rfl
  | cons call earlier ih =>
      by_cases hroute : routeId = call.routeId
      · subst hroute
        cases step call earlier with
        | raised e result _ unchanged =>
            rw [counted_of_unchanged unchanged, accepted, result, if_neg (by simp [Except.isOk,
              Except.toBool]), ih]
        | repeated existing row result last run unchanged =>
            rw [counted_of_unchanged unchanged, accepted, result, if_pos ⟨rfl, rfl⟩,
              List.map_cons, List.mem_cons, ih]
            refine or_iff_right_of_imp ?_
            rintro rfl
            exact mem_counted_iff_named.2 ⟨earlier, List.suffix_rfl, row, last, run⟩
        | wrote _ result _ _ changed =>
            rw [counted_of_wrote changed, accepted, result, if_pos ⟨rfl, rfl⟩, List.map_cons,
              List.map_cons, List.mem_cons, List.mem_cons, ih]
      · rw [counted_of_ne hroute, accepted, if_neg (fun h => hroute h.1.symm), ih]

/-! ## Exactly once -/

/-- In every state of the history the committed records of the route are the sum over the distinct
runs that were accepted, and no run is counted twice. -/
def ExactlyOnce (routeId : String) (history : List (AdvanceCall H)) : Prop :=
  ∀ past, past <:+ history →
    ((counted routeId past).map CommitReceipt.runId).Nodup ∧
      currentTotal routeId (tables past) =
        ((distinctReceipts (accepted routeId past)).map CommitReceipt.committedRecords).sum

/-- No call on the route is admissible with a run that a former state of the route named. -/
def NoReplay (routeId : String) (history : List (AdvanceCall H)) : Prop :=
  ∀ call earlier, call :: earlier <:+ history → call.routeId = routeId →
    Admissible call (tables earlier) → ¬Named routeId call.receipt.runId earlier

/-- Without replays the counted receipts are those of the distinct accepted runs. -/
theorem distinct_of_noReplay {routeId : String} {history : List (AdvanceCall H)}
    (h : NoReplay routeId history) :
    ((counted routeId history).map CommitReceipt.runId).Nodup ∧
      distinctReceipts (accepted routeId history) = counted routeId history := by
  induction history with
  | nil => exact ⟨List.nodup_nil, rfl⟩
  | cons call earlier ih =>
      obtain ⟨hnodup, hdistinct⟩ := ih fun other past hsuffix =>
        h other past (hsuffix.trans (List.suffix_cons _ _))
      by_cases hroute : routeId = call.routeId
      · subst hroute
        cases step call earlier with
        | raised e result _ unchanged =>
            rw [counted_of_unchanged unchanged, accepted, result, if_neg (by simp [Except.isOk,
              Except.toBool])]
            exact ⟨hnodup, hdistinct⟩
        | repeated existing row result last run unchanged =>
            have hmem : call.receipt.runId ∈
                (accepted call.routeId earlier).map CommitReceipt.runId :=
              mem_accepted_iff.2 (mem_counted_iff_named.2
                ⟨earlier, List.suffix_rfl, row, last, run⟩)
            rw [counted_of_unchanged unchanged, accepted, result, if_pos ⟨rfl, rfl⟩,
              distinctReceipts, if_pos hmem]
            exact ⟨hnodup, hdistinct⟩
        | wrote _ result admissible _ changed =>
            have hfresh : call.receipt.runId ∉
                (counted call.routeId earlier).map CommitReceipt.runId :=
              mt mem_counted_iff_named.1 (h call earlier List.suffix_rfl rfl admissible)
            rw [counted_of_wrote changed, accepted, result, if_pos ⟨rfl, rfl⟩, distinctReceipts,
              if_neg (mt mem_accepted_iff.1 hfresh), hdistinct, List.map_cons]
            exact ⟨List.nodup_cons.2 ⟨hfresh, hnodup⟩, rfl⟩
      · rw [counted_of_ne hroute, accepted, if_neg (fun h => hroute h.1.symm)]
        exact ⟨hnodup, hdistinct⟩

/-- A replay counts its run a second time. -/
theorem noReplay_of_exactlyOnce {routeId : String} {history : List (AdvanceCall H)}
    (honce : ExactlyOnce routeId history) : NoReplay routeId history := by
  rintro call earlier hsuffix rfl hadmissible hnamed
  cases step call earlier with
  | raised _ _ refused _ => exact refused hadmissible
  | repeated _ row _ last run _ => exact hadmissible.notLast row last run
  | wrote _ _ _ _ changed =>
      have hnodup := (honce _ hsuffix).1
      rw [counted_of_wrote changed, List.map_cons, List.nodup_cons] at hnodup
      exact hnodup.1 (mem_counted_iff_named.2 hnamed)

/-- **Exactly once.** A call that changes the table raises the generation of its route by one and
leaves the other routes, a call that raises changes nothing, whatever table its read after the
commit meets, and the runs of a route are counted exactly once if and only if no displaced run is
replayed at the current generation. -/
theorem exactlyOnce_iff (routeId : String) (history : List (AdvanceCall H)) :
    (∀ call earlier, call :: earlier <:+ history →
      (tables (call :: earlier) ≠ tables earlier →
        currentGeneration call.routeId (tables (call :: earlier)) =
            currentGeneration call.routeId (tables earlier) + 1 ∧
          ∀ other, other ≠ call.routeId →
            selectBy CheckpointRow.routeId other (tables (call :: earlier)) =
              selectBy CheckpointRow.routeId other (tables earlier)) ∧
      (∀ later e, call :: earlier <:+ later →
        advance call (tables earlier) (tables later) = .error e →
          tables (call :: earlier) = tables earlier)) ∧
    (ExactlyOnce routeId history ↔ NoReplay routeId history) := by
  refine ⟨?_, noReplay_of_exactlyOnce, ?_⟩
  · intro call earlier _
    refine ⟨?_, fun later e hsuffix h => unchanged_of_advance_error hsuffix h⟩
    intro hchanged
    refine ⟨?_, fun other hne => selectBy_tables_of_ne hne earlier⟩
    cases step call earlier with
    | raised _ _ _ unchanged => exact absurd unchanged hchanged
    | repeated _ _ _ _ _ unchanged => exact absurd unchanged hchanged
    | wrote _ _ _ _ changed => exact generation_of_wrote changed
  · intro h past hpast
    obtain ⟨hnodup, hdistinct⟩ := distinct_of_noReplay fun call earlier hsuffix =>
      h call earlier (hsuffix.trans hpast)
    exact ⟨hnodup, by rw [hdistinct, currentTotal_tables]⟩

/-! ### A retry after another run -/

namespace Sample

/-- The moment at which every run of the sample completes. -/
def completed : Instant := ⟨⟨2026, 1, 1, 0, 0, 0, 0⟩, Utc.valid_newYear2026⟩

theorem isAwareTimestamp_completed (H : Host) :
    isAwareTimestamp H completed.isoformat = true := by
  have hreplace : replaceText completed.isoformat "Z" "+00:00" = completed.isoformat := by decide
  rw [isAwareTimestamp, readTimestamp, hreplace, H.fromisoformat_isoformat]

/-- A call on the route `orders` with five records and an empty cursor. -/
def call (H : Host) (expectedGeneration : Int) (runId : String)
    (h : isBoundedText 256 runId = true) : AdvanceCall H where
  routeId := "orders"
  expectedGeneration := expectedGeneration
  nextCursor := ⟨.null, rfl, rfl⟩
  receipt := {
    runId := runId
    committedRecords := 5
    completedAt := completed.isoformat
    runId_bounded := h
    completedAt_aware := isAwareTimestamp_completed H }
  now := completed

/-- The first run commits. -/
def first (H : Host) : AdvanceCall H := call H 0 "run-1" (by decide)

/-- Another run commits before the first one learns of its commit. -/
def second (H : Host) : AdvanceCall H := call H 1 "run-2" (by decide)

/-- The first run reads the generation again and repeats its receipt. -/
def retry (H : Host) : AdvanceCall H := call H 2 "run-1" (by decide)

/-- The call passes every check over a table of one row of another run. -/
theorem admissible_call (H : Host) {generation : Nat} {runId : String}
    (h : isBoundedText 256 runId = true) {rows : List CheckpointRow}
    (hgeneration : currentGeneration "orders" rows = generation) (hsmall : generation ≤ 2)
    (htotal : currentTotal "orders" rows ≤ 10)
    (hroute : ∀ row ∈ rows, row.routeId = "orders" ∧ row.runId ≠ runId) :
    Admissible (call H generation runId h) rows where
  route := (by decide : isBoundedText 256 "orders" = true)
  cursor := ⟨_, rfl⟩
  generation := congrArg Nat.cast hgeneration
  fits := by
    have hbound : sqliteIntegerBound = 2 ^ 63 := rfl
    change currentTotal "orders" rows + 5 < _ ∧ currentGeneration "orders" rows + 1 < _
    omega
  notLast row hrow := (hroute row (mem_of_selectBy hrow).1).2
  unused row hrow _ := (hroute row hrow).1

theorem tables_of_admissible {call : AdvanceCall H} {earlier : List (AdvanceCall H)}
    (h : Admissible call (tables earlier)) : ∃ rendered, tables (call :: earlier) =
      putRow (nextRow call rendered (tables earlier)) (tables earlier) := by
  obtain ⟨rendered, -, hcall⟩ := h.advanceTransaction
  exact ⟨rendered, by rw [tables, outcome_of_ok hcall]⟩

theorem admissible_first (H : Host) :
    Admissible (first H) (tables ([] : List (AdvanceCall H))) :=
  admissible_call H (by decide) rfl (by decide) (Nat.zero_le 10) (fun _ h => nomatch h)

theorem tables_first (H : Host) : ∃ rendered, tables [first H] = [nextRow (first H) rendered []] :=
  tables_of_admissible (admissible_first H)

theorem admissible_second (H : Host) : Admissible (second H) (tables [first H]) := by
  obtain ⟨rendered, hrows⟩ := tables_first H
  rw [hrows]
  refine admissible_call H (by decide) rfl (by decide) ?_ ?_
  · change 0 + 5 ≤ 10
    decide
  · intro row hrow
    rw [List.mem_singleton] at hrow
    subst hrow
    exact ⟨rfl, (by decide : "run-1" ≠ "run-2")⟩

theorem tables_second (H : Host) : ∃ row, tables [second H, first H] = [row] ∧
    row.routeId = "orders" ∧ row.generation = 2 ∧ row.committedRecords = 10 ∧
      row.runId = "run-2" := by
  obtain ⟨rendered, hsecond⟩ := tables_of_admissible (admissible_second H)
  obtain ⟨_, hfirst⟩ := tables_first H
  rw [hfirst] at hsecond
  exact ⟨_, hsecond, rfl, rfl, rfl, rfl⟩

theorem admissible_retry (H : Host) : Admissible (retry H) (tables [second H, first H]) := by
  obtain ⟨row, hrows, hroute, hgeneration, htotal, hrun⟩ := tables_second H
  rw [hrows]
  refine admissible_call H (by decide) ?_ (by decide) ?_ ?_
  · simp [currentGeneration, selectBy, hroute, hgeneration]
  · simp [currentTotal, selectBy, hroute, htotal]
  · intro other hother
    rw [List.mem_singleton] at hother
    subst hother
    exact ⟨hroute, by rw [hrun]; decide⟩

theorem named_retry (H : Host) : Named "orders" "run-1" [second H, first H] := by
  obtain ⟨rendered, hfirst⟩ := tables_first H
  refine ⟨[first H], List.suffix_cons _ _, nextRow (first H) rendered [], ?_, rfl⟩
  rw [hfirst]
  rfl

end Sample

/-- A retry that reads the generation again after another run has committed is counted again. -/
theorem retry_counted_twice :
    ¬ExactlyOnce "orders"
      [Sample.retry standardHost, Sample.second standardHost, Sample.first standardHost] := by
  intro h
  exact noReplay_of_exactlyOnce h _ _ List.suffix_rfl rfl (Sample.admissible_retry standardHost)
    (Sample.named_retry standardHost)

end SyncStateStore

end Polymorph
