import Mathlib.Data.List.Infix
import Polymorph.Delivery.Ledger
import Polymorph.StandardHost
import Polymorph.Storage.NamedColumns

/-!
# Opening a ledger

`DeliveryLedger._initialize` on whatever database file is there: it widens the table of an older
release, fences the rows whose provenance that release did not keep, and leaves a marker so that it
does so once.
-/

set_option autoImplicit false

namespace Polymorph

open Transaction

/-- The value of a state in the column `state`. -/
def DeliveryState.value : DeliveryState → String
  | .claimed => "claimed"
  | .writeStarted => "write_started"
  | .batchWriteStarted => "batch_write_started"
  | .replayClaimed => "replay_claimed"
  | .replayWriteStarted => "replay_write_started"
  | .committed => "committed"
  | .uncertain => "uncertain"
  | .batchUncertain => "batch_uncertain"
  | .replayUncertain => "replay_uncertain"
  | .quarantined => "quarantined"
  | .replayQuarantined => "replay_quarantined"

theorem DeliveryState.value_injective : Function.Injective DeliveryState.value := by
  intro a b h
  revert h
  cases a <;> cases b <;> decide

/-- The file of a ledger: the tables that may be there, and the text of the index on the batch
attempts. -/
structure LedgerFile where
  deliveries : Option NamedTable := none
  /-- the column `migration_id` of `polymorph_delivery_ledger_migrations` -/
  migrations : Option (List String) := none
  /-- `none` where there is no such index, `some none` where it has no text -/
  batchIndex : Option (Option String) := none

namespace LedgerFile

/-- The columns of a table created by this release. -/
def deliveryColumns : List String :=
  ["tenant", "destination_connector", "transfer_id", "record_id", "record_digest", "plan_digest",
    "state", "created_at", "updated_at", "reason_code", "claim_token", "claim_expires_at",
    "current_write_batch_attempt_id", "idempotency_contract_id"]

/-- The columns that an older release may lack, in the order in which they are added. -/
def laterColumns : List String :=
  ["claim_token", "claim_expires_at", "current_write_batch_attempt_id", "idempotency_contract_id"]

/-- `_REPLAY_FENCING_MIGRATION` -/
def replayFencingMigration : String := "replay_fencing_v1"

/-- The text of the index. -/
def batchIndexSql : String :=
  "CREATE INDEX idx_deliveries_batch_attempt ON deliveries (current_write_batch_attempt_id) " ++
    "WHERE current_write_batch_attempt_id IS NOT NULL"

/-- `" ".join(sql.upper().split())` -/
def normalizedSql (H : Host) (upper : String → String) (sql : String) : List Char :=
  List.intercalate [' '] (((upper sql).toList.splitOnP H.isSpace).filter fun word => word ≠ [])

/-- The index is there and leaves out the rows without an attempt. -/
def indexIsPartial (H : Host) (upper : String → String) : Option (Option String) → Bool
  | some (some sql) => decide
      ("WHERE CURRENT_WRITE_BATCH_ATTEMPT_ID IS NOT NULL".toList <:+: normalizedSql H upper sql)
  | _ => false

/-- `UPDATE deliveries SET state = target WHERE state = source`, and `cond` where it is given. -/
def moveState (source target : DeliveryState) (cond : SqlRow → Bool) (t : NamedTable) :
    Except Exn NamedTable :=
  if "state" ∈ t.columns then
    pure (t.updateWhere "state" (.text target.value) fun row =>
      decide (row "state" = .text source.value) && cond row)
  else throw (.other "sqlite3.OperationalError: no such column: state")

/-- `current_write_batch_attempt_id IS NOT NULL` -/
def hasBatchAttempt (row : SqlRow) : Bool :=
  decide (row "current_write_batch_attempt_id" ≠ .null)

/-- Fencing the rows of an older release, whose provenance is lost. -/
def fenceClaims (t : NamedTable) : Except Exn NamedTable := do
  let t ← moveState .claimed .replayClaimed (fun _ => true) t
  moveState .quarantined .replayQuarantined (fun _ => true) t

/-- Naming the batch writes of a release that told them only by their attempt. -/
def nameBatches (t : NamedTable) : Except Exn NamedTable := do
  let t ← moveState .writeStarted .batchWriteStarted hasBatchAttempt t
  moveState .uncertain .batchUncertain hasBatchAttempt t

/-- The conversion of the rows, which the marker `replay_fencing_v1` allows once. -/
def fenceReplays (replayFencingApplied deliveriesExisted hadBatchAttemptColumn : Bool)
    (t : NamedTable) : Except Exn NamedTable :=
  if replayFencingApplied then pure t
  else if deliveriesExisted && !hadBatchAttemptColumn then fenceClaims t
  else if deliveriesExisted then do nameBatches (← fenceClaims t)
  else pure t

/-- `_initialize` -/
def initializeLedger (H : Host) (upper : String → String) : EStateM Exn LedgerFile Unit :=
  transaction do
    let file ← get
    let deliveriesExisted := file.deliveries.isSome
    let found := file.deliveries.getD { columns := deliveryColumns }
    let hadBatchAttemptColumn := decide ("current_write_batch_attempt_id" ∈ found.columns)
    let widened := found.addMissing laterColumns
    let applied := file.migrations.getD []
    let replayFencingApplied := decide (replayFencingMigration ∈ applied)
    let deliveries ← fenceReplays replayFencingApplied deliveriesExisted hadBatchAttemptColumn widened
    set {
      deliveries := some deliveries
      migrations := some
        (if replayFencingApplied then applied else applied ++ [replayFencingMigration])
      batchIndex :=
        if indexIsPartial H upper file.batchIndex then file.batchIndex
        else some (some batchIndexSql) : LedgerFile }

/-! ## One row -/

/-- What the first opening makes of a row of a table with the columns `columns`. -/
structure FencedRow (columns : List String) (row row' : SqlRow) : Prop where
  others : ∀ c ∈ columns, c ≠ "state" → row' c = row c
  notClaimed : row' "state" ≠ .text DeliveryState.claimed.value
  notQuarantined : row' "state" ≠ .text DeliveryState.quarantined.value
  claimed : row "state" = .text DeliveryState.claimed.value →
    row' "state" = .text DeliveryState.replayClaimed.value
  quarantined : row "state" = .text DeliveryState.quarantined.value →
    row' "state" = .text DeliveryState.replayQuarantined.value
  batchWrite : "current_write_batch_attempt_id" ∈ columns → hasBatchAttempt row = true →
    row "state" = .text DeliveryState.writeStarted.value →
      row' "state" = .text DeliveryState.batchWriteStarted.value
  batchUncertain : "current_write_batch_attempt_id" ∈ columns → hasBatchAttempt row = true →
    row "state" = .text DeliveryState.uncertain.value →
      row' "state" = .text DeliveryState.batchUncertain.value
  kept : row "state" ≠ .text DeliveryState.claimed.value →
    row "state" ≠ .text DeliveryState.quarantined.value →
    ("current_write_batch_attempt_id" ∈ columns → hasBatchAttempt row = true →
      row "state" ≠ .text DeliveryState.writeStarted.value ∧
        row "state" ≠ .text DeliveryState.uncertain.value) →
    row' "state" = row "state"

/-- The effect of `moveState` on one row. -/
def movedRow (source target : DeliveryState) (cond : SqlRow → Bool) (row : SqlRow) : SqlRow :=
  if decide (row "state" = .text source.value) && cond row then
    Function.update row "state" (.text target.value)
  else row

theorem moveState_eq {source target : DeliveryState} {cond : SqlRow → Bool} {t : NamedTable}
    (h : "state" ∈ t.columns) :
    moveState source target cond t =
      .ok { columns := t.columns, rows := t.rows.map (movedRow source target cond) } := by
  unfold moveState
  rw [if_pos h]
  rfl

section MovedRow

variable {source target : DeliveryState} {cond : SqlRow → Bool} {row : SqlRow}

theorem movedRow_other {c : String} (h : c ≠ "state") :
    movedRow source target cond row c = row c := by
  unfold movedRow
  split
  · exact Function.update_of_ne h _ _
  · rfl

theorem movedRow_state : movedRow source target cond row "state" =
    if row "state" = .text source.value ∧ cond row = true then .text target.value
    else row "state" := by
  unfold movedRow
  by_cases h : row "state" = .text source.value ∧ cond row = true
  · rw [if_pos h, if_pos (by simp [h.1, h.2])]
    exact Function.update_self _ _ _
  · rw [if_neg h, if_neg (by simpa using h)]

end MovedRow

/-- The effect of `fenceClaims` on one row. -/
def fencedClaim (row : SqlRow) : SqlRow :=
  movedRow .quarantined .replayQuarantined (fun _ => true)
    (movedRow .claimed .replayClaimed (fun _ => true) row)

/-- The effect of `nameBatches` on one row. -/
def namedBatch (row : SqlRow) : SqlRow :=
  movedRow .uncertain .batchUncertain hasBatchAttempt
    (movedRow .writeStarted .batchWriteStarted hasBatchAttempt row)

theorem fencedClaim_other {row : SqlRow} {c : String} (h : c ≠ "state") :
    fencedClaim row c = row c :=
  (movedRow_other h).trans (movedRow_other h)

theorem namedBatch_other {row : SqlRow} {c : String} (h : c ≠ "state") :
    namedBatch row c = row c :=
  (movedRow_other h).trans (movedRow_other h)

/-- The texts of two states differ. -/
theorem text_ne {a b : DeliveryState} (h : a ≠ b) :
    (SqlValue.text a.value) ≠ SqlValue.text b.value :=
  fun hsame => h (DeliveryState.value_injective (SqlValue.text.inj hsame))

theorem fencedClaim_state (row : SqlRow) : fencedClaim row "state" =
    if row "state" = .text DeliveryState.claimed.value then
      .text DeliveryState.replayClaimed.value
    else if row "state" = .text DeliveryState.quarantined.value then
      .text DeliveryState.replayQuarantined.value
    else row "state" := by
  unfold fencedClaim
  rw [movedRow_state, movedRow_state]
  by_cases hclaimed : row "state" = .text DeliveryState.claimed.value
  · have hne := @text_ne .replayClaimed .quarantined (by decide)
    simp [hclaimed, hne]
  · simp [hclaimed]

theorem namedBatch_state (row : SqlRow) : namedBatch row "state" =
    if hasBatchAttempt row = true then
      if row "state" = .text DeliveryState.writeStarted.value then
        .text DeliveryState.batchWriteStarted.value
      else if row "state" = .text DeliveryState.uncertain.value then
        .text DeliveryState.batchUncertain.value
      else row "state"
    else row "state" := by
  have hattempt : hasBatchAttempt
      (movedRow .writeStarted .batchWriteStarted hasBatchAttempt row) = hasBatchAttempt row := by
    unfold hasBatchAttempt
    rw [movedRow_other (by decide)]
  unfold namedBatch
  rw [movedRow_state, movedRow_state, hattempt]
  by_cases hbatch : hasBatchAttempt row = true
  · by_cases hstarted : row "state" = .text DeliveryState.writeStarted.value
    · have hne := @text_ne .batchWriteStarted .uncertain (by decide)
      simp [hbatch, hstarted, hne]
    · simp [hbatch, hstarted]
  · simp [hbatch]

section FencedRow

variable {columns : List String} {row wide : SqlRow}

/-- A fenced row is neither claimed nor quarantined. -/
theorem fencedClaim_safe (row : SqlRow) :
    fencedClaim row "state" ≠ .text DeliveryState.claimed.value ∧
      fencedClaim row "state" ≠ .text DeliveryState.quarantined.value := by
  rw [fencedClaim_state]
  split
  · exact ⟨text_ne (by decide), text_ne (by decide)⟩
  · rename_i hclaimed
    split
    · exact ⟨text_ne (by decide), text_ne (by decide)⟩
    · rename_i hquarantined
      exact ⟨hclaimed, hquarantined⟩

/-- A release without the column for batch attempts. -/
theorem fencedRow_scalar (hstate : "state" ∈ columns)
    (hattempt : "current_write_batch_attempt_id" ∉ columns)
    (hwide : ∀ c ∈ columns, wide c = row c) : FencedRow columns row (fencedClaim wide) := by
  have hsame := hwide "state" hstate
  have hsafe := fencedClaim_safe wide
  have hclaim := fencedClaim_state wide
  rw [hsame] at hclaim
  refine ⟨fun c hc hne => ?_, hsafe.1, hsafe.2, fun h => ?_, fun h => ?_, fun h => ?_, fun h => ?_,
    fun hclaimed hquarantined _ => ?_⟩
  · rw [fencedClaim_other hne]
    exact hwide c hc
  · rw [hclaim, if_pos h]
  · rw [hclaim, if_neg (h ▸ text_ne (by decide)), if_pos h]
  · exact absurd h hattempt
  · exact absurd h hattempt
  · rw [hclaim, if_neg hclaimed, if_neg hquarantined]

/-- A release with the column. -/
theorem fencedRow_batch (hstate : "state" ∈ columns)
    (hattempt : "current_write_batch_attempt_id" ∈ columns)
    (hwide : ∀ c ∈ columns, wide c = row c) :
    FencedRow columns row (namedBatch (fencedClaim wide)) := by
  have hsame := hwide "state" hstate
  obtain ⟨hnotClaimed, hnotQuarantined⟩ := fencedClaim_safe wide
  have hclaim := fencedClaim_state wide
  rw [hsame] at hclaim
  have hbatch : hasBatchAttempt (fencedClaim wide) = hasBatchAttempt row := by
    unfold hasBatchAttempt
    rw [fencedClaim_other (by decide), hwide _ hattempt]
  have hnamed := namedBatch_state (fencedClaim wide)
  rw [hbatch] at hnamed
  -- Naming a batch write leads out of the two states, and into neither of the fenced ones.
  have hsafe : ∀ state : DeliveryState, state ≠ .batchWriteStarted → state ≠ .batchUncertain →
      fencedClaim wide "state" ≠ .text state.value →
      namedBatch (fencedClaim wide) "state" ≠ .text state.value := by
    intro state hstarted huncertain hother
    rw [hnamed]
    split
    · split
      · exact text_ne hstarted.symm
      · split
        · exact text_ne huncertain.symm
        · exact hother
    · exact hother
  have hthrough : ∀ state : DeliveryState, state ≠ .writeStarted → state ≠ .uncertain →
      fencedClaim wide "state" = .text state.value →
      namedBatch (fencedClaim wide) "state" = .text state.value := by
    intro state hstarted huncertain heq
    rw [hnamed, heq, if_neg (text_ne hstarted), if_neg (text_ne huncertain), ite_self]
  refine ⟨fun c hc hne => ?_, hsafe _ (by decide) (by decide) hnotClaimed,
    hsafe _ (by decide) (by decide) hnotQuarantined, fun h => ?_, fun h => ?_,
    fun _ hmarked h => ?_, fun _ hmarked h => ?_, fun hclaimed hquarantined hscalar => ?_⟩
  · rw [namedBatch_other hne, fencedClaim_other hne]
    exact hwide c hc
  · refine hthrough _ (by decide) (by decide) ?_
    rw [hclaim, if_pos h]
  · refine hthrough _ (by decide) (by decide) ?_
    rw [hclaim, if_neg (h ▸ text_ne (by decide)), if_pos h]
  · have hkept : fencedClaim wide "state" = row "state" := by
      rw [hclaim, if_neg (h ▸ text_ne (by decide)), if_neg (h ▸ text_ne (by decide))]
    rw [hnamed, if_pos hmarked, hkept, if_pos h]
  · have hkept : fencedClaim wide "state" = row "state" := by
      rw [hclaim, if_neg (h ▸ text_ne (by decide)), if_neg (h ▸ text_ne (by decide))]
    rw [hnamed, if_pos hmarked, hkept, if_neg (h ▸ text_ne (by decide)), if_pos h]
  · have hkept : fencedClaim wide "state" = row "state" := by
      rw [hclaim, if_neg hclaimed, if_neg hquarantined]
    rw [hnamed, hkept]
    split
    · rename_i hmarked
      obtain ⟨hstarted, huncertain⟩ := hscalar hattempt hmarked
      rw [if_neg hstarted, if_neg huncertain]
    · rfl

end FencedRow

/-! ## The file -/

section File

variable (H : Host) (upper : String → String)

/-- A file that this release has opened. -/
structure Opened (file : LedgerFile) : Prop where
  marked : ∃ applied, file.migrations = some applied ∧ replayFencingMigration ∈ applied
  wide : ∃ t, file.deliveries = some t ∧ ∀ c ∈ laterColumns, c ∈ t.columns

variable {H upper} {file : LedgerFile} {t : NamedTable}

theorem fenceClaims_eq (h : "state" ∈ t.columns) :
    fenceClaims t = .ok { columns := t.columns, rows := t.rows.map fencedClaim } := by
  unfold fenceClaims
  rw [moveState_eq h, ok_bind]
  refine (moveState_eq ?_).trans ?_
  · exact h
  · rw [List.map_map]
    rfl

theorem nameBatches_eq (h : "state" ∈ t.columns) :
    nameBatches t = .ok { columns := t.columns, rows := t.rows.map namedBatch } := by
  unfold nameBatches
  rw [moveState_eq h, ok_bind]
  refine (moveState_eq ?_).trans ?_
  · exact h
  · rw [List.map_map]
    rfl

/-- A file after an opening that left it with the deliveries `t` and the markers `applied`. -/
def afterOpening (H : Host) (upper : String → String) (file : LedgerFile) (t : NamedTable)
    (applied : List String) : LedgerFile where
  deliveries := some t
  migrations := some applied
  batchIndex :=
    if indexIsPartial H upper file.batchIndex then file.batchIndex else some (some batchIndexSql)

theorem opened_afterOpening {applied : List String} (hmarked : replayFencingMigration ∈ applied)
    (hlater : ∀ c ∈ laterColumns, c ∈ t.columns) : Opened (afterOpening H upper file t applied) :=
  ⟨⟨applied, rfl, hmarked⟩, t, rfl, hlater⟩

/-- The first opening fences every row and leaves the marker. -/
theorem initializeLedger_first (hdeliveries : file.deliveries = some t)
    (hstate : "state" ∈ t.columns)
    (hfirst : replayFencingMigration ∉ file.migrations.getD []) :
    ∃ file' t', initializeLedger H upper file = .ok () file' ∧ file'.deliveries = some t' ∧
      (∀ c ∈ t.columns, c ∈ t'.columns) ∧ List.Forall₂ (FencedRow t.columns) t.rows t'.rows ∧
      Opened file' := by
  obtain ⟨widen, hrows, hkept⟩ := @NamedTable.addMissing_rows laterColumns t
  have hwide : "state" ∈ (t.addMissing laterColumns).columns := NamedTable.mem_addMissing hstate
  have hlater : ∀ c ∈ laterColumns, c ∈ (t.addMissing laterColumns).columns :=
    fun c hc => NamedTable.mem_addMissing_of_mem hc
  have hold : ∀ c ∈ t.columns, c ∈ (t.addMissing laterColumns).columns :=
    fun c hc => NamedTable.mem_addMissing hc
  have hmarked : replayFencingMigration ∈
      file.migrations.getD [] ++ [replayFencingMigration] :=
    List.mem_append_right _ (List.mem_singleton_self _)
  have hmarker : decide (replayFencingMigration ∈ file.migrations.getD []) = false :=
    decide_eq_false hfirst
  have hfences := fenceClaims_eq hwide
  have hexisted : file.deliveries.isSome = true := by
    rw [hdeliveries]
    rfl
  have hfound : file.deliveries.getD { columns := deliveryColumns } = t := by
    rw [hdeliveries]
    rfl
  by_cases hattempt : "current_write_batch_attempt_id" ∈ t.columns
  · have hnames := @nameBatches_eq {
      columns := (t.addMissing laterColumns).columns
      rows := (t.addMissing laterColumns).rows.map fencedClaim } hwide
    have hrun : fenceReplays false true true (t.addMissing laterColumns) = .ok {
        columns := (t.addMissing laterColumns).columns
        rows := ((t.addMissing laterColumns).rows.map fencedClaim).map namedBatch } := by
      unfold fenceReplays
      rw [if_neg Bool.false_ne_true, if_neg (by decide), if_pos rfl, hfences, ok_bind]
      exact hnames
    refine ⟨afterOpening H upper file {
        columns := (t.addMissing laterColumns).columns
        rows := ((t.addMissing laterColumns).rows.map fencedClaim).map namedBatch } _, _,
      transaction_of_ok ?_, rfl, hold, ?_, opened_afterOpening hmarked hlater⟩
    · rw [bind_apply, get_apply]
      dsimp only
      rw [hfound, hexisted, decide_eq_true hattempt, hmarker, lift_ok_bind hrun]
      rfl
    · dsimp only
      rw [hrows, List.map_map, List.map_map]
      refine List.forall₂_map_right_iff.2 (List.forall₂_same.2 fun row _ => ?_)
      exact fencedRow_batch hstate hattempt (hkept row)
  · have hrun : fenceReplays false true false (t.addMissing laterColumns) = .ok {
        columns := (t.addMissing laterColumns).columns
        rows := (t.addMissing laterColumns).rows.map fencedClaim } := by
      unfold fenceReplays
      rw [if_neg Bool.false_ne_true, if_pos (by decide)]
      exact hfences
    refine ⟨afterOpening H upper file {
        columns := (t.addMissing laterColumns).columns
        rows := (t.addMissing laterColumns).rows.map fencedClaim } _, _,
      transaction_of_ok ?_, rfl, hold, ?_, opened_afterOpening hmarked hlater⟩
    · rw [bind_apply, get_apply]
      dsimp only
      rw [hfound, hexisted, decide_eq_false hattempt, hmarker, lift_ok_bind hrun]
      rfl
    · dsimp only
      rw [hrows, List.map_map]
      refine List.forall₂_map_right_iff.2 (List.forall₂_same.2 fun row _ => ?_)
      exact fencedRow_scalar hstate hattempt (hkept row)

/-- Opening a file again leaves its deliveries as they are. -/
theorem initializeLedger_again (h : Opened file) :
    ∃ file', initializeLedger H upper file = .ok () file' ∧
      file'.deliveries = file.deliveries ∧ Opened file' := by
  obtain ⟨⟨applied, hmigrations, hmarked⟩, t, hdeliveries, hlater⟩ := h
  have hwidened : t.addMissing laterColumns = t := NamedTable.addMissing_of_subset hlater
  have hfound : file.deliveries.getD { columns := deliveryColumns } = t := by
    rw [hdeliveries]
    rfl
  have happlied : file.migrations.getD [] = applied := by
    rw [hmigrations]
    rfl
  have hrun : ∀ existed had, fenceReplays true existed had t = .ok t := fun _ _ => rfl
  refine ⟨afterOpening H upper file t applied, transaction_of_ok ?_, hdeliveries.symm,
    opened_afterOpening hmarked hlater⟩
  rw [bind_apply, get_apply]
  dsimp only
  rw [hfound, happlied, decide_eq_true hmarked, hwidened, lift_ok_bind (hrun _ _)]
  rfl

/-- A step of a file after its first opening: another opening, alone or one of several workers at
once, which the write lock puts one after the other, or an operation, which writes rows. -/
inductive LedgerFileStep (H : Host) (upper : String → String) : LedgerFile → LedgerFile → Prop where
  | opens (file : LedgerFile) :
      LedgerFileStep H upper file (outcome (initializeLedger H upper) file).2
  | operates {file : LedgerFile} {t : NamedTable} (rows : List SqlRow)
      (h : file.deliveries = some t) :
      LedgerFileStep H upper file { file with deliveries := some { t with rows := rows } }

/-- Every step leaves the file opened. -/
theorem Opened.step {file' : LedgerFile} (h : Opened file)
    (hstep : LedgerFileStep H upper file file') : Opened file' := by
  cases hstep with
  | opens =>
      obtain ⟨file', hopen, -, hopened⟩ := (@initializeLedger_again H upper file) h
      rw [outcome_of_ok hopen]
      exact hopened
  | operates rows hdeliveries =>
      obtain ⟨hmarked, t, ht, hlater⟩ := h
      obtain rfl := Option.some.inj (ht.symm.trans hdeliveries)
      exact ⟨hmarked, _, rfl, hlater⟩

theorem Opened.run {file' : LedgerFile} (h : Opened file)
    (hrun : Relation.ReflTransGen (LedgerFileStep H upper) file file') : Opened file' := by
  induction hrun with
  | refl => exact h
  | tail _ hstep ih => exact ih.step hstep

end File

/-- **The migration is conservative and happens once.** The first opening of a file with a table of
deliveries fences every row of it; no opening in any later run changes a row. -/
theorem migration_once (H : Host) (upper : String → String) (file : LedgerFile) (t : NamedTable)
    (hdeliveries : file.deliveries = some t) (hstate : "state" ∈ t.columns)
    (hfirst : replayFencingMigration ∉ file.migrations.getD []) :
    ∃ file' t', initializeLedger H upper file = .ok () file' ∧ file'.deliveries = some t' ∧
      (∀ c ∈ t.columns, c ∈ t'.columns) ∧ List.Forall₂ (FencedRow t.columns) t.rows t'.rows ∧
      ∀ later, Relation.ReflTransGen (LedgerFileStep H upper) file' later →
        (outcome (initializeLedger H upper) later).2.deliveries = later.deliveries := by
  obtain ⟨file', t', hopen, hdeliveries', hcolumns, hrows, hopened⟩ :=
    (@initializeLedger_first H upper file t) hdeliveries hstate hfirst
  refine ⟨file', t', hopen, hdeliveries', hcolumns, hrows, fun later hrun => ?_⟩
  obtain ⟨again, hagain, hsame, -⟩ := (@initializeLedger_again H upper later) (hopened.run hrun)
  rw [outcome_of_ok hagain]
  exact hsame

/-- A table of the release before batch writes, with one claimed row. -/
def olderDeliveries : NamedTable where
  columns := deliveryColumns.take 10
  rows := [fun c => .text (if c = "state" then DeliveryState.claimed.value else c)]

/-- The claimed row is fenced once. -/
theorem migration_once_sample :
    ∃ file' t', initializeLedger standardHost String.toUpper { deliveries := some olderDeliveries } =
        .ok () file' ∧ file'.deliveries = some t' ∧
      (∀ c ∈ olderDeliveries.columns, c ∈ t'.columns) ∧
      List.Forall₂ (FencedRow olderDeliveries.columns) olderDeliveries.rows t'.rows ∧
      ∀ later, Relation.ReflTransGen (LedgerFileStep standardHost String.toUpper) file' later →
        (outcome (initializeLedger standardHost String.toUpper) later).2.deliveries =
          later.deliveries :=
  migration_once standardHost String.toUpper { deliveries := some olderDeliveries } olderDeliveries
    rfl (by decide) (by decide)

end LedgerFile

end Polymorph
