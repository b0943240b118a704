import Polymorph.Concurrency.Transaction
import Polymorph.Errors
import Polymorph.Model.CheckedText
import Polymorph.Storage.Table
import Polymorph.Text.JsonLayout
import Polymorph.Text.Loading

/-!
# Checkpoints of recurring runs

One row for each route holds its cursor, its generation, the records committed so far and the run
that committed last. `advance` replaces a row in one transaction if the generation is the expected
one, and answers a repetition of the last run with the stored row. A cursor is a decoded JSON value;
the clock is an argument.
-/

set_option autoImplicit false

namespace Polymorph

open JsonText Table Transaction Utc

/-! ## Identifiers and cursors -/

/-- `MAX_CURSOR_BYTES` -/
def maxCursorBytes : Nat := 64 * 1024

/-- `MAX_CURSOR_NODES` -/
def maxCursorNodes : Nat := 4096

/-- `MAX_CURSOR_DEPTH` -/
def maxCursorDepth : Nat := 12

/-- `_bounded_identifier` -/
def boundedIdentifier (name value : String) : Except Exn String :=
  if isBoundedText 256 value then .ok value
  else if value.isEmpty || 256 < value.length then
    .error (.polymorphError (name ++ " must contain 1..256 characters"))
  else .error (.polymorphError (name ++ " contains control characters"))

/-- A decoded JSON value: objects are dictionaries and numbers are those that Python writes. -/
structure Cursor where
  value : Json
  readable : readable value = true
  dictionary : uniqueKeys value = true

/-- One more node of a cursor. -/
def countNode (depth counter : Nat) : Except Exn Nat :=
  if maxCursorNodes < counter + 1 || maxCursorDepth < depth then
    .error (.polymorphError "sync cursor exceeds the structural safety limit")
  else .ok (counter + 1)

mutual

/-- `_validate_cursor`; the result is the counter of the nodes visited so far. -/
def validateCursor (depth counter : Nat) : Json → Except Exn Nat
  | .null => countNode depth counter
  | .bool _ => countNode depth counter
  | .int _ => countNode depth counter
  | .real _ => countNode depth counter
  | .constant _ => do
      let _ ← countNode depth counter
      throw (.polymorphError "sync cursor contains a non-finite number")
  | .str s => do
      let counter ← countNode depth counter
      if maxCursorBytes < s.length then
        throw (.polymorphError "sync cursor string exceeds the local safety limit")
      return counter
  | .arr items => do
      let counter ← countNode depth counter
      validateItems (depth + 1) counter items
  | .obj members => do
      let counter ← countNode depth counter
      validateMembers (depth + 1) counter members

def validateItems (depth counter : Nat) : List Json → Except Exn Nat
  | [] => .ok counter
  | x :: xs => do
      let counter ← validateCursor depth counter x
      validateItems depth counter xs

def validateMembers (depth counter : Nat) : List (String × Json) → Except Exn Nat
  | [] => .ok counter
  | (k, v) :: rest => do
      if 256 < k.length then
        throw (.polymorphError "sync cursor object keys must be bounded strings")
      let counter ← validateCursor depth counter v
      validateMembers depth counter rest

end

/-- `_cursor_json` -/
def cursorJson (value : Json) : Except Exn String := do
  let _ ← validateCursor 0 0 value
  if !shortIntegers value then throw (.polymorphError "sync cursor is not canonical JSON")
  let rendered := asciiCompact.text (sortKeys value)
  if maxCursorBytes < rendered.utf8ByteSize then
    throw (.polymorphError "sync cursor exceeds the local byte limit")
  return rendered

/-! ## Receipts -/

/-- The text is a timestamp with a timezone. -/
def isAwareTimestamp (H : Host) (text : String) : Bool :=
  match readTimestamp H text with
  | some (.aware _) => true
  | _ => false

/-- The proof of a completed write. -/
structure CommitReceipt (H : Host) where
  runId : String
  committedRecords : Nat
  completedAt : String
  runId_bounded : isBoundedText 256 runId = true
  completedAt_aware : isAwareTimestamp H completedAt = true

namespace CommitReceipt

variable {H : Host}

/-- `CommitReceipt(...)` -/
def make (runId : String) (committedRecords : Int) (completedAt outcome : String) :
    Except Exn (CommitReceipt H) := do
  let _ ← boundedIdentifier "run_id" runId
  if outcome ≠ "completed" then
    throw (.polymorphError "only a completed write can create a commit receipt")
  if committedRecords < 0 then
    throw (.polymorphError "committed record count cannot be negative")
  if hrun : isBoundedText 256 runId = true then
    if haware : isAwareTimestamp H completedAt = true then
      return ⟨runId, committedRecords.toNat, completedAt, hrun, haware⟩
    else if (readTimestamp H completedAt).isNone then
      throw (.polymorphError "commit receipt timestamp is invalid")
    else throw (.polymorphError "commit receipt timestamp must include a timezone")
  else throw (.polymorphError "run_id must contain 1..256 characters")

/-- `CommitReceipt.sha256` -/
def sha256 (receipt : CommitReceipt H) : String :=
  H.sha256Hex (asciiCompact.text (sortKeys (.obj [
    ("committed_records", .int receipt.committedRecords),
    ("completed_at", .str receipt.completedAt), ("outcome", .str "completed"),
    ("run_id", .str receipt.runId)])))

end CommitReceipt

/-! ## The store -/

/-- A row of `checkpoints`. -/
structure CheckpointRow where
  routeId : String
  generation : Nat
  cursorJson : String
  committedRecords : Nat
  runId : String
  updatedAt : String
  receiptSha256 : String
deriving DecidableEq

/-- A row with its cursor decoded. -/
structure SyncCheckpoint where
  routeId : String
  generation : Nat
  cursor : Json
  committedRecords : Nat
  runId : String
  updatedAt : String
  receiptSha256 : String

/-- `_checkpoint` -/
def CheckpointRow.checkpoint (row : CheckpointRow) : Except Exn SyncCheckpoint :=
  match loads row.cursorJson with
  | none => .error (.valueError "JSONDecodeError")
  | some cursor =>
      if !shortIntegers cursor then
        .error (.valueError "Exceeds the limit for integer string conversion")
      else
        .ok {
          routeId := row.routeId
          generation := row.generation
          cursor := plain cursor
          committedRecords := row.committedRecords
          runId := row.runId
          updatedAt := row.updatedAt
          receiptSha256 := row.receiptSha256 }

/-- The arguments of `advance` and the clock. -/
structure AdvanceCall (H : Host) where
  routeId : String
  expectedGeneration : Int
  nextCursor : Cursor
  receipt : CommitReceipt H
  now : Instant

/-- The first integer that a column cannot hold. -/
def sqliteIntegerBound : Nat := 2 ^ 63

namespace SyncStateStore

variable {H : Host}

/-- `get` -/
def getCheckpoint (routeId : String) (rows : List CheckpointRow) :
    Except Exn (Option SyncCheckpoint) := do
  let key ← boundedIdentifier "route_id" routeId
  match selectBy CheckpointRow.routeId key rows with
  | none => return none
  | some row => return some (← row.checkpoint)

/-- `INSERT … ON CONFLICT(route_id) DO UPDATE`, under the unique index on `run_id`. -/
def upsert (new : CheckpointRow) (rows : List CheckpointRow) :
    Except Exn (List CheckpointRow) :=
  if rows.any fun row => row.runId = new.runId && row.routeId ≠ new.routeId then
    .error (.other "sqlite3.IntegrityError")
  else if (selectBy CheckpointRow.routeId new.routeId rows).isSome then
    .ok (rows.map fun row => if row.routeId = new.routeId then new else row)
  else .ok (rows ++ [new])

/-- The write of `advance` over the row of generation `current`. -/
def commitRow (call : AdvanceCall H) (cursorJson : String) (current committed : Nat) :
    EStateM Exn (List CheckpointRow) (Option SyncCheckpoint) := do
  if (current : Int) ≠ call.expectedGeneration then
    throw (.polymorphError "checkpoint generation changed before commit")
  let total := committed + call.receipt.committedRecords
  if sqliteIntegerBound ≤ total || sqliteIntegerBound ≤ current + 1 then
    throw (.overflowError "Python int too large to convert to SQLite INTEGER")
  let rows ← get
  let rows ← upsert {
    routeId := call.routeId
    generation := current + 1
    cursorJson := cursorJson
    committedRecords := total
    runId := call.receipt.runId
    updatedAt := nowText call.now
    receiptSha256 := call.receipt.sha256 } rows
  set rows
  return none

/-- The body of the transaction of `advance`; its value is the stored row of a repeated run. -/
def advanceBody (call : AdvanceCall H) (rendered : String) :
    EStateM Exn (List CheckpointRow) (Option SyncCheckpoint) := do
  match selectBy CheckpointRow.routeId call.routeId (← get) with
  | none => commitRow call rendered 0 0
  | some row =>
      if row.runId = call.receipt.runId then do
        let existing ← row.checkpoint
        if existing.receiptSha256 ≠ call.receipt.sha256 then
          throw (.polymorphError "run id was already used with different checkpoint evidence")
        let stored ← cursorJson existing.cursor
        if stored ≠ rendered then
          throw (.polymorphError "run id was already used with different checkpoint evidence")
        return some existing
      else commitRow call rendered row.generation row.committedRecords

/-- `advance` up to its `COMMIT`. -/
def advanceTransaction (call : AdvanceCall H) :
    EStateM Exn (List CheckpointRow) (Option SyncCheckpoint) := do
  let _ ← boundedIdentifier "route_id" call.routeId
  if call.expectedGeneration < 0 then
    throw (.polymorphError "expected checkpoint generation cannot be negative")
  let rendered ← cursorJson call.nextCursor.value
  transaction (advanceBody call rendered)

/-- What `advance` returns or raises. Its transaction meets the table `before`; the read after the
commit is a transaction of its own and meets a later table. -/
def advance (call : AdvanceCall H) (before later : List CheckpointRow) :
    Except Exn SyncCheckpoint :=
  match (outcome (advanceTransaction call) before).1 with
  | .error e => .error e
  | .ok (some existing) => .ok existing
  | .ok none =>
      match getCheckpoint call.routeId later with
      | .error e => .error e
      | .ok none => .error (.polymorphError "checkpoint commit was not observable")
      | .ok (some checkpoint) => .ok checkpoint

end SyncStateStore

end Polymorph
