import Polymorph.Binary.Lines
import Polymorph.Observability.Events

/-!
# The event stream

`EventStream` appends batches of encoded events to one file under a path lock and reads them back.
Each call carries the faults it meets: what every `os.write` does, whether `os.fsync` raises, and
whether the rollback does. Writers keep the size and the time of the file they last validated; the
time after a call is arbitrary, so that nothing depends on the clock of the file system.
-/

set_option autoImplicit false

namespace Polymorph

open JsonText Utc

def maxEventBatchEvents : Nat := 10000

def minEventStreamBytes : Nat := 4096

def maxEventStreamBytes : Nat := 1024 * 1024 * 1024

/-! ## Lines -/

/-- `_encode_event` -/
def encodeEvent (H : Host) (event : OperationalEvent) : Except Exn (List UInt8) := do
  let payload ← event.asDict H
  let encoded := utf8Bytes (canonical payload).toList ++ [10]
  if encoded.length > maxCompactEventBytes then
    throw (.valueError "operational event exceeds the compact writer size limit")
  if encoded.length > maxEventBytes then
    throw (.valueError "operational event exceeds the bounded line size")
  return encoded

/-- `json.loads` takes bytes that start so as UTF-8 without a byte order mark. -/
def startsAsUtf8 : List UInt8 → Bool
  | a :: b :: _ => a ≠ 0 && b ≠ 0 && a ∉ [0xef, 0xfe, 0xff]
  | _ => true

def lineError (number : Nat) (text : String) : Exn :=
  .integrityError ("operational event line " ++ toString number ++ text)

/-- `json.loads` of a line; what it makes of bytes in another encoding is a parameter. -/
def loadLine (loadsOther : List UInt8 → Option Json) (number : Nat) (encoded : List UInt8) :
    Except Exn Json :=
  match if startsAsUtf8 encoded then (decodeUtf8 encoded).bind loads else loadsOther encoded with
  | none => .error (lineError number " is invalid JSON")
  | some payload =>
      if uniqueKeys payload then .ok payload
      else .error (.integrityError "operational event JSON contains a duplicate field")

/-- One turn of `_iter_handle`, with the number of the lines before it. -/
def readLine (H : Host) (loadsOther : List UInt8 → Option Json) (number : Nat)
    (encoded : List UInt8) : Except Exn OperationalEvent :=
  if encoded.length > maxEventBytes then
    .error (lineError (number + 1) " exceeds the size limit")
  else if encoded.getLast? ≠ some 10 then
    .error (.integrityError "operational event stream has an incomplete tail")
  else
    match loadLine loadsOther (number + 1) encoded with
    | .error e => .error e
    | .ok (.obj members) => OperationalEvent.fromDict H (.obj members)
    | .ok _ => .error (lineError (number + 1) " is invalid JSON")

/-- `_iter_handle`, to its end -/
def iterHandle (H : Host) (loadsOther : List UInt8 → Option Json) (bytes : List UInt8) :
    Except Exn (List OperationalEvent) :=
  Bytes.forLines maxEventBytes (readLine H loadsOther) 0 bytes

/-! ## The file -/

/-- The file at the path, with its modification time. -/
structure StreamFile where
  bytes : List UInt8 := []
  mtime : Nat := 0

/-- The bytes at the path. -/
def contents : Option StreamFile → List UInt8
  | none => []
  | some file => file.bytes

/-- The parts of a file's state that a writer remembers; the path names the same file throughout. -/
def StreamFile.state (file : StreamFile) : Nat × Nat := (file.bytes.length, file.mtime)

/-- What `os.write` does: it writes at most so many bytes, or raises. -/
inductive OsWrite where
  | wrote (count : Nat)
  | raised (e : Exn)

/-- What a call meets. -/
structure AppendFaults where
  /-- the wait for the lock, or what precedes it, raises -/
  lock : Option Exn := none
  /-- `os.open` or a check of the opened file raises -/
  opening : Option Exn := none
  /-- `os.chmod` raises -/
  chmod : Option Exn := none
  write : Nat → OsWrite
  sync : Option Exn := none
  rollbackTruncate : Option Exn := none
  rollbackSync : Option Exn := none
  /-- the modification time of the file when the call ends -/
  mtime : Nat

/-- `ftruncate` and `fsync` of the rollback succeed. -/
def AppendFaults.RollsBack (faults : AppendFaults) : Prop :=
  faults.rollbackTruncate = none ∧ faults.rollbackSync = none

/-- What a call leaves: the file, the state the writer has validated, and the outcome. -/
structure AppendResult where
  file : Option StreamFile
  validated : Option (Nat × Nat)
  outcome : Except Exn Unit

/-- The loop over `os.write`: the bytes of the file after it, and what it raised. -/
def writeRemaining (write : Nat → OsWrite) (index : Nat) (remaining bytes : List UInt8) :
    List UInt8 × Option Exn :=
  if remaining = [] then (bytes, none)
  else
    match write index with
    | .raised e => (bytes, some e)
    | .wrote count =>
        if min count remaining.length = 0 then
          (bytes, some (.other "operational event append made no progress"))
        else
          writeRemaining write (index + 1) (remaining.drop (min count remaining.length))
            (bytes ++ remaining.take (min count remaining.length))
termination_by remaining.length
decreasing_by
  rw [List.length_drop]
  omega

/-- The checks of `_open_for_append` on the opened file. -/
def checkOpened (H : Host) (loadsOther : List UInt8 → Option Json) (maxStreamBytes : Nat)
    (validated : Option (Nat × Nat)) (file : StreamFile) : Except Exn Unit :=
  if file.bytes.length > maxStreamBytes then
    .error (.integrityError "operational event stream exceeds its configured size limit")
  else if file.bytes = [] then .ok ()
  else if file.bytes.getLast? ≠ some 10 then
    .error (.integrityError "operational event stream has an incomplete tail")
  else if validated = some file.state then .ok ()
  else
    match iterHandle H loadsOther file.bytes with
    | .error e => .error e
    | .ok _ => .ok ()

/-- The writes of `_append_encoded_batch` to the opened file, with the rollback. -/
def appendOpened (faults : AppendFaults) (batch : List UInt8) (file : StreamFile) : AppendResult :=
  let (written, raised) := writeRemaining faults.write 0 batch file.bytes
  match raised <|> faults.sync with
  | none =>
      let after := { bytes := written, mtime := faults.mtime : StreamFile }
      ⟨some after, some after.state, .ok ()⟩
  | some e =>
      match faults.rollbackTruncate, faults.rollbackSync with
      | none, none => ⟨some { file with mtime := faults.mtime }, some file.state, .error e⟩
      | none, some _ => ⟨some { file with mtime := faults.mtime }, none, .error e⟩
      | some _, _ => ⟨some { bytes := written, mtime := faults.mtime }, none, .error e⟩

/-- `_append_encoded_batch` -/
def appendEncodedBatch (H : Host) (loadsOther : List UInt8 → Option Json) (maxStreamBytes : Nat)
    (faults : AppendFaults) (batch : List UInt8) (path : Option StreamFile)
    (validated : Option (Nat × Nat)) : AppendResult :=
  if batch = [] then ⟨path, validated, .ok ()⟩
  else
    match faults.lock, faults.opening with
    | some e, _ => ⟨path, validated, .error e⟩
    | none, some e => ⟨path, validated, .error e⟩
    | none, none =>
        -- `O_CREAT`
        let file := path.getD { mtime := faults.mtime }
        match checkOpened H loadsOther maxStreamBytes validated file, faults.chmod with
        | .error e, _ => ⟨some file, validated, .error e⟩
        | .ok (), some e => ⟨some file, some file.state, .error e⟩
        | .ok (), none =>
            if file.bytes.length + batch.length > maxStreamBytes then
              ⟨some file, some file.state,
                .error (.valueError "operational event stream reached its configured size limit")⟩
            else appendOpened faults batch file

/-- `read`, under the lock -/
def readStream (H : Host) (loadsOther : List UInt8 → Option Json) (maxStreamBytes : Nat)
    (path : Option StreamFile) : Except Exn (List OperationalEvent) :=
  match path with
  | none => .ok []
  | some file =>
      if file.bytes.length > maxStreamBytes then
        .error (.integrityError "operational event stream exceeds its configured size limit")
      else iterHandle H loadsOther file.bytes

/-! ## Batches -/

/-- The loop over the items of a batch: each gives an event or raises, and its line is added. -/
def encodeBatch {α : Type} (H : Host) (maxStreamBytes : Nat)
    (make : Nat → α → Except Exn OperationalEvent) (index : Nat) (batch : List UInt8) :
    List α → Except Exn (List OperationalEvent × List UInt8)
  | [] => .ok ([], batch)
  | item :: items => do
      if index ≥ maxEventBatchEvents then
        throw (.valueError "operational event batch exceeds the event count limit")
      let event ← make index item
      let encoded ← encodeEvent H event
      if batch.length + encoded.length > maxStreamBytes then
        throw (.valueError "operational event batch exceeds the configured size limit")
      let (events, batch) ← encodeBatch H maxStreamBytes make (index + 1) (batch ++ encoded) items
      return (event :: events, batch)

/-- The identifiers and the times that a call draws for its items. -/
structure Drawn where
  eventId : Nat → String
  correlationId : Nat → String
  clock : Nat → Timestamp

/-- What `emit_many` is given for a field: a text, or a value of another type. -/
inductive FieldValue where
  | text (s : String)
  | value (v : PyValue)

def FieldValue.toValue : FieldValue → PyValue
  | .text s => .str (PyText.ofString s)
  | .value v => v

/-- `_EMIT_FIELDS` -/
def emitFields : List String :=
  ["component", "event_type", "status", "correlation_id", "reason_code", "duration_ms",
    "item_count"]

/-- `_REQUIRED_EMIT_FIELDS` -/
def requiredEmitFields : List String := ["component", "event_type", "status"]

/-- A field that has to be a text. -/
def textField (message : String) : Option FieldValue → Except Exn String
  | some (.text s) => .ok s
  | _ => .error (.typeError message)

/-- A field that has to be a text when it is given. -/
def optionalTextField (message : String) : Option FieldValue → Except Exn (Option String)
  | none => .ok none
  | some (.value .none) => .ok none
  | some (.text s) => .ok (some s)
  | some (.value _) => .error (.typeError message)

/-- The event of an emission; a specification is a mapping, listed with its keys, or nothing of the
kind. A key that is no text is listed as none. -/
def emission (runId : String) (drawn : Drawn) (index : Nat) :
    Option (List (Option String × FieldValue)) → Except Exn OperationalEvent
  | none => .error (.typeError "operational event batch items must be mappings")
  | some specification => do
      let keys := specification.map Prod.fst
      if keys.any (fun key => key.all (· ∉ emitFields)) || !decide keys.Nodup then
        throw (.valueError "operational event emission has an invalid field set")
      if !requiredEmitFields.all (fun field => some field ∈ keys) then
        throw (.valueError "operational event emission has an invalid field set")
      let get (field : String) := (specification.find? (·.1 = some field)).map Prod.snd
      let component ← textField "operational event component must be a string" (get "component")
      let eventType ← textField "operational event type must be a string" (get "event_type")
      let status ← textField "operational event status must be a string" (get "status")
      let correlationId ←
        optionalTextField "operational event correlation_id must be a string" (get "correlation_id")
      let reasonCode ←
        optionalTextField "operational event reason_code must be a string" (get "reason_code")
      return {
        eventId := drawn.eventId index
        runId
        correlationId := correlationId.getD (drawn.correlationId index)
        timestamp := drawn.clock index
        component, eventType, status, reasonCode
        durationMs := ((get "duration_ms").map FieldValue.toValue).getD .none
        itemCount := ((get "item_count").map FieldValue.toValue).getD .none }

/-- An item of `append_many`: an event of this writer's run, or it raises. -/
def ownEvent (runId : String) : Option OperationalEvent → Except Exn OperationalEvent
  | none =>
      .error (.typeError "operational event batch items must be OperationalEvent instances")
  | some event =>
      if event.runId = runId then .ok event
      else .error (.valueError "event run_id does not match this stream writer")

/-! ## Calls -/

/-- The arguments of `emit`. -/
structure EmitFields where
  component : String
  eventType : String
  status : String
  correlationId : Option String := none
  reasonCode : Option String := none
  durationMs : PyValue := .none
  itemCount : PyValue := .none

inductive StreamRequest where
  | emit (fields : EmitFields)
  | emitMany (specifications : List (Option (List (Option String × FieldValue))))
  | appendMany (events : List (Option OperationalEvent))

/-- A call on the path: the writer, what it is asked, what it draws and what it meets. -/
structure StreamCall where
  writer : Nat
  request : StreamRequest
  drawn : Drawn
  faults : AppendFaults

/-- The event that `emit` creates. -/
def EmitFields.event (fields : EmitFields) (runId : String) (drawn : Drawn) : OperationalEvent where
  eventId := drawn.eventId 0
  runId := runId
  correlationId := fields.correlationId.getD (drawn.correlationId 0)
  timestamp := drawn.clock 0
  component := fields.component
  eventType := fields.eventType
  status := fields.status
  reasonCode := fields.reasonCode
  durationMs := fields.durationMs
  itemCount := fields.itemCount

/-- The events and the encoded batch of a request. -/
def prepareBatch (H : Host) (maxStreamBytes : Nat) (runId : String) (drawn : Drawn) :
    StreamRequest → Except Exn (List OperationalEvent × List UInt8)
  | .emit fields =>
      encodeBatch H maxStreamBytes (fun _ => ownEvent runId) 0 [] [some (fields.event runId drawn)]
  | .emitMany specifications =>
      encodeBatch H maxStreamBytes (emission runId drawn) 0 [] specifications
  | .appendMany events => encodeBatch H maxStreamBytes (fun _ => ownEvent runId) 0 [] events

/-- The writers on a path: their common limit and the run of each. -/
structure EventStreams where
  maxStreamBytes : Nat
  runId : Nat → String
  validLimit : minEventStreamBytes ≤ maxStreamBytes ∧ maxStreamBytes ≤ maxEventStreamBytes
  validRuns : ∀ writer, isLowerHex 32 (runId writer) = true

/-- The file and what each writer has validated. -/
structure StreamSystem where
  file : Option StreamFile := none
  validated : Nat → Option (Nat × Nat) := fun _ => none

/-- What a call leaves, and the events it has appended when it returned. -/
def performCall (H : Host) (loadsOther : List UInt8 → Option Json) (streams : EventStreams)
    (s : StreamSystem) (call : StreamCall) : StreamSystem × Except Exn (List OperationalEvent) :=
  match prepareBatch H streams.maxStreamBytes (streams.runId call.writer) call.drawn call.request with
  | .error e => (s, .error e)
  | .ok (events, batch) =>
      let result := appendEncodedBatch H loadsOther streams.maxStreamBytes call.faults batch s.file
        (s.validated call.writer)
      ({ file := result.file
         validated := fun writer =>
          if writer = call.writer then result.validated else s.validated writer },
        result.outcome.map fun _ => events)

/-- The system after calls in the order of the lock, and the events of those that returned. -/
def performCalls (H : Host) (loadsOther : List UInt8 → Option Json) (streams : EventStreams) :
    List StreamCall → StreamSystem × List OperationalEvent :=
  List.foldl
    (fun done call =>
      let result := performCall H loadsOther streams done.1 call
      (result.1, done.2 ++ (result.2.toOption.getD [])))
    ({}, [])

end Polymorph
