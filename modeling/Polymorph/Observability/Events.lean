import Polymorph.Errors
import Polymorph.Host
import Polymorph.Text.JsonLines

/-!
# Operational events

An event without payload data, as `OperationalEvent` checks, writes and reads it. A timestamp is
naive, an instant in UTC, or an aware one that UTC cannot represent; the duration and the count
are values of any type, as the callers of `emit` pass them.
-/

set_option autoImplicit false

namespace Polymorph

open JsonText Utc

/-! ## Numbers -/

/-- The bits of the float nearest to a natural number, ties to even; the exponent absorbs a carry
of the rounding. -/
def nearestBits (n : Nat) : Nat :=
  if n = 0 then 0
  else if n.log2 ≤ 52 then (n.log2 + 1022) * 2 ^ 52 + n * 2 ^ (52 - n.log2)
  else
    let unit := 2 ^ (n.log2 - 52)
    let up := n % unit > unit / 2 ∨ (n % unit = unit / 2 ∧ n / unit % 2 = 1)
    (n.log2 + 1022) * 2 ^ 52 + (n / unit + if up then 1 else 0)

/-- `float(z)`; `none` is an overflow. -/
def PyFloat.ofInt (z : Int) : Option PyFloat :=
  if nearestBits z.natAbs < 2047 * 2 ^ 52 then
    some ⟨BitVec.ofNat 64 (nearestBits z.natAbs + if z < 0 then 2 ^ 63 else 0)⟩
  else none

/-- `x < 0` of a finite float. -/
def PyFloat.isNegative (x : PyFloat) : Bool := x.negative && x.scaled ≠ 0

/-! ## Events -/

/-- A `datetime`. -/
inductive Timestamp where
  | naive
  | aware (instant : Instant)
  | beyondUtc
deriving DecidableEq

structure OperationalEvent where
  eventId : String
  runId : String
  correlationId : String
  timestamp : Timestamp
  component : String
  eventType : String
  status : String
  reasonCode : Option String := none
  durationMs : PyValue := .none
  itemCount : PyValue := .none

def schemaVersion : Int := 1

def maxEventBytes : Nat := 4096

def maxCompactEventBytes : Nat := 1024

/-- `_EVENT_FIELDS` -/
def eventFields : List String :=
  ["schema_version", "event_id", "run_id", "correlation_id", "timestamp", "component",
    "event_type", "status", "reason_code", "duration_ms", "item_count"]

/-- `_validate_trace_id` -/
def validateTraceId (value label : String) : Except Exn String :=
  if isLowerHex 32 value then .ok value
  else .error (.valueError (label ++ " must be a lowercase 128-bit hexadecimal identifier"))

def isLowerLetter (c : Char) : Bool := 'a' ≤ c && c ≤ 'z'

/-- `_MACHINE_CODE.fullmatch(value)` -/
def isMachineCode (value : String) : Bool :=
  match value.toList with
  | [] => false
  | c :: rest =>
      isLowerLetter c && rest.length ≤ 95 &&
        rest.all fun d => isLowerLetter d || isDigit d || d = '_'

/-- `_validate_machine_code` -/
def validateMachineCode (value label : String) : Except Exn String :=
  if isMachineCode value then .ok value
  else .error (.valueError (label ++ " must be a short machine-readable identifier"))

/-- `_utc_timestamp` -/
def utcTimestamp : Timestamp → Except Exn String
  | .naive => .error (.valueError "operational event timestamp must be timezone-aware")
  | .aware instant => .ok instant.isoformat
  | .beyondUtc => .error (.overflowError "date value out of range")

/-- The reason code of `as_dict`. -/
def reasonJson : Option String → Except Exn Json
  | none => .ok .null
  | some reason => do return .str (← validateMachineCode reason "reason_code")

/-- The duration of `as_dict`. -/
def durationJson (H : Host) : PyValue → Except Exn Json
  | .none => .ok .null
  | .int z =>
      if (PyFloat.ofInt z).isNone then
        .error (.overflowError "int too large to convert to float")
      else if z < 0 then .error (.valueError "duration_ms must be a finite non-negative number")
      else .ok (.int z)
  | .float x =>
      if x.isFinite && !x.isNegative then .ok (.real (H.floatRepr x))
      else .error (.valueError "duration_ms must be a finite non-negative number")
  | _ => .error (.valueError "duration_ms must be a finite non-negative number")

/-- The count of `as_dict`. -/
def itemCountJson : PyValue → Except Exn Json
  | .none => .ok .null
  | .int z =>
      if 0 ≤ z ∧ z ≤ 2 ^ 63 - 1 then .ok (.int z)
      else .error (.valueError "item_count must be a non-negative 64-bit integer")
  | _ => .error (.valueError "item_count must be a non-negative 64-bit integer")

namespace OperationalEvent

/-- `as_dict` -/
def asDict (H : Host) (event : OperationalEvent) : Except Exn Json := do
  let eventId ← validateTraceId event.eventId "event_id"
  let runId ← validateTraceId event.runId "run_id"
  let correlationId ← validateTraceId event.correlationId "correlation_id"
  let component ← validateMachineCode event.component "component"
  let eventType ← validateMachineCode event.eventType "event_type"
  let status ← validateMachineCode event.status "status"
  let reasonCode ← reasonJson event.reasonCode
  let durationMs ← durationJson H event.durationMs
  let itemCount ← itemCountJson event.itemCount
  let timestamp ← utcTimestamp event.timestamp
  return .obj
    [("schema_version", .int schemaVersion), ("event_id", .str eventId), ("run_id", .str runId),
      ("correlation_id", .str correlationId), ("timestamp", .str timestamp),
      ("component", .str component), ("event_type", .str eventType), ("status", .str status),
      ("reason_code", reasonCode), ("duration_ms", durationMs), ("item_count", itemCount)]

/-! ## Reading -/

/-- `payload.get(name)` of a payload that has every field. -/
def payloadField (name : String) (payload : List (String × Json)) : Json :=
  (dictGet name payload).getD .null

/-- `set(payload) != _EVENT_FIELDS` fails. -/
def hasEventFields (payload : List (String × Json)) : Bool :=
  (payload.map Prod.fst).all (· ∈ eventFields) && eventFields.all (· ∈ payload.map Prod.fst)

/-- The schema version is one, as an integer or as a float. -/
def supportedVersion (H : Host) : Json → Bool
  | .int z => z = schemaVersion
  | .real lexeme => some (H.floatOfStr lexeme) = PyFloat.ofInt schemaVersion
  | _ => false

def readTimestamp (H : Host) : Json → Except Exn Timestamp
  | .str text =>
      if text.length > 64 then
        .error (.integrityError "operational event timestamp is invalid")
      else
        match H.fromisoformat text with
        | none => .error (.integrityError "operational event timestamp is invalid")
        | some .naive => .ok .naive
        | some (.aware instant) => .ok (.aware instant)
  | _ => .error (.integrityError "operational event timestamp is invalid")

def readIdentifier : Json → Except Exn String
  | .str text => .ok text
  | _ => .error (.integrityError "operational event contains a non-string identifier")

def readReason : Json → Except Exn (Option String)
  | .null => .ok none
  | .str text => .ok (some text)
  | _ => .error (.integrityError "operational event reason_code is invalid")

/-- The duration as a number; the numbers that are not finite are refused with the fields. -/
def readDuration (H : Host) : Json → Except Exn (Option (Option PyFloat))
  | .null => .ok none
  | .int z => .ok (some (PyFloat.ofInt z))
  | .real lexeme => .ok (some (some (H.floatOfStr lexeme)))
  | .constant _ => .ok (some none)
  | _ => .error (.integrityError "operational event duration_ms is invalid")

def readItemCount : Json → Except Exn PyValue
  | .null => .ok .none
  | .int z => .ok (.int z)
  | _ => .error (.integrityError "operational event item_count is invalid")

/-- `float(duration_ms)`, where it does not overflow. -/
def floatDuration : Option (Option PyFloat) → Except Exn PyValue
  | none => .ok .none
  | some none => .error (.integrityError "operational event field validation failed")
  | some (some x) => .ok (.float x)

/-- `event.as_dict()` of the event that was read. -/
def revalidated (H : Host) (event : OperationalEvent) : Except Exn OperationalEvent :=
  match event.asDict H with
  | .ok _ => .ok event
  | .error _ => .error (.integrityError "operational event field validation failed")

/-- `from_dict` -/
def fromDict (H : Host) : Json → Except Exn OperationalEvent
  | .obj payload => do
      if !hasEventFields payload then
        throw (.integrityError "operational event has an invalid field set")
      if !supportedVersion H (payloadField "schema_version" payload) then
        throw (.integrityError "operational event schema version is unsupported")
      let timestamp ← readTimestamp H (payloadField "timestamp" payload)
      let eventId ← readIdentifier (payloadField "event_id" payload)
      let runId ← readIdentifier (payloadField "run_id" payload)
      let correlationId ← readIdentifier (payloadField "correlation_id" payload)
      let component ← readIdentifier (payloadField "component" payload)
      let eventType ← readIdentifier (payloadField "event_type" payload)
      let status ← readIdentifier (payloadField "status" payload)
      let reasonCode ← readReason (payloadField "reason_code" payload)
      let duration ← readDuration H (payloadField "duration_ms" payload)
      let itemCount ← readItemCount (payloadField "item_count" payload)
      let durationMs ← floatDuration duration
      revalidated H
        { eventId, runId, correlationId, timestamp, component, eventType, status, reasonCode
          durationMs, itemCount }
  | _ => .error (.integrityError "operational event has an invalid field set")

end OperationalEvent

end Polymorph
