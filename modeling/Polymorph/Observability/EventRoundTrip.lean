import Polymorph.Observability.EventStream
import Polymorph.Transport.PayloadRoundTrip

/-!
# Events are read back

An event that `encodeEvent` writes is one line, and reading the line gives an event with the same
texts, the same instant and count, and the duration as a float.
-/

set_option autoImplicit false

namespace Polymorph

open JsonText Utc

/-! ## Numbers -/

/-- A finite duration that is not negative is accepted as one when it is read back. -/
theorem PyFloat.ofInt_finite {z : Int} {x : PyFloat} (h : PyFloat.ofInt z = some x)
    (hz : 0 ≤ z) : x.isFinite = true ∧ x.isNegative = false := by
  unfold PyFloat.ofInt at h
  split at h
  case isTrue hbits =>
    cases h
    rw [if_neg (Int.not_lt.mpr hz), Nat.add_zero]
    have htoNat : (BitVec.ofNat 64 (nearestBits z.natAbs)).toNat = nearestBits z.natAbs := by
      rw [BitVec.toNat_ofNat, Nat.mod_eq_of_lt (by omega)]
    refine ⟨?_, ?_⟩
    · rw [PyFloat.isFinite, PyFloat.biasedExponent, htoNat]
      exact decide_eq_true (by omega)
    · rw [PyFloat.isNegative, PyFloat.negative, htoNat]
      have hsmall : ¬nearestBits z.natAbs ≥ 2 ^ 63 := by omega
      rw [decide_eq_false hsmall]
      rfl
  case isFalse => cases h

/-- A duration as the float that is read back. -/
def asFloat : PyValue → Option PyValue
  | .none => some .none
  | .int z => (PyFloat.ofInt z).map .float
  | .float x => some (.float x)
  | _ => none

/-- The event that was read is the one that was written: equal instants, durations equal as
floats. -/
structure SameEvent (event found : OperationalEvent) : Prop where
  eventId : found.eventId = event.eventId
  runId : found.runId = event.runId
  correlationId : found.correlationId = event.correlationId
  timestamp : found.timestamp = event.timestamp
  component : found.component = event.component
  eventType : found.eventType = event.eventType
  status : found.status = event.status
  reasonCode : found.reasonCode = event.reasonCode
  durationMs : asFloat event.durationMs = some found.durationMs
  itemCount : found.itemCount = event.itemCount

variable {H : Host}

/-! ## What was written -/

theorem validateTraceId_ok {value label text : String} (h : validateTraceId value label = .ok text) :
    text = value ∧ isLowerHex 32 value = true := by
  unfold validateTraceId at h
  split at h
  case isTrue hvalid =>
    cases h
    exact ⟨rfl, hvalid⟩
  case isFalse => cases h

theorem validateMachineCode_ok {value label text : String}
    (h : validateMachineCode value label = .ok text) : text = value ∧ isMachineCode value = true := by
  unfold validateMachineCode at h
  split at h
  case isTrue hvalid =>
    cases h
    exact ⟨rfl, hvalid⟩
  case isFalse => cases h

/-- A field of the payload that is written and read as itself. -/
structure Leaf (j : Json) : Prop where
  sorted : sortKeys j = j
  readable : readable j = true
  unique : uniqueKeys j = true

theorem leaf_str (s : String) : Leaf (.str s) := ⟨rfl, rfl, rfl⟩

theorem leaf_int (z : Int) : Leaf (.int z) := ⟨rfl, rfl, rfl⟩

/-- A reason code is read back. -/
theorem reasonJson_ok {reason : Option String} {j : Json} (h : reasonJson reason = .ok j) :
    Leaf j ∧ OperationalEvent.readReason j = .ok reason := by
  cases reason with
  | none =>
      cases h
      exact ⟨⟨rfl, rfl, rfl⟩, rfl⟩
  | some code =>
      unfold reasonJson at h
      obtain ⟨text, htext, h⟩ := bind_eq_ok h
      obtain ⟨hsame, -⟩ := validateMachineCode_ok htext
      cases h
      exact ⟨leaf_str _, by rw [OperationalEvent.readReason, hsame]⟩

/-- A duration is read back as a float, which is written again. -/
theorem durationJson_ok (hfloats : H.WritesFloats) {duration : PyValue} {j : Json}
    (h : durationJson H duration = .ok j) :
    Leaf j ∧ ∃ read found, OperationalEvent.readDuration H j = .ok read ∧
      OperationalEvent.floatDuration read = .ok found ∧ asFloat duration = some found ∧
      ∃ again, durationJson H found = .ok again := by
  unfold durationJson at h
  split at h
  case h_1 =>
    cases h
    exact ⟨⟨rfl, rfl, rfl⟩, _, _, rfl, rfl, rfl, _, rfl⟩
  case h_2 z =>
    split at h
    · cases h
    case isFalse hsome =>
      split at h
      · cases h
      case isFalse hz =>
        cases h
        cases hx : PyFloat.ofInt z with
        | none => exact absurd (by rw [hx]; rfl) hsome
        | some x =>
            obtain ⟨hfinite, hpositive⟩ := PyFloat.ofInt_finite hx (Int.not_lt.mp hz)
            refine ⟨leaf_int z, some (some x), .float x, ?_, rfl, ?_, .real (H.floatRepr x), ?_⟩
            · rw [OperationalEvent.readDuration, hx]
            · rw [asFloat, hx, Option.map_some]
            · rw [durationJson, hfinite, hpositive]
              rfl
  case h_3 x =>
    split at h
    case isTrue hx =>
      cases h
      have hfinite : x.isFinite = true := (Bool.and_eq_true _ _ ▸ hx).1
      refine ⟨⟨rfl, hfloats x hfinite, rfl⟩, some (some x), .float x, ?_, rfl, rfl,
        .real (H.floatRepr x), ?_⟩
      · rw [OperationalEvent.readDuration, H.floatOfStr_floatRepr x hfinite]
      · rw [durationJson, if_pos hx]
    case isFalse => cases h
  case h_4 => cases h

/-- A count is read back. -/
theorem itemCountJson_ok {count : PyValue} {j : Json} (h : itemCountJson count = .ok j) :
    Leaf j ∧ OperationalEvent.readItemCount j = .ok count := by
  unfold itemCountJson at h
  split at h
  case h_1 =>
    cases h
    exact ⟨⟨rfl, rfl, rfl⟩, rfl⟩
  case h_2 z =>
    split at h
    · cases h
      exact ⟨leaf_int z, rfl⟩
    · cases h
  case h_3 => cases h

theorem utcTimestamp_ok {timestamp : Timestamp} {text : String}
    (h : utcTimestamp timestamp = .ok text) :
    ∃ instant : Instant, timestamp = .aware instant ∧ text = instant.isoformat := by
  cases timestamp with
  | naive => cases h
  | beyondUtc => cases h
  | aware instant =>
      cases h
      exact ⟨instant, rfl, rfl⟩

/-- The text of an instant is short enough to be read. -/
theorem length_isoformat (instant : Instant) : instant.isoformat.length ≤ 64 := by
  rw [Instant.isoformat, String.length_ofList]
  by_cases hmicro : instant.microsecond = 0
  · simp [hmicro, length_digits]
  · simp [hmicro, length_digits]

theorem readTimestamp_isoformat (instant : Instant) :
    OperationalEvent.readTimestamp H (.str instant.isoformat) = .ok (.aware instant) := by
  rw [OperationalEvent.readTimestamp, if_neg (Nat.not_lt.mpr (length_isoformat instant)),
    H.fromisoformat_isoformat]

/-- The members of the payload of an event. -/
def eventMembers (event : OperationalEvent) (timestamp : String) (reason duration count : Json) :
    List (String × Json) :=
  [("schema_version", .int schemaVersion), ("event_id", .str event.eventId),
    ("run_id", .str event.runId), ("correlation_id", .str event.correlationId),
    ("timestamp", .str timestamp), ("component", .str event.component),
    ("event_type", .str event.eventType), ("status", .str event.status),
    ("reason_code", reason), ("duration_ms", duration), ("item_count", count)]

namespace OperationalEvent

/-- What `as_dict` has checked. -/
structure Checked (H : Host) (event : OperationalEvent) (instant : Instant)
    (reason duration count : Json) : Prop where
  eventId : isLowerHex 32 event.eventId = true
  runId : isLowerHex 32 event.runId = true
  correlationId : isLowerHex 32 event.correlationId = true
  component : isMachineCode event.component = true
  eventType : isMachineCode event.eventType = true
  status : isMachineCode event.status = true
  reasonCode : reasonJson event.reasonCode = .ok reason
  durationMs : durationJson H event.durationMs = .ok duration
  itemCount : itemCountJson event.itemCount = .ok count
  timestamp : event.timestamp = .aware instant

theorem asDict_eq_ok {event : OperationalEvent} {payload : Json}
    (h : event.asDict H = .ok payload) : ∃ instant reason duration count,
      Checked H event instant reason duration count ∧
      payload = .obj (eventMembers event instant.isoformat reason duration count) := by
  obtain ⟨_, hcheck, h⟩ := bind_eq_ok h
  obtain ⟨rfl, heventId⟩ := validateTraceId_ok hcheck
  clear hcheck
  obtain ⟨_, hcheck, h⟩ := bind_eq_ok h
  obtain ⟨rfl, hrunId⟩ := validateTraceId_ok hcheck
  clear hcheck
  obtain ⟨_, hcheck, h⟩ := bind_eq_ok h
  obtain ⟨rfl, hcorrelationId⟩ := validateTraceId_ok hcheck
  clear hcheck
  obtain ⟨_, hcheck, h⟩ := bind_eq_ok h
  obtain ⟨rfl, hcomponent⟩ := validateMachineCode_ok hcheck
  clear hcheck
  obtain ⟨_, hcheck, h⟩ := bind_eq_ok h
  obtain ⟨rfl, heventType⟩ := validateMachineCode_ok hcheck
  clear hcheck
  obtain ⟨_, hcheck, h⟩ := bind_eq_ok h
  obtain ⟨rfl, hstatus⟩ := validateMachineCode_ok hcheck
  clear hcheck
  obtain ⟨reason, hreason, h⟩ := bind_eq_ok h
  obtain ⟨duration, hduration, h⟩ := bind_eq_ok h
  obtain ⟨count, hcount, h⟩ := bind_eq_ok h
  obtain ⟨text, htext, h⟩ := bind_eq_ok h
  obtain ⟨instant, htimestamp, rfl⟩ := utcTimestamp_ok htext
  cases h
  exact ⟨instant, reason, duration, count, ⟨heventId, hrunId, hcorrelationId, hcomponent,
    heventType, hstatus, hreason, hduration, hcount, htimestamp⟩, rfl⟩

/-- What was checked is written. -/
theorem Checked.asDict {event : OperationalEvent} {instant : Instant}
    {reason duration count : Json} (h : Checked H event instant reason duration count) :
    event.asDict H =
      .ok (.obj (eventMembers event instant.isoformat reason duration count)) := by
  unfold OperationalEvent.asDict
  simp only [validateTraceId, validateMachineCode, h.eventId, h.runId, h.correlationId,
    h.component, h.eventType, h.status, h.reasonCode, h.durationMs, h.itemCount, h.timestamp,
    utcTimestamp, if_true]
  rfl

/-! ## What is read -/

section Sorted

variable (event : OperationalEvent) (timestamp : String) {reason duration count : Json}

theorem eventMembers_keys :
    (eventMembers event timestamp reason duration count).map Prod.fst = eventFields := rfl

theorem distinctKeys_eventMembers :
    distinctKeys (eventMembers event timestamp reason duration count) = true := by
  rw [distinctKeys, eventMembers_keys]
  decide

/-- The payload that is read has the fields in another order. -/
theorem payloadField_sorted {members : List (String × Json)} (hkeys : distinctKeys members = true)
    {name : String} {j : Json} (hget : dictGet name members = some j) (hsorted : sortKeys j = j) :
    payloadField name (sortMembers (sortValues members)) = j := by
  rw [payloadField, dictGet_sortMembers hkeys, hget, Option.map_some, hsorted, Option.getD_some]

theorem hasEventFields_sorted :
    hasEventFields (sortMembers (sortValues (eventMembers event timestamp reason duration count))) =
      true := by
  have hperm := (sortMembers_perm
    (sortValues (eventMembers event timestamp reason duration count))).map Prod.fst
  rw [sortValues_keys, eventMembers_keys] at hperm
  rw [hasEventFields, Bool.and_eq_true, List.all_eq_true, List.all_eq_true]
  refine ⟨fun key hkey => decide_eq_true (hperm.mem_iff.mp hkey), fun field hfield => ?_⟩
  exact decide_eq_true (hperm.mem_iff.mpr hfield)

end Sorted

/-- The payload of an event is read as the same event. -/
theorem fromDict_eventMembers (hfloats : H.WritesFloats) {event : OperationalEvent}
    {instant : Instant} {reason duration count : Json}
    (h : Checked H event instant reason duration count) :
    ∃ found, fromDict H (sortKeys
      (.obj (eventMembers event instant.isoformat reason duration count))) = .ok found ∧
      SameEvent event found := by
  have hkeys := @distinctKeys_eventMembers event instant.isoformat reason duration count
  have hfields := @hasEventFields_sorted event instant.isoformat reason duration count
  obtain ⟨hreason, hreadReason⟩ := reasonJson_ok h.reasonCode
  obtain ⟨hduration, read, foundDuration, hreadDuration, hfloat, hsame, again, hagain⟩ :=
    durationJson_ok hfloats h.durationMs
  obtain ⟨hcount, hreadCount⟩ := itemCountJson_ok h.itemCount
  let found : OperationalEvent :=
    { event with timestamp := .aware instant, durationMs := foundDuration }
  have hchecked : Checked H found instant reason again count :=
    { h with durationMs := hagain, timestamp := rfl }
  refine ⟨found, ?_, ?_⟩
  · rw [sortKeys]
    generalize hpayload : sortMembers (sortValues
      (eventMembers event instant.isoformat reason duration count)) = payload at hfields ⊢
    have hschemaVersionField : payloadField "schema_version" payload = .int schemaVersion :=
      hpayload ▸ payloadField_sorted hkeys rfl rfl
    have htimestampField : payloadField "timestamp" payload = .str instant.isoformat :=
      hpayload ▸ payloadField_sorted hkeys rfl rfl
    have heventIdField : payloadField "event_id" payload = .str event.eventId :=
      hpayload ▸ payloadField_sorted hkeys rfl rfl
    have hrunIdField : payloadField "run_id" payload = .str event.runId :=
      hpayload ▸ payloadField_sorted hkeys rfl rfl
    have hcorrelationIdField : payloadField "correlation_id" payload = .str event.correlationId :=
      hpayload ▸ payloadField_sorted hkeys rfl rfl
    have hcomponentField : payloadField "component" payload = .str event.component :=
      hpayload ▸ payloadField_sorted hkeys rfl rfl
    have heventTypeField : payloadField "event_type" payload = .str event.eventType :=
      hpayload ▸ payloadField_sorted hkeys rfl rfl
    have hstatusField : payloadField "status" payload = .str event.status :=
      hpayload ▸ payloadField_sorted hkeys rfl rfl
    have hreasonCodeField : payloadField "reason_code" payload = reason :=
      hpayload ▸ payloadField_sorted hkeys rfl hreason.sorted
    have hdurationMsField : payloadField "duration_ms" payload = duration :=
      hpayload ▸ payloadField_sorted hkeys rfl hduration.sorted
    have hitemCountField : payloadField "item_count" payload = count :=
      hpayload ▸ payloadField_sorted hkeys rfl hcount.sorted
    have hversion : supportedVersion H (.int schemaVersion) = true := rfl
    rw [fromDict]
    simp only [hfields, hschemaVersionField, htimestampField, heventIdField, hrunIdField,
      hcorrelationIdField, hcomponentField, heventTypeField, hstatusField, hreasonCodeField,
      hdurationMsField, hitemCountField, hversion, readTimestamp_isoformat, hreadReason,
      hreadDuration, hreadCount, readIdentifier, ok_bind]
    rw [hfloat]
    change revalidated H found = .ok found
    rw [revalidated, hchecked.asDict]
  · exact ⟨rfl, rfl, rfl, h.timestamp.symm, rfl, rfl, rfl, rfl, hsame, rfl⟩

end OperationalEvent

/-! ## Lines -/

theorem uniqueMembers_eq_all (members : List (String × Json)) :
    uniqueMembers members = members.all fun m => uniqueKeys m.2 := by
  induction members with
  | nil => rfl
  | cons m members ih => rw [uniqueMembers, ih, List.all_cons]

/-- The payload of an event can be written and read. -/
theorem readable_eventMembers {event : OperationalEvent} {timestamp : String}
    {reason duration count : Json} (hreason : Leaf reason) (hduration : Leaf duration)
    (hcount : Leaf count) :
    readable (sortKeys (.obj (eventMembers event timestamp reason duration count))) = true ∧
      uniqueKeys (sortKeys (.obj (eventMembers event timestamp reason duration count))) = true := by
  refine ⟨?_, ?_⟩
  · rw [leafwise_readable.sortKeys]
    simp [readable, readableMembers, eventMembers, hreason.readable, hduration.readable,
      hcount.readable]
  · have hkeys := @OperationalEvent.distinctKeys_eventMembers event timestamp reason duration count
    rw [sortKeys, uniqueKeys, uniqueMembers_eq_all, all_perm (sortMembers_perm _),
      distinctKeys_sortMembers, distinctKeys, sortValues_keys, ← distinctKeys, hkeys]
    simp [eventMembers, sortValues, sortKeys, uniqueKeys, hreason.sorted, hduration.sorted,
      hcount.sorted, hreason.unique, hduration.unique, hcount.unique]

/-- The loader reads the line of a value. -/
theorem loadLine_written (loadsOther : List UInt8 → Option Json) (number : Nat)
    {members : List (String × Json)} (hne : members ≠ []) (hreadable : readable (.obj members) = true)
    (hunique : uniqueKeys (.obj members) = true) :
    loadLine loadsOther number (utf8Bytes (write (.obj members)) ++ [10]) = .ok (.obj members) := by
  obtain ⟨⟨key, value⟩, rest, rfl⟩ := List.exists_cons_of_ne_nil hne
  have hstart : startsAsUtf8 (utf8Bytes (write (.obj ((key, value) :: rest))) ++ [10]) = true := by
    rw [write, writeString, List.cons_append, utf8Bytes_cons, utf8Bytes_cons]
    rfl
  have hfeed : utf8Bytes (write (.obj ((key, value) :: rest))) ++ [10] =
      utf8Bytes (write (.obj ((key, value) :: rest)) ++ ['\n']) := by
    rw [utf8Bytes_append]
    rfl
  have hloads : loads (String.ofList (write (.obj ((key, value) :: rest)) ++ ['\n'])) =
      some (.obj ((key, value) :: rest)) := by
    have hblanks : ['\n'] = [] ∨ ∃ t, ['\n'] = '\n' :: t ∧ t.all isWs = true :=
      .inr ⟨[], rfl, rfl⟩
    have htext := compact.loads_text hreadable hblanks
    rwa [Layout.text, value_compact, ← String.ofList_append] at htext
  rw [loadLine, if_pos hstart, hfeed, decodeUtf8_utf8Bytes, Option.bind_some, hloads]
  simp only [hunique, if_true]

/-- An event is written as a line, and the line is read as the event. -/
theorem encodeEvent_ok (hfloats : H.WritesFloats) {event : OperationalEvent} {line : List UInt8}
    (h : encodeEvent H event = .ok line) (loadsOther : List UInt8 → Option Json) :
    ∃ found, SameEvent event found ∧ Bytes.IsLine maxEventBytes line ∧
      ∀ number, readLine H loadsOther number line = .ok found := by
  obtain ⟨payload, hpayload, h⟩ := bind_eq_ok h
  obtain ⟨_, h⟩ := guard_eq_ok h
  obtain ⟨hlength, h⟩ := guard_eq_ok h
  cases h
  obtain ⟨instant, reason, duration, count, hchecked, rfl⟩ :=
    OperationalEvent.asDict_eq_ok hpayload
  obtain ⟨found, hfound, hsame⟩ := OperationalEvent.fromDict_eventMembers hfloats hchecked
  obtain ⟨hreadable, hunique⟩ := @readable_eventMembers event instant.isoformat _ _ _
    (reasonJson_ok hchecked.reasonCode).1 (durationJson_ok hfloats hchecked.durationMs).1
    (itemCountJson_ok hchecked.itemCount).1
  rw [canonical, dumps, String.toList_ofList] at hlength ⊢
  rw [sortKeys] at hlength hreadable hunique hfound ⊢
  generalize hmembers : sortMembers (sortValues
    (eventMembers event instant.isoformat reason duration count)) = members at *
  have hne : members ≠ [] := by
    rintro rfl
    have hcount := (sortMembers_perm (sortValues
      (eventMembers event instant.isoformat reason duration count))).length_eq
    rw [hmembers] at hcount
    cases hcount
  refine ⟨found, hsame, ⟨_, rfl, notMem_newline_utf8Bytes (visible_write _ hreadable),
    Nat.not_lt.mp hlength⟩, fun number => ?_⟩
  rw [readLine, if_neg hlength, if_neg (by simp),
    loadLine_written loadsOther (number + 1) hne hreadable hunique]
  exact hfound

end Polymorph
