import Polymorph.Connectors.JsonValue
import Polymorph.Inspection.Require

/-!
# The JSON file connector

Reading goes through the inspection of the file, the scan for limits, the parser and the
validator. An append loads the file, joins the new records to the loaded ones, and publishes the
text of all of them in place of the file. The file system is a parameter of each call: which steps
raise, and what `stat` reports of the published file.
-/

set_option autoImplicit false

namespace Polymorph

open JsonText PayloadCodec

/-! ## Values -/

/-- A value that a JSON parser makes: without tuples, and with distinct texts as keys. -/
abbrev LoadedValue := { value : PyValue // jsonShaped value = true }

/-- A record to write. A dictionary has no key twice. -/
abbrev JsonRecord :=
  { members : Members // JsonFileConnector.distinctTexts (.dict members) = true }

/-! ## The connector -/

/-- The options of `JsonFileConnector` that reading and writing records use. -/
structure JsonFileConnector where
  maxFileBytes : Nat := 64 * 1024 * 1024
  maxJson5ParseBytes : Nat := 64 * 1024
  maxStructuredTextDepth : Nat := 128
  maxJsonItems : Nat := 100000
  expectedSourceIdentity : Option FileIdentity := none
  /-- `__init__` -/
  positive : 0 < maxFileBytes ∧ 0 < maxJson5ParseBytes ∧ 0 < maxStructuredTextDepth ∧
    0 < maxJsonItems := by decide

/-- What the connector runs on. -/
structure JsonEnvironment extends InspectionEnvironment where
  host : Host
  /-- `repr(text)` -/
  reprText : String → String
  /-- `json5.loads(text, object_pairs_hook=_object_without_duplicate_keys)` -/
  json5Loads : String → Except Exn LoadedValue

namespace JsonFileConnector

variable (env : JsonEnvironment) (c : JsonFileConnector)

/-! ## Inspection -/

/-- `FileTrustPolicy(...)` -/
def policy : FileTrustPolicy Unit where
  maxCompressionRatio := ()
  maxFileBytes := c.maxFileBytes
  maxJson5ParseBytes := c.maxJson5ParseBytes
  maxStructuredTextDepth := c.maxStructuredTextDepth
  maxJsonItems := c.maxJsonItems
  positive := by
    obtain ⟨hfile, hjson5, hdepth, hitems⟩ := c.positive
    simp [hfile, hjson5, hdepth, hitems]

/-- The kinds that the connector reads, in the order of their names. -/
def allowedKinds : List ContentKind := [.delimitedText, .json, .json5, .text]

/-- `_ensure_source_safe` -/
def ensureSourceSafe (file : StoredFile) : Except Exn Unit :=
  ContentInspector.ensureSourceSafe env.toInspectionEnvironment c.policy "JSON connector"
    allowedKinds c.expectedSourceIdentity file

/-! ## Loading -/

/-- `_object_without_duplicate_keys`; `output` holds the members kept so far. -/
def objectWithoutDuplicateKeys (output : List (String × PyValue)) :
    List (String × PyValue) → Except Exn (List (String × PyValue))
  | [] => .ok output
  | (key, value) :: pairs =>
      if key ∈ output.map Prod.fst then
        .error (.valueError ("JSON object contains duplicate key " ++ env.reprText key))
      else objectWithoutDuplicateKeys (output ++ [(key, value)]) pairs

/-- The float of a constant: a quiet NaN or an infinity. -/
def constantFloat (name : List Char) : PyFloat :=
  if name = "NaN".toList then ⟨0x7ff8000000000000⟩
  else if name = "Infinity".toList then ⟨0x7ff0000000000000⟩
  else ⟨0xfff0000000000000⟩

mutual

/-- The Python value that `json.loads` makes of a JSON value with the hook of the connector. -/
def loadedValue : Json → Except Exn PyValue
  | .null => .ok .none
  | .bool b => .ok (.bool b)
  | .int z => do return .int (← intJson z)
  | .real lexeme => .ok (.float (env.host.floatOfStr lexeme))
  | .constant name => .ok (.float (constantFloat name))
  | .str s => .ok (.str (PyText.ofString s))
  | .arr items => do return .list (← loadedItems items)
  | .obj members => do
      let pairs ← loadedPairs members
      let output ← objectWithoutDuplicateKeys env [] pairs
      return .dict (dictMembers output)

def loadedItems : List Json → Except Exn (List PyValue)
  | [] => .ok []
  | j :: js => do
      let x ← loadedValue j
      let xs ← loadedItems js
      return x :: xs

def loadedPairs : List (String × Json) → Except Exn (List (String × PyValue))
  | [] => .ok []
  | (k, j) :: rest => do
      let v ← loadedValue j
      let pairs ← loadedPairs rest
      return (k, v) :: pairs

end

/-- The text of a file. -/
def sourceText (file : StoredFile) : Except Exn String :=
  if c.maxFileBytes < file.identity.sizeBytes then
    .error (.valueError "JSON source exceeds configured file size limit")
  else
    let raw := file.bytes.take (c.maxFileBytes + 1)
    if c.maxFileBytes < raw.length then
      .error (.valueError "JSON source exceeds configured file size limit")
    else
      match ContentInspector.decodeUtf8Sig raw with
      | none => .error (.valueError "JSON source must be UTF-8 text")
      | some text => .ok text

/-- The scan for limits. -/
def checkLimits (text : String) : Except Exn Unit :=
  let (depthExceeded, itemsExceeded) := ContentInspector.jsonLikeLimitsExceeded text
    c.maxStructuredTextDepth c.maxJsonItems
  if depthExceeded then .error (tooDeep c.maxStructuredTextDepth)
  else if itemsExceeded then .error (tooManyItems c.maxJsonItems)
  else .ok ()

/-- What `_load` makes of an exception of `json5.loads`. -/
def json5Failure : Exn → Exn
  | .recursionError => .valueError "JSON5 source exceeds the configured nesting depth"
  | .valueError _ => .valueError "input is neither valid JSON nor accepted JSON5"
  | .typeError _ => .valueError "input is neither valid JSON nor accepted JSON5"
  | e => e

/-- `json.loads`, or `json5.loads` of a small text that is no JSON. -/
def parseText (size : Nat) (text : String) : Except Exn PyValue :=
  match loads text with
  | some j => loadedValue env j
  | none =>
      if c.maxJson5ParseBytes < size then
        .error (.valueError ("JSON5 source exceeds the configured parse size limit of " ++
          toString c.maxJson5ParseBytes ++ " bytes"))
      else
        match env.json5Loads text with
        | .ok data => .ok data.val
        | .error e => .error (json5Failure e)

/-- A dictionary, as one of the items of the root. -/
def dictMembers? : PyValue → Option Members
  | .dict members => some members
  | _ => none

/-- The records of a root. -/
def recordsOf (data : PyValue) : Except Exn (List Members) :=
  let refused := .error (.valueError "JSON root must be an object or an array of objects")
  match data with
  | .dict members => .ok [members]
  | .list items =>
      match items.mapM dictMembers? with
      | some records => .ok records
      | none => refused
  | _ => refused

/-- `_load` of a fresh connector, and what `iter_records` yields. -/
def load (file : StoredFile) : Except Exn (List Members) := do
  ensureSourceSafe env c file
  let text ← sourceText c file
  checkLimits c text
  let data ← parseText env c file.bytes.length text
  validateValue c.maxStructuredTextDepth c.maxJsonItems data
  recordsOf data

/-! ## Writing -/

/-- A call of `write_records`: the records that its argument yields, and the environment of the
call. An exception is what a step raises: the argument after its last record, the lock, reading
the destination, checking it again, and publishing. -/
structure WriteCall where
  records : List JsonRecord
  iteration : Option Exn := none
  lock : Option Exn := none
  opened : Option Exn := none
  verified : Option Exn := none
  published : Option Exn := none
  /-- What `stat` reports of the published file besides its size. -/
  device : Nat
  inode : Nat
  mtimeNs : Nat

/-- The members of the records of a call. -/
def WriteCall.members (call : WriteCall) : List Members := call.records.map Subtype.val

/-- A step that may raise. -/
def step : Option Exn → Except Exn Unit
  | none => .ok ()
  | some e => .error e

/-- The items of the records, counted while they are taken. -/
def countTopLevel (maxItems : Nat) : Nat → List Members → Except Exn Unit
  | _, [] => .ok ()
  | topLevelItems, record :: records =>
      if maxItems < topLevelItems + (1 + record.length) then
        .error (.valueError ("JSON destination exceeds the configured item limit of " ++
          toString maxItems ++ " members and array items"))
      else countTopLevel maxItems (topLevelItems + (1 + record.length)) records

/-- A list of dictionaries. -/
def listOf (records : List Members) : PyValue := .list (records.map .dict)

/-- The first part of `write_records`. -/
def materialize (call : WriteCall) : Except Exn (List Members) := do
  countTopLevel c.maxJsonItems 0 call.members
  step call.iteration
  validateValue c.maxStructuredTextDepth c.maxJsonItems (listOf call.members)
  return call.members

/-- The keys of a record. -/
def fieldsOf (record : Members) : List PyText := record.filterMap fun m => textKey? m.1

/-- `set(record) == expected_fields` -/
def sameFields (expected record : List PyText) : Bool :=
  expected.all (· ∈ record) && record.all (· ∈ expected)

/-- All records have the fields of the first one. -/
def checkFields (combined : List Members) : Except Exn Unit :=
  match combined with
  | [] => .ok ()
  | first :: _ =>
      match combined.findIdx? fun record => !sameFields (fieldsOf first) (fieldsOf record) with
      | none => .ok ()
      | some index => .error (.valueError
          ("JSON destination records must have identical fields; mismatch at record " ++
            toString index))

/-- The bytes of `json.dumps(combined, indent=2, ensure_ascii=False, allow_nan=False) + "\n"`. -/
def encodeRecords (H : Host) (combined : List Members) : Except Exn (List UInt8) := do
  let j ← jsonOf H (listOf combined)
  if encodable (listOf combined) = true then
    .ok (utf8Bytes (indented.text j ++ String.ofList ['\n']).toList)
  else .error (.unicodeError "surrogates not allowed")

/-- The records that the destination has. -/
def existingRecords (call : WriteCall) (path : Option StoredFile) : Except Exn (List Members) :=
  match path with
  | none => .ok []
  | some file => do
      step call.opened
      ensureSourceSafe env c file
      if file.identity.sizeBytes = 0 then return [] else load env c file

/-- The size of what is published. -/
def checkSize (bytes : List UInt8) : Except Exn Unit :=
  if c.maxFileBytes < bytes.length then
    .error (.valueError "JSON destination exceeds configured file size limit")
  else .ok ()

/-- `_verify_cached_source`, if the target existed. -/
def verifyTarget (call : WriteCall) (path : Option StoredFile) : Except Exn Unit :=
  match path with
  | none => .ok ()
  | some _ => step call.verified

/-- The file that a call publishes. -/
def WriteCall.file (call : WriteCall) (bytes : List UInt8) : StoredFile where
  bytes := bytes
  device := call.device
  inode := call.inode
  mtimeNs := call.mtimeNs

/-- The part of `write_records` under the lock. -/
def publish (call : WriteCall) (materialized : List Members) (path : Option StoredFile) :
    Except Exn StoredFile := do
  step call.lock
  let existing ← existingRecords env c call path
  let combined := existing ++ materialized
  checkFields combined
  validateValue c.maxStructuredTextDepth c.maxJsonItems (listOf combined)
  let bytes ← encodeRecords env.host combined
  checkSize c bytes
  verifyTarget call path
  step call.published
  return call.file bytes

/-- `except (OSError, ConnectorError, RecursionError, TypeError, ValueError)`, behind
`except ConnectorWriteError: raise`. -/
def writeFailure : Exn → Exn
  | .connectorError _ => .connectorWriteError "JSON destination write did not commit" .notCommitted
  | .recursionError => .connectorWriteError "JSON destination write did not commit" .notCommitted
  | .typeError _ => .connectorWriteError "JSON destination write did not commit" .notCommitted
  | .valueError _ => .connectorWriteError "JSON destination write did not commit" .notCommitted
  | .unicodeError _ => .connectorWriteError "JSON destination write did not commit" .notCommitted
  | .other description =>
      if description = "OSError" then
        .connectorWriteError "JSON destination write did not commit" .notCommitted
      else .other description
  | e => e

/-- `write_records`, with the file at the path before and after it. -/
def writeRecords (call : WriteCall) (path : Option StoredFile) :
    Except Exn Nat × Option StoredFile :=
  match materialize c call with
  | .error _ => (.error (.connectorWriteError "JSON destination input could not be materialized"
      .notCommitted), path)
  | .ok [] => (.ok 0, path)
  | .ok (record :: records) =>
      match publish env c call (record :: records) path with
      | .error e => (.error (writeFailure e), path)
      | .ok file => (.ok (record :: records).length, some file)

end JsonFileConnector

end Polymorph
