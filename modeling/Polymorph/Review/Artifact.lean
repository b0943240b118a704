import Polymorph.Errors
import Polymorph.Model.CheckedText
import Polymorph.Text.JsonLayout
import Polymorph.Text.Loading

/-!
# Portable review artifacts

A review artifact holds the decisions of one reviewer for one pair of schemas. Its constructor and
its loader check it, and its digest is the digest of its canonical JSON. A file is what its path
shows: its bytes, a link, or something else.
-/

set_option autoImplicit false

namespace Polymorph

open JsonText Utc

/-! ## Checked texts -/

/-- The exception of `_bounded_text` for a text it refuses. -/
def textError (name : String) (maximum : Nat) (text : String) : Exn :=
  if text.isEmpty || maximum < text.length then
    .polymorphError (name ++ " must be a non-empty string of at most " ++ toString maximum ++
      " chars")
  else .polymorphError (name ++ " contains control characters")

/-- A value that has to be a text with a property; a value of another type is refused as an empty
text is. -/
def checkedText (check : String → Bool) (refusal : String → Exn) : Json → Except Exn String
  | .str text => if check text then .ok text else .error (refusal text)
  | _ => .error (refusal "")

/-- `_bounded_text` -/
def boundedText (name : String) (value : Json) (maximum : Nat) : Except Exn String :=
  checkedText (isBoundedText maximum) (textError name maximum) value

/-- `None`, or the text that `_bounded_text` accepts. -/
def optionalBoundedText (name : String) (value : Json) (maximum : Nat) :
    Except Exn (Option String) :=
  match value with
  | .null => .ok none
  | value => (boundedText name value maximum).map some

/-- The exception of `_fingerprint` for a text it refuses. -/
def fingerprintError (name text : String) : Exn :=
  if isBoundedText 64 text then
    .polymorphError (name ++ " must be a lowercase SHA-256 fingerprint")
  else textError name 64 text

/-- `_fingerprint` -/
def fingerprintText (name : String) (value : Json) : Except Exn String :=
  checkedText (isLowerHex 64) (fingerprintError name) value

/-- The text is an ISO-8601 timestamp with a timezone. -/
def isTimestamp (H : Host) (text : String) : Bool :=
  isBoundedText 64 text &&
    match readTimestamp H text with
    | some (.aware _) => true
    | _ => false

/-- The exception of `_timestamp` for a text it refuses. -/
def timestampError (H : Host) (name text : String) : Exn :=
  if !isBoundedText 64 text then textError name 64 text
  else
    match readTimestamp H text with
    | none => .polymorphError (name ++ " must be an ISO-8601 timestamp")
    | some _ => .polymorphError (name ++ " must include a timezone")

/-- `_timestamp` -/
def timestampText (H : Host) (name : String) (value : Json) : Except Exn String :=
  checkedText (isTimestamp H) (timestampError H name) value

/-- `_now() if value is None else _timestamp("reviewed_at", value)` -/
def reviewedAtText (H : Host) (now : Instant) (value : Json) : Except Exn String :=
  match value with
  | .null => .ok (nowText now)
  | value => timestampText H "reviewed_at" value

/-- `payload.get(key)` -/
def payloadGet (key : String) (payload : List (String × Json)) : Json :=
  (dictGet key payload).getD .null

/-- `value == text` -/
def isText (text : String) : Json → Bool
  | .str s => s = text
  | _ => false

/-- `value == 1` -/
def isOne (H : Host) : Json → Bool
  | .int z => z = 1
  | .bool b => b
  | .real lexeme => H.floatOfStr lexeme = ⟨0x3ff0000000000000⟩
  | _ => false

/-! ## Decisions -/

/-- What a reviewer did with a suggestion. -/
inductive Disposition where
  | accepted
  | corrected
  | abstained
deriving DecidableEq, Repr

namespace Disposition

/-- The text of a disposition. -/
def value : Disposition → String
  | accepted => "accepted"
  | corrected => "corrected"
  | abstained => "abstained"

/-- The disposition of a text. -/
def ofValue? (text : String) : Option Disposition :=
  if text = "accepted" then some accepted
  else if text = "corrected" then some corrected
  else if text = "abstained" then some abstained
  else none

end Disposition

/-- The decision for one source field: a target exactly when the reviewer did not abstain. -/
structure ReviewDecision where
  sourceField : String
  targetField : Option String
  disposition : Disposition
  sourceField_bounded : isBoundedText 256 sourceField = true
  targetField_bounded : targetField.all (isBoundedText 256) = true
  targetField_isSome : targetField.isSome = true ↔ disposition ≠ .abstained
deriving DecidableEq

namespace ReviewDecision

/-- `ReviewDecision(...)` -/
def make (sourceField : String) (targetField : Option String) (disposition : String) :
    Except Exn ReviewDecision :=
  if hsource : isBoundedText 256 sourceField = true then
    if htarget : targetField.all (isBoundedText 256) = true then
      match Disposition.ofValue? disposition with
      | none => .error (.polymorphError "unsupported review disposition")
      | some d =>
          if hsome : targetField.isSome = true ↔ d ≠ .abstained then
            .ok ⟨sourceField, targetField, d, hsource, htarget, hsome⟩
          else if d = .abstained then
            .error (.polymorphError "an abstained decision cannot select a target field")
          else
            .error (.polymorphError "accepted and corrected decisions require a target field")
    else .error (textError "target_field" 256 (targetField.getD ""))
  else .error (textError "source_field" 256 sourceField)

/-- `ReviewDecision.to_dict` -/
def toDict (d : ReviewDecision) : List (String × Json) :=
  [("disposition", .str d.disposition.value), ("source_field", .str d.sourceField),
    ("target_field", d.targetField.elim .null .str)]

/-- The properties of a decision that its loader reads or ignores. -/
def allowed : List String := ["source_field", "target_field", "disposition", "suggested_target"]

/-- `ReviewDecision.from_dict` -/
def fromDict (payload : List (String × Json)) : Except Exn ReviewDecision := do
  if !payload.all fun p => allowed.contains p.1 then
    throw (.polymorphError "review decision contains unsupported properties")
  let sourceField ← boundedText "source_field" (payloadGet "source_field" payload) 256
  let targetField ← optionalBoundedText "target_field" (payloadGet "target_field" payload) 256
  let disposition ← boundedText "disposition" (payloadGet "disposition" payload) 16
  make sourceField targetField disposition

/-- A decision of a list of decoded values. -/
def ofJson : Json → Except Exn ReviewDecision
  | .obj payload => fromDict payload
  | _ => .error (.polymorphError "review decision must be an object")

end ReviewDecision

/-! ## Artifacts -/

/-- `MAX_REVIEW_ARTIFACT_BYTES` -/
def maxReviewArtifactBytes : Nat := 1024 * 1024

/-- `MAX_REVIEW_DECISIONS` -/
def maxReviewDecisions : Nat := 4096

/-- The loop over the decisions: no source field and no target field is met twice. -/
def checkDistinct : List String → List String → List ReviewDecision → Except Exn Unit
  | _, _, [] => .ok ()
  | sources, targets, d :: rest =>
      if d.sourceField ∈ sources then
        .error (.polymorphError "review artifact maps a source field more than once")
      else
        match d.targetField with
        | none => checkDistinct (d.sourceField :: sources) targets rest
        | some target =>
            if target ∈ targets then
              .error (.polymorphError "review artifact maps a target field more than once")
            else checkDistinct (d.sourceField :: sources) (target :: targets) rest

/-- A review artifact that its constructor accepts. -/
structure ReviewArtifact (H : Host) where
  artifactId : String
  sourceSchemaFingerprint : String
  destinationSchemaFingerprint : String
  reviewedBy : String
  createdAt : String
  decisions : List ReviewDecision
  artifactId_bounded : isBoundedText 64 artifactId = true
  source_fingerprint : isLowerHex 64 sourceSchemaFingerprint = true
  destination_fingerprint : isLowerHex 64 destinationSchemaFingerprint = true
  reviewedBy_bounded : isBoundedText 256 reviewedBy = true
  createdAt_timestamp : isTimestamp H createdAt = true
  decisions_count : decisions ≠ [] ∧ decisions.length ≤ maxReviewDecisions
  decisions_distinct : checkDistinct [] [] decisions = .ok ()

namespace ReviewArtifact

variable {H : Host}

/-- `ReviewArtifact(...)` -/
def make (artifactId sourceSchemaFingerprint destinationSchemaFingerprint reviewedBy
    createdAt : String) (decisions : List ReviewDecision) : Except Exn (ReviewArtifact H) :=
  if hid : isBoundedText 64 artifactId = true then
    if hsource : isLowerHex 64 sourceSchemaFingerprint = true then
      if hdestination : isLowerHex 64 destinationSchemaFingerprint = true then
        if hreviewer : isBoundedText 256 reviewedBy = true then
          if hcreated : isTimestamp H createdAt = true then
            if hcount : decisions ≠ [] ∧ decisions.length ≤ maxReviewDecisions then
              match hdistinct : checkDistinct [] [] decisions with
              | .error e => .error e
              | .ok () => .ok ⟨artifactId, sourceSchemaFingerprint, destinationSchemaFingerprint,
                  reviewedBy, createdAt, decisions, hid, hsource, hdestination, hreviewer,
                  hcreated, hcount, hdistinct⟩
            else .error (.polymorphError "review artifact must contain 1..4096 decisions")
          else .error (timestampError H "created_at" createdAt)
        else .error (textError "reviewed_by" 256 reviewedBy)
      else
        .error (fingerprintError "destination_schema_fingerprint" destinationSchemaFingerprint)
    else .error (fingerprintError "source_schema_fingerprint" sourceSchemaFingerprint)
  else .error (textError "artifact_id" 64 artifactId)

/-- The privacy declaration of every artifact. -/
def privacy : String := "schema_metadata_only_no_record_values"

/-- `_body` -/
def body (a : ReviewArtifact H) : List (String × Json) :=
  [("artifact_id", .str a.artifactId), ("created_at", .str a.createdAt),
    ("decisions", .arr (a.decisions.map fun d => .obj d.toDict)),
    ("destination_schema_fingerprint", .str a.destinationSchemaFingerprint),
    ("privacy", .str privacy), ("reviewed_by", .str a.reviewedBy),
    ("schema", .str "polymorph.review-artifact"),
    ("source_schema_fingerprint", .str a.sourceSchemaFingerprint), ("version", .int 1)]

/-- `content_sha256` -/
def contentSha256 (a : ReviewArtifact H) : String :=
  H.sha256Hex (asciiCompact.text (sortKeys (.obj a.body)))

/-- `ReviewArtifact.to_dict` -/
def toDict (a : ReviewArtifact H) : List (String × Json) :=
  a.body ++ [("content_sha256", .str a.contentSha256)]

/-- The decisions of a payload. -/
def decisionsOf (value : Json) (message : String) : Except Exn (List ReviewDecision) :=
  match value with
  | .arr items => items.mapM ReviewDecision.ofJson
  | _ => .error (.polymorphError message)

/-- The properties of a review draft. -/
def draftProperties : List String :=
  ["schema", "version", "session_id", "source_schema_fingerprint",
    "destination_schema_fingerprint", "reviewed_by", "reviewed_at", "decisions", "privacy"]

/-- `from_review_draft`; `artifactId` is `uuid.uuid4().hex` and `now` the clock. -/
def fromReviewDraft (artifactId : String) (now : Instant) (payload : List (String × Json)) :
    Except Exn (ReviewArtifact H) := do
  if !payload.all fun p => draftProperties.contains p.1 then
    throw (.polymorphError "review draft contains unsupported properties")
  if !isText "polymorph.review-draft" (payloadGet "schema" payload) ||
      !isOne H (payloadGet "version" payload) then
    throw (.polymorphError "unsupported review draft schema")
  let decisions ← decisionsOf (payloadGet "decisions" payload)
    "review draft decisions must be an array"
  let source ← fingerprintText "source_schema_fingerprint"
    (payloadGet "source_schema_fingerprint" payload)
  let destination ← fingerprintText "destination_schema_fingerprint"
    (payloadGet "destination_schema_fingerprint" payload)
  let reviewedBy ← boundedText "reviewed_by" (payloadGet "reviewed_by" payload) 256
  let createdAt ← reviewedAtText H now (payloadGet "reviewed_at" payload)
  make artifactId source destination reviewedBy createdAt decisions

/-- The properties of an artifact. -/
def expected : List String :=
  ["artifact_id", "created_at", "decisions", "destination_schema_fingerprint", "privacy",
    "reviewed_by", "schema", "source_schema_fingerprint", "version", "content_sha256"]

/-- `set(payload) == expected` -/
def hasExpectedKeys (payload : List (String × Json)) : Bool :=
  payload.all (fun p => expected.contains p.1) &&
    expected.all fun key => (dictGet key payload).isSome

/-- `ReviewArtifact.from_dict` -/
def fromDict (payload : List (String × Json)) : Except Exn (ReviewArtifact H) := do
  if !hasExpectedKeys payload then
    throw (.polymorphError "review artifact properties do not match version 1")
  if !isText "polymorph.review-artifact" (payloadGet "schema" payload) ||
      !isOne H (payloadGet "version" payload) then
    throw (.polymorphError "unsupported review artifact schema")
  if !isText privacy (payloadGet "privacy" payload) then
    throw (.polymorphError "review artifact privacy declaration is invalid")
  let decisions ← decisionsOf (payloadGet "decisions" payload)
    "review artifact decisions must be an array"
  let artifactId ← boundedText "artifact_id" (payloadGet "artifact_id" payload) 64
  let source ← fingerprintText "source_schema_fingerprint"
    (payloadGet "source_schema_fingerprint" payload)
  let destination ← fingerprintText "destination_schema_fingerprint"
    (payloadGet "destination_schema_fingerprint" payload)
  let reviewedBy ← boundedText "reviewed_by" (payloadGet "reviewed_by" payload) 256
  let createdAt ← timestampText H "created_at" (payloadGet "created_at" payload)
  let artifact ← make artifactId source destination reviewedBy createdAt decisions
  let supplied ← fingerprintText "content_sha256" (payloadGet "content_sha256" payload)
  if supplied ≠ artifact.contentSha256 then
    throw (.polymorphError "review artifact content digest does not match")
  return artifact

/-! ## Files -/

/-- What stands at a path. -/
inductive PathEntry where
  | missing
  | symlink
  | file (bytes : List UInt8)
  | special

/-- The text that `save` writes. -/
def saveText (a : ReviewArtifact H) : String :=
  asciiIndented.text (sortKeys (.obj a.toDict)) ++ "\n"

/-- `save`: what stands at the path afterwards. -/
def save (a : ReviewArtifact H) : PathEntry → Except Exn PathEntry
  | .symlink => .error (.polymorphError "review artifact target cannot be a symbolic link")
  | .special => .error (.other "OSError")
  | .missing | .file _ => .ok (.file (utf8Bytes a.saveText.toList))

/-- `json.loads(text, object_pairs_hook=_strict_object)` and the check of its root. -/
def loadText (text : String) : Except Exn (List (String × Json)) :=
  match loads text with
  | none => .error (.polymorphError "review artifact is not valid UTF-8 JSON")
  | some j =>
      if !shortIntegers j then
        .error (.valueError "Exceeds the limit for integer string conversion")
      else if !uniqueKeys j then
        .error (.polymorphError "review JSON contains a duplicate key")
      else
        match j with
        | .obj payload => .ok payload
        | _ => .error (.polymorphError "review artifact root must be an object")

/-- `load` -/
def load : PathEntry → Except Exn (ReviewArtifact H)
  | .missing => .error (.polymorphError "review artifact cannot be opened")
  | .symlink | .special =>
      .error (.polymorphError "review artifact must be a regular non-symlink file")
  | .file bytes =>
      if maxReviewArtifactBytes < bytes.length then
        .error (.polymorphError "review artifact exceeds the local size limit")
      else
        match decodeUtf8 bytes with
        | none => .error (.polymorphError "review artifact is not valid UTF-8 JSON")
        | some text => loadText text >>= fromDict

/-! ## Routes -/

/-- `validate_route` -/
def validateRoute (a : ReviewArtifact H) (sourceFingerprint destinationFingerprint : String) :
    Except Exn Unit := do
  let source ← fingerprintText "source_schema_fingerprint" (.str sourceFingerprint)
  if a.sourceSchemaFingerprint ≠ source then
    throw (.polymorphError "review artifact is stale for the current source schema")
  let destination ← fingerprintText "destination_schema_fingerprint" (.str destinationFingerprint)
  if a.destinationSchemaFingerprint ≠ destination then
    throw (.polymorphError "review artifact is stale for the current destination schema")

/-- `require_complete` -/
def requireComplete (a : ReviewArtifact H) : Except Exn Unit :=
  if a.decisions.any fun d => d.disposition = .abstained then
    .error (.polymorphError "review artifact still contains abstained decisions")
  else .ok ()

end ReviewArtifact

end Polymorph
