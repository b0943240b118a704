import Polymorph.Delivery.Capabilities
import Polymorph.Planning.Preflight

/-!
# The embedded move session

One session records reviews, prepares a route and executes it. What the connectors answer during a
call, and the clock and the ids of the call, are the parameters of the call. Events are delivered
best effort and change nothing, so they are left out.
-/

set_option autoImplicit false

namespace Polymorph

open JsonText Utc

/-- Status of a route or of a run. -/
inductive RouteStatus where
  | ready
  | reviewRequired
  | blocked
  | completed
  | notCommitted
  | partialWrite
  | unknown
deriving DecidableEq, Repr

/-- How a run may be retried. -/
inductive RetryPolicy where
  | safeAfterFix
  | afterReview
  | afterReconciliation
  | neverBlind
  | notApplicable
deriving DecidableEq, Repr

/-- A mapping that an operator reviewed. -/
structure ReviewedMapping where
  sourceFieldId : String
  targetFieldId : String
  reviewedBy : String
deriving DecidableEq

/-- `not value or len(value) > 128 or not value.isprintable() or value != value.strip()`, negated -/
def isReviewText (H : Host) (value : String) : Bool :=
  !value.isEmpty && value.length ≤ 128 && H.printable value && value = H.strip value

/-- `ReviewedMapping(...)` -/
def ReviewedMapping.make (H : Host) (sourceFieldId targetFieldId reviewedBy : String) :
    Except Exn ReviewedMapping :=
  if !isReviewText H sourceFieldId then
    .error (.valueError "source field id must be bounded printable text")
  else if !isReviewText H targetFieldId then
    .error (.valueError "target field id must be bounded printable text")
  else if !isReviewText H reviewedBy then
    .error (.valueError "reviewer must be bounded printable text")
  else .ok { sourceFieldId, targetFieldId, reviewedBy }

/-- The result of `prepare`. -/
structure RoutePreparation (S : Type) where
  runId : String
  status : RouteStatus
  sourceConnectorId : String
  destinationConnectorId : String
  sourceSchema : SchemaDescriptor
  destinationSchema : SchemaDescriptor
  decisions : List (MappingDecision S)
  reviewedMappings : List ReviewedMapping
  sourceSnapshotProven : Bool
  plan : Option MappingPlan := none
  preflight : Option PreflightReport := none
  reasonCodes : List String := []

/-- The result of `execute`. -/
structure MoveResult where
  runId : String
  status : RouteStatus
  recordsWritten : Option Int
  reasonCode : Option String
  nextAction : String
  retryPolicy : RetryPolicy
  destinationEvidence : String

/-- A resolved source: its connector id, and whether its content was inspected. -/
structure ResolvedSource where
  connectorId : String
  inspected : Bool

/-- What a session is constructed with. -/
structure SessionConfig (S : Type) [ScoreArith S] where
  matcher : HybridMatcher S
  text : TextHost
  glossary : Glossary
  runId : String
  maxInputRecords : Nat
  maxInputRecords_pos : 0 < maxInputRecords

/-- The state of a session. -/
structure MoveSession (S : Type) where
  source : Option ResolvedSource := none
  destination : Option String := none
  destinationCapabilities : Option ConnectorCapabilities := none
  reviews : List (String × ReviewedMapping) := []
  preparation : Option (RoutePreparation S) := none

/-- What a call of `prepare` observes. -/
structure PrepareWorld where
  resolveSource : Except Exn ResolvedSource
  resolveDestination : Except Exn String
  sourceSchema : Except Exn SchemaDescriptor
  destinationSchema : Except Exn SchemaDescriptor
  capabilities : ConnectorCapabilities
  planId : String
  now : Instant
  records : Except Exn RecordStream
  resolver : Option ForeignKeyResolver

/-- The mapped records that `write_records` may consume, and the exception after them. -/
structure MappedStream where
  records : List SourceRecord
  failure : Option Exn

/-- What `write_records` did: how many mapped records it consumed, and what it returned or raised;
`none` is a value that is not an integer. -/
structure WriteAnswer where
  consumed : Nat
  outcome : Except Exn (Option Int)

/-- What a call of `execute` observes. -/
structure ExecuteWorld where
  prepare : PrepareWorld
  capabilities : ConnectorCapabilities
  destinationSchema : Except Exn SchemaDescriptor
  records : RecordStream
  write : MappedStream → WriteAnswer

/-- A call of `write_records`: the route it belongs to and the records it may consume. -/
structure WriteCall (S : Type) where
  preparation : RoutePreparation S
  plan : MappingPlan
  records : MappedStream

namespace MoveSession

variable {S : Type} [ScoreArith S]

/-! ## Reviews -/

/-- `review_mapping` -/
def reviewMapping (H : Host) (session : MoveSession S)
    (sourceFieldId targetFieldId reviewedBy : String) : Except Exn Unit × MoveSession S :=
  match ReviewedMapping.make H sourceFieldId targetFieldId reviewedBy with
  | .error e => (.error e, session)
  | .ok reviewed =>
      (.ok (), { session with
        reviews := dictSet sourceFieldId reviewed session.reviews
        preparation := none })

/-- The decisions of a route after its reviews, with the counts of the override loop. -/
structure Reviewed (S : Type) where
  decisions : List (MappingDecision S) := []
  reviewedMappings : List ReviewedMapping := []
  unresolvedReviews : Nat := 0
  blocked : Nat := 0

/-- One pass of the override loop. -/
def overrideDecision (reviews : List (String × ReviewedMapping))
    (destinationSchema : SchemaDescriptor) (state : Reviewed S) (decision : MappingDecision S) :
    Except Exn (Reviewed S) :=
  match dictGet decision.sourceFieldId reviews with
  | some reviewed =>
      if (destinationSchema.fieldById? reviewed.targetFieldId).isNone then
        .error (.valueError ("review references unknown target field: " ++ reviewed.targetFieldId))
      else if decision.status = .blocked then
        .ok { state with
          decisions := state.decisions ++ [decision]
          blocked := state.blocked + 1 }
      else
        .ok { state with
          decisions := state.decisions ++ [{
            sourceFieldId := decision.sourceFieldId
            targetFieldId := some reviewed.targetFieldId
            status := .review
            score := decision.score
            margin := decision.margin
            reasons := decision.reasons ++ ["explicit_operator_review"] }]
          reviewedMappings := state.reviewedMappings ++ [reviewed] }
  | none =>
      .ok { state with
        decisions := state.decisions ++ [decision]
        unresolvedReviews :=
          state.unresolvedReviews + if decision.status = .review then 1 else 0
        blocked := state.blocked + if decision.status = .blocked then 1 else 0 }

/-- `sorted(set(self._reviews) - proposed_source_ids)` -/
def unknownReviews (reviews : List (String × ReviewedMapping))
    (proposed : List (MappingDecision S)) : List String :=
  ((reviews.map Prod.fst).filter fun id =>
    !proposed.any fun decision => decision.sourceFieldId = id).insertionSort (· ≤ ·)

/-- The decisions of `propose` under the recorded reviews. -/
def applyReviews (reviews : List (String × ReviewedMapping)) (destinationSchema : SchemaDescriptor)
    (proposed : List (MappingDecision S)) : Except Exn (Reviewed S) :=
  match unknownReviews reviews proposed with
  | id :: _ => .error (.valueError ("review references unknown source field: " ++ id))
  | [] => proposed.foldlM (overrideDecision reviews destinationSchema) {}

/-! ## Preparation -/

/-- The status of a route after its preflight. -/
def preflightStatus (report : PreflightReport) : RouteStatus :=
  if report.promotable then .ready
  else if report.requiresReview then .reviewRequired
  else .blocked

/-- The reason codes of a route after its preflight. -/
def preflightReasons (report : PreflightReport) : List String :=
  let codes := (report.planValidation.findings.map ValidationFinding.code ++
    report.findings.map PreflightFinding.code).eraseDups
  if codes.isEmpty && !report.promotable then ["preflight_not_promotable"] else codes

/-- The route between two inspected schemas. -/
def prepareRoute (cfg : SessionConfig S) (reviews : List (String × ReviewedMapping))
    (source : ResolvedSource) (destination : String) (w : PrepareWorld)
    (sourceSchema destinationSchema : SchemaDescriptor) : Except Exn (RoutePreparation S) := do
  let proposed ← cfg.matcher.propose cfg.text cfg.glossary sourceSchema destinationSchema
  let reviewed ← applyReviews reviews destinationSchema proposed
  let assembled (status : RouteStatus) (plan : Option MappingPlan)
      (preflight : Option PreflightReport) (reasonCodes : List String) : RoutePreparation S :=
    { runId := cfg.runId, status := status, sourceConnectorId := source.connectorId
      destinationConnectorId := destination, sourceSchema := sourceSchema
      destinationSchema := destinationSchema, decisions := reviewed.decisions
      reviewedMappings := reviewed.reviewedMappings, sourceSnapshotProven := source.inspected
      plan := plan, preflight := preflight, reasonCodes := reasonCodes }
  if 0 < reviewed.blocked then return assembled .blocked none none ["mapping_blocked"]
  else if 0 < reviewed.unresolvedReviews then
    return assembled .reviewRequired none none ["mapping_review_required"]
  else
    let plan ← buildPlan cfg.text w.planId w.now sourceSchema destinationSchema reviewed.decisions
      (!reviewed.reviewedMappings.isEmpty)
    let records ← w.records
    let report ← Preflight.run cfg.text.toHost records sourceSchema destinationSchema plan none
      (some cfg.maxInputRecords) w.resolver
    return assembled (preflightStatus report) (some plan) (some report) (preflightReasons report)

/-- `_resolve_source` and `_resolve_destination`: what is resolved once is kept. -/
def resolved {α : Type} (known : Option α) (resolve : Except Exn α) : Except Exn α :=
  match known with
  | some a => .ok a
  | none => resolve

/-- `prepare` -/
def prepare (cfg : SessionConfig S) (session : MoveSession S) (w : PrepareWorld) :
    Except Exn (RoutePreparation S) × MoveSession S :=
  match session.preparation with
  | some preparation => (.ok preparation, session)
  | none =>
      match resolved session.source w.resolveSource with
      | .error e => (.error e, session)
      | .ok source =>
          let session := { session with source := some source }
          match resolved session.destination w.resolveDestination with
          | .error e => (.error e, session)
          | .ok destination =>
              let session := { session with destination := some destination }
              match w.sourceSchema, w.destinationSchema with
              | .error e, _ => (.error e, session)
              | .ok _, .error e => (.error e, session)
              | .ok sourceSchema, .ok destinationSchema =>
                  let session := { session with destinationCapabilities := some w.capabilities }
                  match prepareRoute cfg session.reviews source destination w sourceSchema
                      destinationSchema with
                  | .error e => (.error e, session)
                  | .ok preparation =>
                      (.ok preparation, { session with preparation := some preparation })

/-! ## Execution -/

/-- One rule of `DataPlaneExecutor.execute_record`, without keys for sealing. -/
def executeRule (H : Host) (sourceSchema targetSchema : SchemaDescriptor) (record : SourceRecord)
    (output : SourceRecord) (rule : MappingRule) : Except Exn SourceRecord := do
  let source ← sourceSchema.fieldById rule.sourceFieldId
  let target ← targetSchema.fieldById rule.targetFieldId
  validateRoute source target rule.transform
  let value := (dictGet source.id record).getD .none
  if rule.transform = "opaque_forward" then
    match value with
    | .none => return dictSet target.id .none output
    | _ => throw (.policyViolation "opaque forwarding requires destination key and transfer context")
  else if source.sensitivity.isSealed then
    throw (.policyViolation "secret value reached ordinary transform path")
  else
    let transformed ← applyTransform H rule.transform value rule.parameters
    return dictSet target.id transformed output

/-- `DataPlaneExecutor.execute_record` -/
def executeRecord (H : Host) (sourceSchema targetSchema : SchemaDescriptor) (plan : MappingPlan)
    (record : SourceRecord) : Except Exn SourceRecord :=
  plan.rules.foldlM (executeRule H sourceSchema targetSchema record) []

/-- `mapped_records`: the records of the source in order, mapped, up to the budget or to the first
exception. -/
def mappedRecords (H : Host) (sourceSchema targetSchema : SchemaDescriptor) (plan : MappingPlan)
    (failure : Option Exn) : Nat → List SourceRecord → MappedStream
  | _, [] => ⟨[], failure⟩
  | 0, _ :: _ =>
      ⟨[], some (.connectorError
        "source exceeded the prepared input-record budget during execution")⟩
  | budget + 1, record :: rest =>
      match executeRecord H sourceSchema targetSchema plan record with
      | .error e => ⟨[], some e⟩
      | .ok mapped =>
          let stream := mappedRecords H sourceSchema targetSchema plan failure budget rest
          { stream with records := mapped :: stream.records }

/-- `_blocked_result` -/
def blockedResult (cfg : SessionConfig S) (reasonCode nextAction : String) : MoveResult :=
  { runId := cfg.runId, status := .blocked, recordsWritten := some 0
    reasonCode := some reasonCode, nextAction := nextAction, retryPolicy := .afterReview
    destinationEvidence := "The destination write method was not called." }

/-- The result of a route that is not ready. -/
def notReadyResult (cfg : SessionConfig S) (preparation : RoutePreparation S) : MoveResult :=
  { runId := cfg.runId, status := preparation.status, recordsWritten := some 0
    reasonCode := preparation.reasonCodes.head?
    nextAction := "Resolve preparation findings before requesting a destination write."
    retryPolicy := if preparation.status = .reviewRequired then .afterReview else .neverBlind
    destinationEvidence := "The destination write method was not called." }

/-- The result of an unproven write. -/
def unknownResult (cfg : SessionConfig S) (reasonCode nextAction evidence : String) : MoveResult :=
  { runId := cfg.runId, status := .unknown, recordsWritten := none
    reasonCode := some reasonCode, nextAction := nextAction, retryPolicy := .neverBlind
    destinationEvidence := evidence }

/-- The result of a write, from what `write_records` returned or raised. -/
def writeResult (cfg : SessionConfig S) (preflight : PreflightReport) (answer : WriteAnswer) :
    MoveResult :=
  match answer.outcome with
  | .ok written =>
      if written = some (answer.consumed : Int) ∧
          written = some (preflight.recordsChecked : Int) then
        { runId := cfg.runId, status := .completed, recordsWritten := written, reasonCode := none
          nextAction := "Retain the plan and connector outcome as run evidence."
          retryPolicy := .notApplicable
          destinationEvidence := "The connector synchronously reported " ++
            toString answer.consumed ++ " written record(s)." }
      else
        unknownResult cfg "destination_write_count_unproven"
          "Reconcile destination rows before any retry."
          "The connector returned an inconsistent write count."
  | .error (.partialConnectorWriteError _ committed nextOutcome) =>
      let outcomeText := match nextOutcome with
        | .notCommitted => "not_committed"
        | .unknown => "unknown"
        | .partialWrite => "partial"
      { runId := cfg.runId, status := .partialWrite, recordsWritten := some committed
        reasonCode := some "destination_write_partial"
        nextAction := "Retry only a newly constructed remainder after preserving and reconciling " ++
          "the committed prefix."
        retryPolicy := .neverBlind
        destinationEvidence := "The connector proved a committed prefix of " ++
          toString committed ++ " record(s); the next record outcome is " ++ outcomeText ++ "." }
  | .error (.connectorWriteError _ .notCommitted) =>
      { runId := cfg.runId, status := .notCommitted, recordsWritten := some 0
        reasonCode := some "write_not_committed"
        nextAction := "Fix the connector or destination issue, then prepare again."
        retryPolicy := .safeAfterFix
        destinationEvidence := "The connector explicitly proved that no write committed." }
  | .error (.connectorWriteError _ _) =>
      unknownResult cfg "write_outcome_unknown" "Reconcile destination state before any retry."
        "The connector did not prove whether the write committed."
  | .error _ =>
      unknownResult cfg "destination_write_exception_unknown"
        "Reconcile destination state before any retry."
        "An exception crossed the write boundary without explicit durability evidence."

/-- The gates of `execute` after a ready preparation: the write call that passes them all, or the
result or exception of the gate that does not. -/
def gates (cfg : SessionConfig S) (session : MoveSession S) (preparation : RoutePreparation S)
    (w : ExecuteWorld) : Except (Except Exn MoveResult) (WriteCall S × PreflightReport) :=
  if preparation.status ≠ .ready then .error (.ok (notReadyResult cfg preparation))
  else if !(session.source.any ResolvedSource.inspected) then
    .error (.ok (blockedResult cfg "source_snapshot_unproven"
      ("Use a content-inspected immutable file source or the separately authorized " ++
        "secure agent workflow.")))
  else
    match preparation.plan, preparation.preflight with
    | some plan, some preflight =>
        if plan.rules.any fun rule => rule.transform = "opaque_forward" then
          .error (.ok (blockedResult cfg "local_mode_requires_encrypted_transport"
            "Execute secret or opaque fields through the recipient-key secure agent workflow."))
        else if some w.capabilities ≠ session.destinationCapabilities then
          .error (.ok (blockedResult cfg "destination_capability_changed"
            "Recreate and prepare the session against one stable connector contract."))
        else
          match w.destinationSchema with
          | .error e => .error (.error e)
          | .ok current =>
              if current.fingerprint cfg.text.toHost ≠
                  preparation.destinationSchema.fingerprint cfg.text.toHost then
                .error (.ok (blockedResult cfg "target_schema_drift"
                  "Reinspect the destination and prepare a new route before writing."))
              else
                .ok ({
                  preparation := preparation
                  plan := plan
                  records := mappedRecords cfg.text.toHost preparation.sourceSchema
                    preparation.destinationSchema plan w.records.failure cfg.maxInputRecords
                    w.records.records }, preflight)
    | _, _ =>
        .error (.ok (blockedResult cfg "prepared_route_incomplete"
          "Prepare the route again before execution."))

/-- `execute`: its outcome, the session after it, and the call of `write_records` it made. -/
def execute (cfg : SessionConfig S) (session : MoveSession S) (w : ExecuteWorld) :
    Except Exn MoveResult × MoveSession S × Option (WriteCall S) :=
  match prepare cfg session w.prepare with
  | (.error e, session) => (.error e, session, none)
  | (.ok preparation, session) =>
      match gates cfg session preparation w with
      | .error outcome => (outcome, session, none)
      | .ok (call, preflight) =>
          (.ok (writeResult cfg preflight (w.write call.records)), session, some call)

end MoveSession

end Polymorph
