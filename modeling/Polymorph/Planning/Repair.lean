import Polymorph.Planning.Validation

/-!
# Repairing a plan after schema drift

Every mapped field is resolved in its new schema, by its id where its descriptor is stable and by
the matcher elsewhere. The rules over the resolved fields form the repaired plan, which is validated
like any other. A proposal applies by itself when all its findings are safe.
-/

set_option autoImplicit false

namespace Polymorph

open ScoreArith Utc

/-- How severe a finding of a repair is. -/
inductive RepairSeverity where
  | safe
  | review
  | blocking
deriving DecidableEq, Repr

/-- A finding of a repair. -/
structure RepairFinding where
  severity : RepairSeverity
  fieldId : String
  message : String
  replacementFieldId : Option String := none
  side : String := "source"
deriving DecidableEq

/-- A proposed repair. -/
structure RepairProposal where
  findings : List RepairFinding
  plan : Option MappingPlan

/-- `auto_applicable` -/
def RepairProposal.autoApplicable (p : RepairProposal) : Bool :=
  p.plan.isSome && p.findings.all fun item => item.severity = .safe

/-- `blocked` -/
def RepairProposal.blocked (p : RepairProposal) : Bool :=
  p.findings.any fun item => item.severity = .blocking

/-- The schemas that a repair is asked about. -/
structure Drift where
  oldSource : SchemaDescriptor
  newSource : SchemaDescriptor
  oldTarget : SchemaDescriptor
  newTarget : SchemaDescriptor

/-- The new schemas carry the fingerprints of the plan. -/
def Drift.unchanged (H : Host) (drift : Drift) (plan : MappingPlan) : Bool :=
  drift.newSource.fingerprint H = plan.sourceFingerprint &&
    drift.newTarget.fingerprint H = plan.targetFingerprint

section Repair

variable {S : Type} [ScoreArith S]

variable (S) in
/-- `_descriptor_is_stable` -/
def descriptorIsStable (T : TextHost) (old current : FieldDescriptor) : Bool :=
  if old.sensitivity ≠ current.sensitivity then false
  else if old.name = current.name then true
  else le (lit 0.88) (nameSimilarity (S := S) T old current).1

/-- What `_resolve_field` returns. -/
abbrev FieldResolution := Option FieldDescriptor × Option RepairFinding

/-- The resolution of a field whose id is still there with a stable descriptor. -/
def stableResolution (old sameId : FieldDescriptor) (side : String) : FieldResolution :=
  if sameId.sensitivity ≠ old.sensitivity then
    (none, some ⟨.blocking, old.id, "field sensitivity changed", some sameId.id, side⟩)
  else if sameId.dataType ≠ old.dataType then
    (some sameId, some ⟨.review, old.id, "field type changed", some sameId.id, side⟩)
  else (some sameId, none)

/-- The resolution of a field by its replacement. -/
def replacementResolution (old replacement : FieldDescriptor) (side : String) : FieldResolution :=
  if replacement.sensitivity ≠ old.sensitivity then
    (none, some ⟨.blocking, old.id, "replacement would change sensitivity", some replacement.id,
      side⟩)
  else if replacement.dataType ≠ old.dataType then
    (some replacement, some ⟨.review, old.id,
      "field appears moved or renamed" ++ " and its declared type changed", some replacement.id,
      side⟩)
  else
    (some replacement, some ⟨.safe, old.id, "field appears moved or renamed", some replacement.id,
      side⟩)

/-- The field of the same id, where its descriptor is stable. -/
def stableField (S : Type) [ScoreArith S] (T : TextHost) (old : FieldDescriptor)
    (newSchema : SchemaDescriptor) : Option FieldDescriptor :=
  (newSchema.fieldById? old.id).filter (descriptorIsStable S T old)

/-- `_resolve_field` -/
def resolveField (m : HybridMatcher S) (T : TextHost) (old : FieldDescriptor)
    (newSchema : SchemaDescriptor) (side : String) : Except Exn FieldResolution :=
  match stableField S T old newSchema with
  | some sameId => .ok (stableResolution old sameId side)
  | none => do
      let decision ← m.decide T old newSchema
      match decision.status, decision.targetFieldId with
      | .auto, some targetFieldId =>
          let replacement ← newSchema.fieldById targetFieldId
          return replacementResolution old replacement side
      | _, _ =>
          return (none, some ⟨.blocking, old.id,
            "mapped field cannot be resolved safely after schema drift", none, side⟩)

/-- The new target's relation keeps the lookup key of a rule. -/
def lookupPathExists (rule : MappingRule) (target : FieldDescriptor) (newTarget : SchemaDescriptor) :
    Bool :=
  rule.transform ≠ "lookup_foreign_key" ||
    (PlanValidator.ruleLookupKey rule target newTarget).isSome

/-- The rule over the resolved fields. -/
def MappingRule.rebind (rule : MappingRule) (source target : FieldDescriptor) : MappingRule :=
  { rule with sourceFieldId := source.id, targetFieldId := target.id }

/-- One pass of the loop: its findings, and the rule it keeps. -/
def repairRule (m : HybridMatcher S) (T : TextHost) (drift : Drift) (rule : MappingRule) :
    Except Exn (List RepairFinding × Option MappingRule) :=
  match drift.oldSource.fieldById? rule.sourceFieldId,
      drift.oldTarget.fieldById? rule.targetFieldId with
  | some oldSourceField, some oldTargetField => do
      let (source, sourceFinding) ← resolveField m T oldSourceField drift.newSource "source"
      let (target, targetFinding) ← resolveField m T oldTargetField drift.newTarget "target"
      let findings := sourceFinding.toList ++ targetFinding.toList
      match source, target with
      | some source, some target =>
          if lookupPathExists rule target drift.newTarget then
            return (findings, some (rule.rebind source target))
          else
            return (findings ++ [⟨.blocking, oldTargetField.id,
              "approved foreign-key lookup path no longer exists", some target.id, "target"⟩], none)
      | _, _ => return (findings, none)
  | _, _ =>
      .ok ([⟨.blocking, rule.sourceFieldId,
        "approved plan references a field absent from its baseline schema", none, "source"⟩], none)

/-- The plan over the repaired rules. -/
def repairedPlan (H : Host) (now : Instant) (plan : MappingPlan) (drift : Drift)
    (rules : List MappingRule) : MappingPlan where
  id := plan.id
  sourceSchemaId := drift.newSource.id
  targetSchemaId := drift.newTarget.id
  sourceFingerprint := drift.newSource.fingerprint H
  targetFingerprint := drift.newTarget.fingerprint H
  rules := rules
  version := plan.version + 1
  createdAt := now

/-- The finding that a finding of the validator becomes. -/
def planFinding (item : ValidationFinding) : Option RepairFinding :=
  if item.severity = .info then none
  else
    some {
      severity := if item.severity = .blocking then .blocking else .review
      fieldId := (item.sourceFieldId <|> item.targetFieldId).getD "plan"
      message := item.message
      replacementFieldId := item.targetFieldId
      side := "plan" }

/-- A proposal that keeps its plan unless a finding blocks. -/
def unlessBlocked (findings : List RepairFinding) (plan : MappingPlan) : RepairProposal :=
  if findings.any fun item => item.severity = .blocking then ⟨findings, none⟩
  else ⟨findings, some plan⟩

/-- `propose_plan_repair` -/
def proposePlanRepair (m : HybridMatcher S) (T : TextHost) (now : Instant) (plan : MappingPlan)
    (drift : Drift) : Except Exn RepairProposal :=
  if drift.unchanged T.toHost plan then .ok ⟨[], some plan⟩
  else do
    let passes ← plan.rules.mapM (repairRule m T drift)
    let findings := passes.flatMap Prod.fst
    if findings.any fun item => item.severity = .blocking then return ⟨findings, none⟩
    let repaired := repairedPlan T.toHost now plan drift (passes.filterMap Prod.snd)
    let validation := PlanValidator.validate T.toHost repaired drift.newSource drift.newTarget
    return unlessBlocked (findings ++ validation.findings.filterMap planFinding) repaired

end Repair

end Polymorph
