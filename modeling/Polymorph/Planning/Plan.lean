import Polymorph.Matching.HybridSpec

/-!
# Building a plan

The information-flow checks of a route, the transform that a decision calls for, and the plan that
a list of decisions builds.
-/

set_option autoImplicit false

namespace Polymorph

open Utc

/-! ## Policy -/

/-- What a classification allows. -/
structure FieldPolicy where
  sensitivity : Sensitivity
  transformable : Bool

/-- `FieldPolicy.for_sensitivity` -/
def FieldPolicy.forSensitivity (sensitivity : Sensitivity) : FieldPolicy :=
  { sensitivity, transformable := !sensitivity.isSealed }

/-- `PolicyEngine.field_policy` -/
def fieldPolicy (field : FieldDescriptor) : FieldPolicy := .forSensitivity field.sensitivity

/-- The transforms that leave a value as it is. -/
def isForwarding (transform : String) : Bool :=
  transform = "copy" || transform = "opaque_forward"

/-- `PolicyEngine.validate_route` -/
def validateRoute (source target : FieldDescriptor) (transform : String) : Except Exn Unit :=
  if !sensitivityRouteSafe source.sensitivity target.sensitivity then
    .error (.policyViolation "route would downgrade destination sensitivity")
  else if source.sensitivity.isSealed && !isForwarding transform then
    .error (.policyViolation "secret or opaque fields cannot be transformed")
  else if !isForwarding transform && !(fieldPolicy source).transformable then
    .error (.policyViolation "source policy forbids transformation")
  else if source.sensitivity = .opaqueData ∧ transform ≠ "opaque_forward" then
    .error (.policyViolation "opaque fields require opaque_forward")
  else if (fieldPolicy target).sensitivity = .opaqueData ∧ transform ≠ "opaque_forward" then
    .error (.policyViolation "opaque destinations require opaque_forward")
  else .ok ()

/-! ## Rules and plans -/

/-- `field_id` is present in `by_id()`, or the lookup raises. -/
def SchemaDescriptor.fieldById (s : SchemaDescriptor) (fieldId : String) :
    Except Exn FieldDescriptor :=
  match s.fieldById? fieldId with
  | some field => .ok field
  | none => .error (.keyError fieldId)

section Build

variable {S : Type} [ScoreArith S] (T : TextHost)

variable (S) in
/-- The lookup key of a rule: automatic, or compatible when the decision was reviewed. -/
def ruleLookupName (source target : FieldDescriptor) (targetSchema : SchemaDescriptor)
    (reviewed : Bool) : Option String :=
  match foreignKeyLookupKey S T source target targetSchema with
  | some name => some name
  | none =>
      if reviewed then reviewableForeignKeyLookupKey S T source target targetSchema else none

variable (S) in
/-- `_mapping_rule` -/
def mappingRule (source target : FieldDescriptor) (targetSchema : SchemaDescriptor)
    (reviewed : Bool) : MappingRule :=
  if source.sensitivity.isSealed then
    { sourceFieldId := source.id, targetFieldId := target.id, transform := "opaque_forward" }
  else
    match ruleLookupName S T source target targetSchema reviewed with
    | some name =>
        { sourceFieldId := source.id, targetFieldId := target.id,
          transform := "lookup_foreign_key", parameters := [("match_column", name)] }
    | none =>
        if source.dataType = .integer ∧ target.dataType = .integer then
          { sourceFieldId := source.id, targetFieldId := target.id, transform := "parse_integer" }
        else { sourceFieldId := source.id, targetFieldId := target.id, transform := "copy" }

/-- The rule of a decision that the loop does not skip. -/
def pairRule (sourceSchema targetSchema : SchemaDescriptor) (decision : MappingDecision S)
    (targetFieldId : String) : Except Exn MappingRule := do
  let source ← sourceSchema.fieldById decision.sourceFieldId
  let target ← targetSchema.fieldById targetFieldId
  if decision.status = .auto && !automaticMappingContractSafe S T source target targetSchema then
    throw (.policyViolation "automatic mapping decision lacks an executable contract")
  let rule := mappingRule S T source target targetSchema (decision.status = .review)
  validateRoute source target rule.transform
  return rule

/-- One pass of the loop: the rule of a decision, or `none` for a decision that is skipped. -/
def decisionRule (sourceSchema targetSchema : SchemaDescriptor) (allowReview : Bool)
    (decision : MappingDecision S) : Except Exn (Option MappingRule) :=
  match decision.targetFieldId with
  | none => .ok none
  | some targetFieldId =>
      if decision.status = .blocked then .ok none
      else if decision.status = .review && !allowReview then .ok none
      else (pairRule T sourceSchema targetSchema decision targetFieldId).map some

/-- `build_plan`; the id and the creation time are `uuid4()` and the clock. -/
def buildPlan (planId : String) (now : Instant) (sourceSchema targetSchema : SchemaDescriptor)
    (decisions : List (MappingDecision S)) (allowReview : Bool) : Except Exn MappingPlan := do
  let rules ← decisions.mapM (decisionRule T sourceSchema targetSchema allowReview)
  return {
    id := planId
    sourceSchemaId := sourceSchema.id
    targetSchemaId := targetSchema.id
    sourceFingerprint := sourceSchema.fingerprint T.toHost
    targetFingerprint := targetSchema.fingerprint T.toHost
    rules := rules.filterMap id
    createdAt := now }

end Build

/-! ## What a built plan contains -/

section Built

variable {S : Type} [ScoreArith S] {T : TextHost} {source target : FieldDescriptor}
  {sourceSchema targetSchema : SchemaDescriptor}

theorem fieldById_of_mem {schema : SchemaDescriptor} {f : FieldDescriptor} (h : f ∈ schema.fields) :
    schema.fieldById f.id = .ok f := by
  unfold SchemaDescriptor.fieldById
  rw [SchemaDescriptor.fieldById?_of_mem h]

theorem fieldById_eq_ok {schema : SchemaDescriptor} {fieldId : String} {f : FieldDescriptor}
    (h : schema.fieldById fieldId = .ok f) : schema.fieldById? fieldId = some f := by
  unfold SchemaDescriptor.fieldById at h
  split at h
  · rename_i found hfound
    rw [hfound, Except.ok.inj h]
  · cases h

/-- A rule goes from the source field to the target field. -/
theorem mappingRule_fields (reviewed : Bool) :
    (mappingRule S T source target targetSchema reviewed).sourceFieldId = source.id ∧
      (mappingRule S T source target targetSchema reviewed).targetFieldId = target.id := by
  unfold mappingRule
  split
  · exact ⟨rfl, rfl⟩
  · split
    · exact ⟨rfl, rfl⟩
    · split
      · exact ⟨rfl, rfl⟩
      · exact ⟨rfl, rfl⟩

theorem pairRule_eq_ok {d : MappingDecision S} {t : String} {rule : MappingRule}
    (h : pairRule T sourceSchema targetSchema d t = .ok rule) :
    rule.sourceFieldId = d.sourceFieldId ∧ rule.targetFieldId = t := by
  unfold pairRule at h
  obtain ⟨source, hsource, h⟩ := bind_eq_ok h
  obtain ⟨target, htarget, h⟩ := bind_eq_ok h
  obtain ⟨-, h⟩ := guard_eq_ok h
  obtain ⟨-, -, h⟩ := bind_eq_ok h
  cases h
  have hsourceId := (SchemaDescriptor.fieldById?_eq_some (fieldById_eq_ok hsource)).2
  have htargetId := (SchemaDescriptor.fieldById?_eq_some (fieldById_eq_ok htarget)).2
  obtain ⟨hruleSource, hruleTarget⟩ := (@mappingRule_fields S _ T source target targetSchema)
      (d.status = .review)
  exact ⟨hruleSource.trans hsourceId, hruleTarget.trans htargetId⟩

/-- A rule joins the fields of its decision; a decision that the loop does not skip has a rule. -/
theorem decisionRule_eq_ok {d : MappingDecision S} {allowReview : Bool} {r : Option MappingRule}
    (h : decisionRule T sourceSchema targetSchema allowReview d = .ok r) :
    (∀ rule, r = some rule → rule.sourceFieldId = d.sourceFieldId ∧
      d.targetFieldId = some rule.targetFieldId) ∧
    (d.targetFieldId.isSome = true → d.status ≠ .blocked →
      (d.status = .review → allowReview = true) → r.isSome = true) := by
  unfold decisionRule at h
  cases hid : d.targetFieldId with
  | none =>
      rw [hid] at h
      cases h
      exact ⟨nofun, nofun⟩
  | some t =>
      rw [hid] at h
      dsimp only at h
      split at h
      · rename_i hblocked
        cases h
        exact ⟨nofun, fun _ hopen => absurd hblocked hopen⟩
      · split at h
        · rename_i hskip
          cases h
          refine ⟨nofun, fun _ _ hallow => ?_⟩
          simp only [Bool.and_eq_true, decide_eq_true_eq, Bool.not_eq_true'] at hskip
          rw [hallow hskip.1] at hskip
          cases hskip.2
        · cases hpair : pairRule T sourceSchema targetSchema d t with
          | error e =>
              rw [hpair] at h
              cases h
          | ok rule =>
              rw [hpair] at h
              cases h
              obtain ⟨hsource, htarget⟩ := pairRule_eq_ok hpair
              refine ⟨?_, fun _ _ _ => rfl⟩
              rintro found ⟨rfl⟩
              exact ⟨hsource, congrArg some htarget.symm⟩

theorem buildPlan_eq_ok {planId : String} {now : Instant} {ds : List (MappingDecision S)}
    {allowReview : Bool} {plan : MappingPlan}
    (h : buildPlan T planId now sourceSchema targetSchema ds allowReview = .ok plan) :
    ∃ rs, List.Forall₂ (fun d r => decisionRule T sourceSchema targetSchema allowReview d = .ok r)
      ds rs ∧ plan.rules = rs.filterMap id := by
  unfold buildPlan at h
  obtain ⟨rs, hrs, h⟩ := bind_eq_ok h
  cases h
  exact ⟨rs, forall₂_of_mapM hrs, rfl⟩

end Built

end Polymorph
