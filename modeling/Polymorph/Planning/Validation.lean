import Polymorph.Model.Transforms
import Polymorph.Planning.Plan

/-!
# Validating a plan

The findings of a plan against two schemas, before any payload is touched: identity and drift of
the schemas, the rules one by one, and the required targets that no rule supplies.
-/

set_option autoImplicit false

namespace Polymorph

/-- How severe a finding is. -/
inductive ValidationSeverity where
  | info
  | review
  | blocking
deriving DecidableEq, Repr

/-- A finding about a plan. -/
structure ValidationFinding where
  severity : ValidationSeverity
  code : String
  message : String
  sourceFieldId : Option String := none
  targetFieldId : Option String := none
deriving DecidableEq

/-- The findings of a validation. -/
structure PlanValidationReport where
  findings : List ValidationFinding

/-- `PlanValidationReport.valid` -/
def PlanValidationReport.valid (r : PlanValidationReport) : Bool :=
  !r.findings.any fun item => item.severity = .blocking

/-- `PlanValidationReport.requires_review` -/
def PlanValidationReport.requiresReview (r : PlanValidationReport) : Bool :=
  r.findings.any fun item => item.severity = .review

/-- `PlanValidationReport.raise_if_invalid` -/
def PlanValidationReport.raiseIfInvalid (r : PlanValidationReport) : Except Exn Unit :=
  if r.valid = true then .ok ()
  else
    let codes := (r.findings.filter fun item => item.severity = .blocking).map (·.code)
    .error (.policyViolation ("mapping plan validation failed: " ++ ", ".intercalate codes))

theorem raiseIfInvalid_of_valid {r : PlanValidationReport} (h : r.valid = true) :
    r.raiseIfInvalid = .ok () := if_pos h

theorem valid_of_raiseIfInvalid {r : PlanValidationReport} (h : r.raiseIfInvalid = .ok ()) :
    r.valid = true := by
  unfold PlanValidationReport.raiseIfInvalid at h
  split at h
  · assumption
  · cases h

/-- The message of a policy violation. -/
def Exn.policyMessage? : Exn → Option String
  | .policyViolation message => some message
  | _ => none

namespace PlanValidator

/-- A finding when the condition holds. -/
def findingIf (condition : Bool) (finding : ValidationFinding) : List ValidationFinding :=
  if condition then [finding] else []

/-- The findings about the plan's schema ids and fingerprints. -/
def bindingFindings (H : Host) (plan : MappingPlan) (sourceSchema targetSchema : SchemaDescriptor) :
    List ValidationFinding :=
  findingIf (plan.sourceSchemaId ≠ sourceSchema.id)
    ⟨.blocking, "source_schema_id_mismatch",
      "plan source schema id does not match the supplied schema", none, none⟩ ++
  findingIf (plan.targetSchemaId ≠ targetSchema.id)
    ⟨.blocking, "target_schema_id_mismatch",
      "plan target schema id does not match the supplied schema", none, none⟩ ++
  findingIf (plan.sourceFingerprint ≠ sourceSchema.fingerprint H)
    ⟨.blocking, "source_schema_drift",
      "source schema fingerprint differs from the approved plan", none, none⟩ ++
  findingIf (plan.targetFingerprint ≠ targetSchema.fingerprint H)
    ⟨.blocking, "target_schema_drift",
      "target schema fingerprint differs from the approved plan", none, none⟩

/-- The declared lookup key that a rule's `match_column` selects. -/
def ruleLookupKey (rule : MappingRule) (target : FieldDescriptor)
    (targetSchema : SchemaDescriptor) : Option LookupKeyDescriptor :=
  (targetSchema.relationForSourceField target.id).bind fun relation =>
    (rule.parameter "match_column").bind relation.lookupKey

/-- The findings about the types and the lookup contract of a rule whose route is allowed. -/
def contractFindings (rule : MappingRule) (source target : FieldDescriptor)
    (targetSchema : SchemaDescriptor) : List ValidationFinding :=
  if isForwarding rule.transform then
    if source.dataType = .unknown then
      [⟨.review, "source_type_unknown", "non-coercing transform lacks a declared source type",
        some source.id, some target.id⟩]
    else
      findingIf (!runtimeTypeSatisfies source.dataType target.dataType)
        ⟨.blocking, "type_mismatch",
          "non-coercing transform cannot satisfy the destination runtime type contract",
          some source.id, some target.id⟩
  else if rule.transform = "lookup_foreign_key" then
    let lookupKey := ruleLookupKey rule target targetSchema
    if ¬((rule.parameters.map Prod.fst).dedup = ["match_column"] ∧ lookupKey.isSome ∧
        source.role = .naturalKey ∧ target.role = .foreignKey) then
      [⟨.blocking, "foreign_key_lookup_contract_invalid",
        "foreign-key lookup lacks an exact single-column relation and declared unique lookup key",
        some source.id, some target.id⟩]
    else
      match lookupKey with
      | none => []
      | some key =>
          if source.dataType = .unknown ∨ key.dataType = .unknown then
            [⟨.review, "foreign_key_lookup_type_unknown",
              "foreign-key lookup requires review because its type contract is incomplete",
              some source.id, some target.id⟩]
          else
            findingIf (!automaticCopyTypeSafe source.dataType key.dataType)
              ⟨.blocking, "foreign_key_lookup_type_mismatch",
                "source type cannot satisfy the selected foreign-key lookup column contract",
                some source.id, some target.id⟩
  else []

/-- The findings about a rule between known fields, with a target that no earlier rule has. -/
def routeFindings (rule : MappingRule) (source target : FieldDescriptor)
    (targetSchema : SchemaDescriptor) : List ValidationFinding :=
  if !isKnownTransform rule.transform then
    [⟨.blocking, "unknown_transform", "mapping rule references an unregistered transform",
      some source.id, some target.id⟩]
  else
    match validateRoute source target rule.transform with
    | .error e =>
        [⟨.blocking, "policy_violation", e.policyMessage?.getD "", some source.id, some target.id⟩]
    | .ok () =>
        findingIf (source.nullable && !target.nullable)
          ⟨.review, "nullable_source_to_required_target",
            "source schema permits null but the destination field is required",
            some source.id, some target.id⟩ ++
        contractFindings rule source target targetSchema

/-- One rule: the targets written so far and the findings. -/
def checkRule (sourceSchema targetSchema : SchemaDescriptor)
    (state : List String × List ValidationFinding) (rule : MappingRule) :
    List String × List ValidationFinding :=
  match sourceSchema.fieldById? rule.sourceFieldId, targetSchema.fieldById? rule.targetFieldId with
  | none, _ =>
      (state.1, state.2 ++ [⟨.blocking, "unknown_source_field",
        "mapping rule references a source field that does not exist",
        some rule.sourceFieldId, some rule.targetFieldId⟩])
  | some _, none =>
      (state.1, state.2 ++ [⟨.blocking, "unknown_target_field",
        "mapping rule references a target field that does not exist",
        some rule.sourceFieldId, some rule.targetFieldId⟩])
  | some source, some target =>
      if target.id ∈ state.1 then
        (state.1, state.2 ++ [⟨.blocking, "duplicate_target",
          "multiple rules write the same target field", some source.id, some target.id⟩])
      else
        (target.id :: state.1, state.2 ++ routeFindings rule source target targetSchema)

/-- The required targets that no rule supplies. -/
def missingFindings (targetSchema : SchemaDescriptor) (targeted : List String) :
    List ValidationFinding :=
  (targetSchema.fields.filter fun field =>
      !(decide (field.id ∈ targeted) || field.nullable || field.destinationGenerated)).map
    fun field => ⟨.blocking, "required_target_unmapped",
      "non-nullable target field is not supplied by this plan", none, some field.id⟩

/-- `PlanValidator.validate` -/
def validate (H : Host) (plan : MappingPlan) (sourceSchema targetSchema : SchemaDescriptor) :
    PlanValidationReport :=
  let (targeted, findings) := plan.rules.foldl (checkRule sourceSchema targetSchema)
    ([], bindingFindings H plan sourceSchema targetSchema)
  ⟨findings ++ missingFindings targetSchema targeted⟩

/-! ## What a clean validation says -/

/-- The findings of a check are kept by the checks after it. -/
theorem checkRules_findings {sourceSchema targetSchema : SchemaDescriptor}
    {rules : List MappingRule} {state : List String × List ValidationFinding}
    {finding : ValidationFinding} (h : finding ∈ state.2) :
    finding ∈ (rules.foldl (checkRule sourceSchema targetSchema) state).2 := by
  induction rules generalizing state with
  | nil => exact h
  | cons rule rules ih =>
      refine ih ?_
      unfold checkRule
      split
      · exact List.mem_append_left _ h
      · exact List.mem_append_left _ h
      · split
        · exact List.mem_append_left _ h
        · exact List.mem_append_left _ h

/-- The rules of a validation whose findings all satisfy `ok`, which no blocking finding does. -/
theorem checkRules_clean {sourceSchema targetSchema : SchemaDescriptor}
    {ok : ValidationFinding → Prop} (hok : ∀ f, ok f → f.severity ≠ .blocking)
    {rules : List MappingRule} {state : List String × List ValidationFinding}
    (h : ∀ f ∈ (rules.foldl (checkRule sourceSchema targetSchema) state).2, ok f) :
    (rules.map MappingRule.targetFieldId).Nodup ∧
      ∀ rule ∈ rules, rule.targetFieldId ∉ state.1 ∧ ∃ source target,
        sourceSchema.fieldById? rule.sourceFieldId = some source ∧
        targetSchema.fieldById? rule.targetFieldId = some target ∧
        ∀ f ∈ routeFindings rule source target targetSchema, ok f := by
  induction rules generalizing state with
  | nil => exact ⟨List.nodup_nil, nofun⟩
  | cons rule rules ih =>
      rw [List.foldl_cons] at h
      obtain ⟨hnodup, hrules⟩ := ih h
      have hkept : ∀ f ∈ (checkRule sourceSchema targetSchema state rule).2, ok f :=
        fun f hf => h f (checkRules_findings hf)
      -- A blocking finding of this rule would be among the findings.
      have hstep : ∃ source target, sourceSchema.fieldById? rule.sourceFieldId = some source ∧
          targetSchema.fieldById? rule.targetFieldId = some target ∧ target.id ∉ state.1 ∧
          checkRule sourceSchema targetSchema state rule =
            (target.id :: state.1, state.2 ++ routeFindings rule source target targetSchema) := by
        unfold checkRule at hkept ⊢
        cases hsource : sourceSchema.fieldById? rule.sourceFieldId with
        | none =>
            rw [hsource] at hkept
            exact absurd rfl (hok _ (hkept _ (List.mem_append_right _ List.mem_cons_self)))
        | some source =>
            cases htarget : targetSchema.fieldById? rule.targetFieldId with
            | none =>
                rw [hsource, htarget] at hkept
                exact absurd rfl (hok _ (hkept _ (List.mem_append_right _ List.mem_cons_self)))
            | some target =>
                rw [hsource, htarget] at hkept
                dsimp only at hkept ⊢
                by_cases hdup : target.id ∈ state.1
                · rw [if_pos hdup] at hkept
                  exact absurd rfl (hok _ (hkept _ (List.mem_append_right _ List.mem_cons_self)))
                · exact ⟨source, target, rfl, rfl, hdup, if_neg hdup⟩
      obtain ⟨source, target, hsource, htarget, hfresh, hstep⟩ := hstep
      rw [hstep] at hrules hkept
      have hid : target.id = rule.targetFieldId :=
        (SchemaDescriptor.fieldById?_eq_some htarget).2
      refine ⟨?_, ?_⟩
      · rw [List.map_cons, List.nodup_cons]
        refine ⟨?_, hnodup⟩
        intro hmem
        obtain ⟨other, hother, hsame⟩ := List.mem_map.1 hmem
        exact (hrules other hother).1 (by rw [hsame, hid]; exact List.mem_cons_self)
      · intro other hother
        rcases List.mem_cons.1 hother with rfl | hother
        · exact ⟨hid ▸ hfresh, source, target, hsource, htarget,
            fun f hf => hkept f (List.mem_append_right _ hf)⟩
        · obtain ⟨hnew, hrest⟩ := hrules other hother
          exact ⟨fun hmem => hnew (List.mem_cons_of_mem _ hmem), hrest⟩

/-- The rules of a valid plan: known fields, distinct targets, and no blocking finding. -/
theorem rules_of_valid {H : Host} {plan : MappingPlan} {sourceSchema targetSchema : SchemaDescriptor}
    {ok : ValidationFinding → Prop} (hok : ∀ f, ok f → f.severity ≠ .blocking)
    (h : ∀ f ∈ (validate H plan sourceSchema targetSchema).findings, ok f) :
    (plan.rules.map MappingRule.targetFieldId).Nodup ∧
      ∀ rule ∈ plan.rules, ∃ source target,
        sourceSchema.fieldById? rule.sourceFieldId = some source ∧
        targetSchema.fieldById? rule.targetFieldId = some target ∧
        ∀ f ∈ routeFindings rule source target targetSchema, ok f := by
  obtain ⟨hnodup, hrules⟩ := @checkRules_clean _ _ _ hok plan.rules
    ([], bindingFindings H plan sourceSchema targetSchema)
    fun f hf => h f (List.mem_append_left _ hf)
  exact ⟨hnodup, fun rule hrule => (hrules rule hrule).2⟩

theorem not_blocking_of_valid {report : PlanValidationReport} (h : report.valid = true) :
    ∀ f ∈ report.findings, f.severity ≠ .blocking := by
  intro f hf hblocking
  have hnone : (report.findings.any fun item => item.severity = .blocking) = false := by
    simpa [PlanValidationReport.valid] using h
  rw [List.any_eq_false] at hnone
  exact hnone f hf (decide_eq_true hblocking)

end PlanValidator

/-! ## Plans bound to their schemas -/

/-- The findings about rules and required targets. -/
def boundFindings (rules : List MappingRule) (sourceSchema targetSchema : SchemaDescriptor) :
    PlanValidationReport :=
  let (targeted, findings) := rules.foldl (PlanValidator.checkRule sourceSchema targetSchema)
    ([], [])
  ⟨findings ++ PlanValidator.missingFindings targetSchema targeted⟩

/-- The validator looks at the rules and the required targets of a plan bound to its schemas. -/
theorem validate_bound {H : Host} {plan : MappingPlan} {sourceSchema targetSchema : SchemaDescriptor}
    (hsource : plan.sourceSchemaId = sourceSchema.id)
    (htarget : plan.targetSchemaId = targetSchema.id)
    (hsourceFingerprint : plan.sourceFingerprint = sourceSchema.fingerprint H)
    (htargetFingerprint : plan.targetFingerprint = targetSchema.fingerprint H) :
    PlanValidator.validate H plan sourceSchema targetSchema =
      boundFindings plan.rules sourceSchema targetSchema := by
  have hbinding : PlanValidator.bindingFindings H plan sourceSchema targetSchema = [] := by
    simp [PlanValidator.bindingFindings, PlanValidator.findingIf, hsource, htarget,
      hsourceFingerprint, htargetFingerprint]
  unfold PlanValidator.validate
  rw [hbinding]
  rfl

end Polymorph
