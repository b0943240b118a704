import Polymorph.Concurrency.Transaction
import Polymorph.Model.Structure
import Polymorph.Planning.Validation
import Polymorph.StandardHost
import Polymorph.Text.JsonLayout

/-!
# Recipes

A recipe keeps a review-free plan with the structural fingerprints of the schemas it was made for.
`remember` stores one under the next version of its structure; `rebind` makes a plan for the
current schemas out of it and validates that plan again. Ids are those of `uuid4()`, and the clock
is an argument.
-/

set_option autoImplicit false

namespace Polymorph

open JsonText Transaction Utc

/-- `MappingPlan.__post_init__` -/
def MappingPlan.check (p : MappingPlan) : Except Exn MappingPlan :=
  if p.id = "" ∨ p.sourceSchemaId = "" ∨ p.targetSchemaId = "" then
    .error (.valueError "plan and schema ids must be non-empty")
  else if p.version < 1 then .error (.valueError "plan version must be at least 1")
  else .ok p

/-- `plan_to_dict` -/
def planToDict (H : Host) (p : MappingPlan) : Json :=
  .obj [("id", .str p.id), ("source_schema_id", .str p.sourceSchemaId),
    ("target_schema_id", .str p.targetSchemaId), ("source_fingerprint", .str p.sourceFingerprint),
    ("target_fingerprint", .str p.targetFingerprint),
    ("rules", .arr (p.rules.map MappingRule.canonicalDict)), ("version", .int p.version),
    ("created_at", .str p.createdAt.isoformat), ("digest", .str (p.digest H))]

/-- A remembered plan. -/
structure Recipe where
  id : String
  version : Nat
  sourceStructuralFingerprint : String
  targetStructuralFingerprint : String
  plan : MappingPlan
  approvedBy : String
  createdAt : Instant

/-- `Recipe.rebind` -/
def Recipe.rebind (H : Host) (recipe : Recipe) (planId : String) (now : Instant)
    (sourceSchema targetSchema : SchemaDescriptor) : Except Exn MappingPlan := do
  if sourceSchema.structuralFingerprint H ≠ recipe.sourceStructuralFingerprint then
    throw (.integrityError "recipe source structure does not match the current source")
  if targetSchema.structuralFingerprint H ≠ recipe.targetStructuralFingerprint then
    throw (.integrityError "recipe target structure does not match the current destination")
  let rebound ← MappingPlan.check {
    id := planId
    sourceSchemaId := sourceSchema.id
    targetSchemaId := targetSchema.id
    sourceFingerprint := sourceSchema.fingerprint H
    targetFingerprint := targetSchema.fingerprint H
    rules := recipe.plan.rules
    version := recipe.version
    createdAt := now }
  let report := PlanValidator.validate H rebound sourceSchema targetSchema
  report.raiseIfInvalid
  if report.requiresReview = true then
    throw (.policyViolation "recipe rebind requires review under the current schema")
  return rebound

/-! ## The store -/

/-- A row of `recipes`. -/
structure RecipeRow where
  id : String
  version : Nat
  sourceStructuralFingerprint : String
  targetStructuralFingerprint : String
  planJson : String
  planDigest : String
  approvedBy : String
  createdAt : String

namespace RecipeStore

/-- The row is about these two structures. -/
def isAbout (source target : String) (row : RecipeRow) : Bool :=
  row.sourceStructuralFingerprint = source && row.targetStructuralFingerprint = target

/-- `COALESCE(MAX(version), 0)` of the rows about two structures. -/
def latestVersion (source target : String) (rows : List RecipeRow) : Nat :=
  ((rows.filter (isAbout source target)).map RecipeRow.version).foldr max 0

/-- `INSERT INTO recipes`, with the unique columns of the table. -/
def insertRow (row : RecipeRow) (rows : List RecipeRow) : Except Exn (List RecipeRow) :=
  if rows.any fun other => other.id = row.id ||
      (isAbout row.sourceStructuralFingerprint row.targetStructuralFingerprint other &&
        other.version = row.version) then
    .error (.other "sqlite3.IntegrityError")
  else .ok (rows ++ [row])

/-- `RecipeStore.remember` -/
def remember (H : Host) (recipeId : String) (now : Instant) (plan : MappingPlan)
    (sourceSchema targetSchema : SchemaDescriptor) (approvedBy : String := "local-user") :
    EStateM Exn (List RecipeRow) Recipe := do
  let report := PlanValidator.validate H plan sourceSchema targetSchema
  report.raiseIfInvalid
  if report.requiresReview = true then
    throw (.policyViolation "a recipe can only remember a review-free validated plan")
  transaction do
    let rows ← get
    let sourceStructural := sourceSchema.structuralFingerprint H
    let targetStructural := targetSchema.structuralFingerprint H
    let recipe : Recipe := {
      id := recipeId
      version := latestVersion sourceStructural targetStructural rows + 1
      sourceStructuralFingerprint := sourceStructural
      targetStructuralFingerprint := targetStructural
      plan := plan
      approvedBy := approvedBy
      createdAt := now }
    let rows ← insertRow {
      id := recipe.id
      version := recipe.version
      sourceStructuralFingerprint := sourceStructural
      targetStructuralFingerprint := targetStructural
      planJson := asciiCompact.text (sortKeys (planToDict H plan))
      planDigest := plan.digest H
      approvedBy := approvedBy
      createdAt := now.isoformat } rows
    set rows
    return recipe

end RecipeStore

/-! ## Clean reports -/

/-- A report that neither blocks nor asks for a review. -/
def PlanValidationReport.Clean (r : PlanValidationReport) : Prop :=
  ∀ f ∈ r.findings, f.severity ≠ .blocking ∧ f.severity ≠ .review

theorem clean_iff {r : PlanValidationReport} :
    r.Clean ↔ r.valid = true ∧ r.requiresReview = false := by
  unfold PlanValidationReport.Clean PlanValidationReport.valid PlanValidationReport.requiresReview
  rw [Bool.not_eq_true', List.any_eq_false, List.any_eq_false]
  simp only [decide_eq_true_eq]
  exact forall₂_and

namespace PlanValidator

variable {H : Host} {plan : MappingPlan} {sourceSchema targetSchema : SchemaDescriptor}

/-- The findings about the schemas of a plan are findings of its validation. -/
theorem bindingFindings_subset {f : ValidationFinding}
    (h : f ∈ bindingFindings H plan sourceSchema targetSchema) :
    f ∈ (validate H plan sourceSchema targetSchema).findings :=
  List.mem_append_left _ (checkRules_findings h)

/-- A plan with a clean report is bound to the schemas it was validated against. -/
theorem bound_of_clean (h : (validate H plan sourceSchema targetSchema).Clean) :
    plan.sourceSchemaId = sourceSchema.id ∧ plan.targetSchemaId = targetSchema.id ∧
      plan.sourceFingerprint = sourceSchema.fingerprint H ∧
      plan.targetFingerprint = targetSchema.fingerprint H := by
  have hnone : ∀ f ∈ bindingFindings H plan sourceSchema targetSchema, f.severity ≠ .blocking :=
    fun f hf => (h f (bindingFindings_subset hf)).1
  -- Each of the four findings would be blocking.
  simp only [bindingFindings, findingIf, List.mem_append] at hnone
  refine ⟨?_, ?_, ?_, ?_⟩
  · by_contra hne
    exact hnone _ (.inl (.inl (.inl (by simp [hne]; rfl)))) rfl
  · by_contra hne
    exact hnone _ (.inl (.inl (.inr (by simp [hne]; rfl)))) rfl
  · by_contra hne
    exact hnone _ (.inl (.inr (by simp [hne]; rfl))) rfl
  · by_contra hne
    exact hnone _ (.inr (by simp [hne]; rfl)) rfl

/-! ## Findings are a matter of structure -/

section Structure

variable {source' target' : SchemaDescriptor} {rule : MappingRule}

theorem contractFindings_congr (h : targetSchema.relations = target'.relations)
    (source target : FieldDescriptor) :
    contractFindings rule source target targetSchema =
      contractFindings rule source target target' := by
  have hkey : ruleLookupKey rule target targetSchema = ruleLookupKey rule target target' := by
    simp only [ruleLookupKey, SchemaDescriptor.relationForSourceField, h]
  unfold contractFindings
  rw [hkey]

theorem routeFindings_congr (h : targetSchema.relations = target'.relations)
    (source target : FieldDescriptor) :
    routeFindings rule source target targetSchema = routeFindings rule source target target' := by
  unfold routeFindings
  rw [contractFindings_congr h]

/-- A rule is checked against the fields and the relations only. -/
theorem checkRule_congr (hsource : sourceSchema.SameStructure source')
    (htarget : targetSchema.SameStructure target') :
    checkRule sourceSchema targetSchema = checkRule source' target' := by
  funext state rule
  unfold checkRule
  simp only [SchemaDescriptor.fieldById?, hsource.1, htarget.1, routeFindings_congr htarget.2]

theorem boundFindings_congr (rules : List MappingRule)
    (hsource : sourceSchema.SameStructure source')
    (htarget : targetSchema.SameStructure target') :
    boundFindings rules sourceSchema targetSchema = boundFindings rules source' target' := by
  unfold boundFindings missingFindings
  rw [checkRule_congr hsource htarget, htarget.1]

end Structure

end PlanValidator

/-! ## What is remembered -/

namespace RecipeStore

variable {H : Host} {recipeId approvedBy : String} {now : Instant} {plan : MappingPlan}
  {sourceSchema targetSchema : SchemaDescriptor} {rows rows' : List RecipeRow} {recipe : Recipe}

/-- A recipe has a clean report, its own structures and a version of at least one. -/
theorem remember_eq_ok
    (h : remember H recipeId now plan sourceSchema targetSchema approvedBy rows = .ok recipe rows') :
    (PlanValidator.validate H plan sourceSchema targetSchema).Clean ∧ recipe.plan = plan ∧
      recipe.sourceStructuralFingerprint = sourceSchema.structuralFingerprint H ∧
      recipe.targetStructuralFingerprint = targetSchema.structuralFingerprint H ∧
      1 ≤ recipe.version := by
  unfold remember at h
  obtain ⟨_, hraise, h⟩ := lift_bind_eq_ok.1 h
  obtain ⟨hreview, h⟩ := of_guard_eq_ok h
  rw [Bool.not_eq_true] at hreview
  refine ⟨clean_iff.2 ⟨valid_of_raiseIfInvalid hraise, hreview⟩, ?_⟩
  obtain ⟨stored, s₁, -, h⟩ := bind_eq_ok_iff.1 (transaction_eq_ok_iff.1 h)
  obtain ⟨inserted, -, h⟩ := lift_bind_eq_ok.1 h
  obtain ⟨_, s₂, -, h⟩ := bind_eq_ok_iff.1 h
  obtain ⟨rfl, -⟩ := pure_eq_ok_iff.1 h
  exact ⟨rfl, rfl, rfl, Nat.le_add_left 1 _⟩

/-- A clean plan under a new id is remembered. -/
theorem remember_of_clean (hclean : (PlanValidator.validate H plan sourceSchema targetSchema).Clean)
    (hrows : rows = []) :
    ∃ recipe rows', remember H recipeId now plan sourceSchema targetSchema approvedBy rows =
      .ok recipe rows' := by
  obtain ⟨hvalid, hreview⟩ := clean_iff.1 hclean
  subst hrows
  unfold remember
  rw [lift_ok_bind (raiseIfInvalid_of_valid hvalid)]
  simp only [hreview, Bool.false_eq_true, if_false]
  exact ⟨_, _, rfl⟩

end RecipeStore

/-! ## Rebinding -/

/-- The plan is bound to the ids and the exact fingerprints of two schemas. -/
structure MappingPlan.BoundTo (H : Host) (plan : MappingPlan)
    (sourceSchema targetSchema : SchemaDescriptor) : Prop where
  sourceId : plan.sourceSchemaId = sourceSchema.id
  targetId : plan.targetSchemaId = targetSchema.id
  source : plan.sourceFingerprint = sourceSchema.fingerprint H
  target : plan.targetFingerprint = targetSchema.fingerprint H

namespace Recipe

variable {H : Host} {recipe : Recipe} {planId : String} {now : Instant}
  {sourceSchema targetSchema : SchemaDescriptor}

/-- Current schemas with the recipe's structures and clean rules give a plan bound to them. -/
theorem rebind_of_structure
    (hsource : sourceSchema.structuralFingerprint H = recipe.sourceStructuralFingerprint)
    (htarget : targetSchema.structuralFingerprint H = recipe.targetStructuralFingerprint)
    (hids : planId ≠ "" ∧ sourceSchema.id ≠ "" ∧ targetSchema.id ≠ "")
    (hversion : 1 ≤ recipe.version)
    (hclean : (boundFindings recipe.plan.rules sourceSchema targetSchema).Clean) :
    ∃ rebound, recipe.rebind H planId now sourceSchema targetSchema = .ok rebound ∧
      rebound.BoundTo H sourceSchema targetSchema ∧ rebound.rules = recipe.plan.rules ∧
      (PlanValidator.validate H rebound sourceSchema targetSchema).Clean := by
  let rebound : MappingPlan := {
    id := planId
    sourceSchemaId := sourceSchema.id
    targetSchemaId := targetSchema.id
    sourceFingerprint := sourceSchema.fingerprint H
    targetFingerprint := targetSchema.fingerprint H
    rules := recipe.plan.rules
    version := recipe.version
    createdAt := now }
  have hbound : PlanValidator.validate H rebound sourceSchema targetSchema =
      boundFindings recipe.plan.rules sourceSchema targetSchema :=
    validate_bound rfl rfl rfl rfl
  have hcheck : rebound.check = .ok rebound := by
    unfold MappingPlan.check
    rw [if_neg (by simpa [rebound] using hids), if_neg (Nat.not_lt.2 hversion)]
  obtain ⟨hvalid, hreview⟩ := clean_iff.1 hclean
  refine ⟨rebound, ?_, ⟨rfl, rfl, rfl, rfl⟩, rfl, ?_⟩
  · unfold rebind
    rw [if_neg (not_not.2 hsource), if_neg (not_not.2 htarget)]
    change (rebound.check >>= _) = _
    rw [hcheck, ok_bind, hbound]
    dsimp only
    rw [raiseIfInvalid_of_valid hvalid, ok_bind, hreview]
    rfl
  · rw [hbound]
    exact hclean

/-- Schemas of another structure are refused. -/
theorem rebind_of_drift
    (h : ¬(sourceSchema.structuralFingerprint H = recipe.sourceStructuralFingerprint ∧
      targetSchema.structuralFingerprint H = recipe.targetStructuralFingerprint)) :
    ∃ message, recipe.rebind H planId now sourceSchema targetSchema =
      .error (.integrityError message) := by
  unfold rebind
  by_cases hsource : sourceSchema.structuralFingerprint H = recipe.sourceStructuralFingerprint
  · have htarget := fun htarget => h ⟨hsource, htarget⟩
    rw [if_neg (not_not.2 hsource), if_pos htarget]
    exact ⟨_, rfl⟩
  · rw [if_pos hsource]
    exact ⟨_, rfl⟩

/-- The time of the sample. -/
def remembered : Instant := ⟨⟨2026, 1, 1, 0, 0, 0, 0⟩, Utc.valid_newYear2026⟩

/-- A schema with one text field, under an id and with metadata. -/
def nameSchema (id : String) (metadata : List (String × String)) : SchemaDescriptor where
  id := id
  fields := [{ id := "name", name := "Name", dataType := .string }]
  metadata := metadata

/-- The plan that copies the field. -/
noncomputable def namePlan : MappingPlan where
  id := "plan"
  sourceSchemaId := "crm"
  targetSchemaId := "erp"
  sourceFingerprint := (nameSchema "crm" []).fingerprint standardHost
  targetFingerprint := (nameSchema "erp" []).fingerprint standardHost
  rules := [{ sourceFieldId := "name", targetFieldId := "name" }]
  createdAt := remembered

theorem namePlan_clean :
    (PlanValidator.validate standardHost namePlan (nameSchema "crm" [])
      (nameSchema "erp" [])).Clean := by
  rw [validate_bound rfl rfl rfl rfl]
  have hnone : (boundFindings namePlan.rules (nameSchema "crm" []) (nameSchema "erp" [])).findings =
      [] := by
    decide
  intro f hf
  rw [hnone] at hf
  cases hf

end Recipe

end Polymorph
