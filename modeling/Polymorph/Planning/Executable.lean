import Polymorph.Matching.ModelAuthority
import Polymorph.Planning.Validation

/-!
# Automatic proposals are executable

A pair with a safe contract has an allowed route, and its rule draws no finding. A proposal names
each target automatically at most once, so the plan of its automatic decisions builds, and its
validation reports unmapped required targets only.
-/

set_option autoImplicit false

namespace Polymorph

open Utc

variable {S : Type} [ScoreArith S] {T : TextHost} {source target : FieldDescriptor}
  {sourceSchema targetSchema : SchemaDescriptor}

/-! ## The rule of a safe pair -/

/-- Which rule a decision calls for. -/
inductive RuleCase (S : Type) [ScoreArith S] (T : TextHost) (source target : FieldDescriptor)
    (targetSchema : SchemaDescriptor) : MappingRule → Prop where
  | forward : source.sensitivity.isSealed = true →
      RuleCase S T source target targetSchema ⟨source.id, target.id, "opaque_forward", []⟩
  | lookup {name : String} : source.sensitivity.isSealed = false →
      foreignKeyLookupKey S T source target targetSchema = some name →
      RuleCase S T source target targetSchema
        ⟨source.id, target.id, "lookup_foreign_key", [("match_column", name)]⟩
  | integer : source.sensitivity.isSealed = false →
      foreignKeyLookupKey S T source target targetSchema = none →
      RuleCase S T source target targetSchema ⟨source.id, target.id, "parse_integer", []⟩
  | copy : source.sensitivity.isSealed = false →
      foreignKeyLookupKey S T source target targetSchema = none →
      RuleCase S T source target targetSchema ⟨source.id, target.id, "copy", []⟩

theorem mappingRule_cases :
    RuleCase S T source target targetSchema (mappingRule S T source target targetSchema false) := by
  unfold mappingRule ruleLookupName
  cases hsealed : source.sensitivity.isSealed with
  | true => exact .forward hsealed
  | false =>
      cases hlookup : foreignKeyLookupKey S T source target targetSchema with
      | some name => exact .lookup hsealed hlookup
      | none =>
          simp only [Bool.false_eq_true, if_false]
          split
          · exact .integer hsealed hlookup
          · exact .copy hsealed hlookup

/-- A route between equal classifications is allowed when sealed values are forwarded. -/
theorem validateRoute_of_equal {transform : String}
    (hequal : source.sensitivity = target.sensitivity)
    (hsealed : source.sensitivity.isSealed = true → transform = "opaque_forward") :
    validateRoute source target transform = .ok () := by
  unfold validateRoute fieldPolicy FieldPolicy.forSensitivity
  rw [← hequal]
  revert hsealed
  cases source.sensitivity with
  | secret =>
      intro hsealed
      rw [hsealed rfl]
      rfl
  | opaqueData =>
      intro hsealed
      rw [hsealed rfl]
      rfl
  | publicData => simp [sensitivityRouteSafe, Sensitivity.isSealed]
  | internal => simp [sensitivityRouteSafe, Sensitivity.isSealed]
  | personal => simp [sensitivityRouteSafe, Sensitivity.isSealed]
  | confidential => simp [sensitivityRouteSafe, Sensitivity.isSealed]

/-- Without a lookup, a safe contract is a type-safe copy. -/
theorem copySafe_of_contract
    (hsafe : automaticMappingContractSafe S T source target targetSchema = true)
    (hlookup : foreignKeyLookupKey S T source target targetSchema = none) :
    source.dataType ≠ .unknown ∧
      runtimeTypeSatisfies source.dataType target.dataType = true := by
  rcases (automaticMappingContractSafe_iff.1 hsafe).2.2 with h | h
  · rw [hlookup] at h
    cases h
  · simpa [automaticCopyTypeSafe] using h.1

section Safe

variable {rule : MappingRule} (hcase : RuleCase S T source target targetSchema rule)
  (hsafe : automaticMappingContractSafe S T source target targetSchema = true)

include hcase hsafe

theorem RuleCase.validateRoute : validateRoute source target rule.transform = .ok () := by
  refine validateRoute_of_equal (automaticMappingContractSafe_iff.1 hsafe).1 ?_
  intro hsealed
  cases hcase with
  | forward => rfl
  | lookup hopen _ => exact absurd hsealed (by rw [hopen]; nofun)
  | integer hopen _ => exact absurd hsealed (by rw [hopen]; nofun)
  | copy hopen _ => exact absurd hsealed (by rw [hopen]; nofun)

/-- The rule of a safe pair draws no finding about its contract. -/
theorem RuleCase.contractFindings :
    PlanValidator.contractFindings rule source target targetSchema = [] := by
  unfold PlanValidator.contractFindings
  have hcopy := copySafe_of_contract hsafe
  cases hcase with
  | forward hsealed =>
      have hnone : foreignKeyLookupKey S T source target targetSchema = none := by
        unfold foreignKeyLookupKey foreignKeyLookupKeyWith
        rw [if_pos hsealed]
      obtain ⟨hknown, htype⟩ := hcopy hnone
      simp [isForwarding, PlanValidator.findingIf, hknown, htype]
  | integer _ _ => rfl
  | copy _ hnone =>
      obtain ⟨hknown, htype⟩ := hcopy hnone
      simp [isForwarding, PlanValidator.findingIf, hknown, htype]
  | lookup _ hlookup =>
      obtain ⟨-, hsource, htarget, relation, key, hrelation, hkey, rfl, htype⟩ :=
        foreignKeyLookupKeyWith_eq_some hlookup
      have hfound : PlanValidator.ruleLookupKey
          ⟨source.id, target.id, "lookup_foreign_key", [("match_column", key.name)]⟩ target
          targetSchema = some key := by
        unfold PlanValidator.ruleLookupKey
        rw [hrelation]
        exact RelationDescriptor.lookupKey_name hkey
      obtain ⟨⟨hknown, hkeyKnown⟩, hcopySafe⟩ :
          (source.dataType ≠ .unknown ∧ key.dataType ≠ .unknown) ∧
            automaticCopyTypeSafe source.dataType key.dataType = true := by
        simpa [lookupTypeAccepted] using htype
      simp [isForwarding, PlanValidator.findingIf, hfound, hsource, htarget, hknown, hkeyKnown,
        hcopySafe]

/-- The rule of a safe pair draws no finding. -/
theorem RuleCase.routeFindings :
    PlanValidator.routeFindings rule source target targetSchema = [] := by
  unfold PlanValidator.routeFindings
  have hknown : isKnownTransform rule.transform = true := by
    cases hcase with
    | forward => rfl
    | lookup => rfl
    | integer => rfl
    | copy => rfl
  have hnullable : (source.nullable && !target.nullable) = false := by
    have h := (automaticMappingContractSafe_iff.1 hsafe).2.1
    cases hsource : source.nullable with
    | true => rw [h hsource]; rfl
    | false => rfl
  rw [hcase.validateRoute hsafe, hcase.contractFindings hsafe, hknown, hnullable]
  rfl

end Safe

/-! ## The plan of a proposal -/

open HybridMatcher

/-- The rule of a safe pair of fields. -/
def SafeRule (S : Type) [ScoreArith S] (T : TextHost) (sourceSchema targetSchema : SchemaDescriptor)
    (rule : MappingRule) : Prop :=
  ∃ source ∈ sourceSchema.fields, ∃ target ∈ targetSchema.fields,
    rule.sourceFieldId = source.id ∧ rule.targetFieldId = target.id ∧
      automaticMappingContractSafe S T source target targetSchema = true ∧
      RuleCase S T source target targetSchema rule

/-- The rule of an automatic decision for a safe pair. -/
theorem pairRule_of_safe {d : MappingDecision S} (hstatus : d.status = .auto)
    (hsource : source ∈ sourceSchema.fields) (htarget : target ∈ targetSchema.fields)
    (hsourceId : d.sourceFieldId = source.id)
    (hsafe : automaticMappingContractSafe S T source target targetSchema = true) :
    pairRule T sourceSchema targetSchema d target.id =
      .ok (mappingRule S T source target targetSchema false) := by
  unfold pairRule
  rw [hsourceId, fieldById_of_mem hsource, fieldById_of_mem htarget]
  show (if d.status = .auto && !automaticMappingContractSafe S T source target targetSchema then _
    else _) = _
  rw [hstatus, hsafe, if_neg (by simp)]
  show (do validateRoute source target (mappingRule S T source target targetSchema false).transform
           return mappingRule S T source target targetSchema false) = _
  rw [mappingRule_cases.validateRoute hsafe]
  rfl

/-- Without reviews, the rule of a sound decision is the safe rule of an automatic one. -/
theorem decisionRule_of_sound {d : MappingDecision S}
    (htarget : d.targetFieldId = none ↔ d.status = .blocked)
    (hcontract : d.status = .auto → ∃ source ∈ sourceSchema.fields,
      ∃ target ∈ targetSchema.fields, d.sourceFieldId = source.id ∧
        d.targetFieldId = some target.id ∧
        automaticMappingContractSafe S T source target targetSchema = true) :
    ∃ r, decisionRule T sourceSchema targetSchema false d = .ok r ∧
      (∀ rule, r = some rule → SafeRule S T sourceSchema targetSchema rule) ∧
      r.map MappingRule.targetFieldId = if d.status = .auto then d.targetFieldId else none := by
  unfold decisionRule
  cases hstatus : d.status with
  | blocked =>
      rw [htarget.2 hstatus]
      exact ⟨none, rfl, nofun, rfl⟩
  | review =>
      cases hid : d.targetFieldId with
      | none => exact ⟨none, rfl, nofun, rfl⟩
      | some id => exact ⟨none, rfl, nofun, rfl⟩
  | auto =>
      obtain ⟨source, hsource, target, htarget, hsourceId, htargetId, hsafe⟩ := hcontract hstatus
      obtain ⟨hruleSource, hruleTarget⟩ := (@mappingRule_fields S _ T source target targetSchema)
          false
      rw [htargetId]
      refine ⟨some (mappingRule S T source target targetSchema false), ?_, ?_, ?_⟩
      · dsimp only
        rw [pairRule_of_safe hstatus hsource htarget hsourceId hsafe]
        rfl
      · rintro rule ⟨rfl⟩
        exact ⟨source, hsource, target, htarget, hruleSource, hruleTarget, hsafe,
          mappingRule_cases⟩
      · rw [if_pos rfl]
        exact congrArg some hruleTarget

/-- The rules of sound decisions are safe, and each target is written as often as it is named by an
automatic decision. -/
theorem decisionRules_of_sound {ds : List (MappingDecision S)}
    (htargets : ∀ d ∈ ds, d.targetFieldId = none ↔ d.status = .blocked)
    (hcontracts : ∀ d ∈ ds, d.status = .auto → ∃ source ∈ sourceSchema.fields,
      ∃ target ∈ targetSchema.fields, d.sourceFieldId = source.id ∧
        d.targetFieldId = some target.id ∧
        automaticMappingContractSafe S T source target targetSchema = true) :
    ∃ rs, ds.mapM (decisionRule T sourceSchema targetSchema false) = .ok rs ∧
      (∀ rule ∈ rs.filterMap id, SafeRule S T sourceSchema targetSchema rule) ∧
      ∀ t, ((rs.filterMap id).map MappingRule.targetFieldId).count t =
        ds.countP fun d => d.status = .auto ∧ d.targetFieldId = some t := by
  induction ds with
  | nil => exact ⟨[], rfl, nofun, fun _ => rfl⟩
  | cons d ds ih =>
      obtain ⟨rs, hrs, hsafe, hcount⟩ := ih
        (fun d hd => htargets d (List.mem_cons_of_mem _ hd))
        (fun d hd => hcontracts d (List.mem_cons_of_mem _ hd))
      obtain ⟨r, hr, hrule, htarget⟩ := decisionRule_of_sound
        (htargets d List.mem_cons_self) (hcontracts d List.mem_cons_self)
      refine ⟨r :: rs, ?_, ?_, ?_⟩
      · rw [List.mapM_cons, hr, hrs]
        rfl
      · intro rule hmem
        cases r with
        | none => exact hsafe rule hmem
        | some first =>
            rcases List.mem_cons.1 hmem with rfl | hmem
            · exact hrule _ rfl
            · exact hsafe rule hmem
      · intro t
        rw [List.countP_cons, ← hcount t]
        cases r with
        | none =>
            have hskip : ¬(d.status = .auto ∧ d.targetFieldId = some t) := by
              rintro ⟨hauto, hid⟩
              rw [if_pos hauto, hid] at htarget
              cases htarget
            simp [hskip]
        | some first =>
            have hfirst : d.status = .auto ∧ d.targetFieldId = some first.targetFieldId := by
              split at htarget
              · rename_i hauto
                exact ⟨hauto, htarget.symm⟩
              · cases htarget
            simp [hfirst, List.count_cons]

/-- The plan of a proposal: its rules are safe, and no two of them share a target. -/
theorem buildPlan_of_proposal {ds : List (MappingDecision S)} (planId : String) (now : Instant)
    (h : ProposalSound T sourceSchema targetSchema ds) :
    ∃ rules, buildPlan T planId now sourceSchema targetSchema ds false = .ok {
        id := planId, sourceSchemaId := sourceSchema.id, targetSchemaId := targetSchema.id,
        sourceFingerprint := sourceSchema.fingerprint T.toHost,
        targetFingerprint := targetSchema.fingerprint T.toHost, rules := rules, createdAt := now } ∧
      (∀ rule ∈ rules, SafeRule S T sourceSchema targetSchema rule) ∧
      (rules.map MappingRule.targetFieldId).Nodup := by
  obtain ⟨rs, hrs, hsafe, hcount⟩ := decisionRules_of_sound h.targets h.contracts
  refine ⟨rs.filterMap id, ?_, hsafe, ?_⟩
  · unfold buildPlan
    rw [hrs]
    rfl
  · refine List.nodup_iff_count_le_one.2 fun t => ?_
    rw [hcount t]
    exact h.unique t

/-! ## Its validation -/

/-- Safe rules for targets that are not written yet draw no finding. -/
theorem checkRules_of_safe {rules : List MappingRule} {targeted : List String}
    {findings : List ValidationFinding}
    (hsafe : ∀ rule ∈ rules, SafeRule S T sourceSchema targetSchema rule)
    (hnodup : (rules.map MappingRule.targetFieldId).Nodup)
    (hfresh : ∀ rule ∈ rules, rule.targetFieldId ∉ targeted) :
    (rules.foldl (PlanValidator.checkRule sourceSchema targetSchema) (targeted, findings)).2 =
      findings := by
  induction rules generalizing targeted with
  | nil => rfl
  | cons rule rules ih =>
      obtain ⟨source, hsource, target, htarget, hsourceId, htargetId, hcontract, hcase⟩ :=
        hsafe rule List.mem_cons_self
      rw [List.map_cons, List.nodup_cons] at hnodup
      have hstep : PlanValidator.checkRule sourceSchema targetSchema (targeted, findings) rule =
          (target.id :: targeted, findings) := by
        have hnew : target.id ∉ targeted := htargetId ▸ hfresh rule List.mem_cons_self
        unfold PlanValidator.checkRule
        rw [hsourceId, htargetId, SchemaDescriptor.fieldById?_of_mem hsource,
          SchemaDescriptor.fieldById?_of_mem htarget]
        dsimp only
        rw [if_neg hnew, hcase.routeFindings hcontract, List.append_nil]
      rw [List.foldl_cons, hstep]
      refine ih (fun r hr => hsafe r (List.mem_cons_of_mem _ hr)) hnodup.2 ?_
      intro r hr hmem
      rcases List.mem_cons.1 hmem with hsame | hmem
      · exact hnodup.1 (htargetId ▸ hsame ▸ List.mem_map.2 ⟨r, hr, rfl⟩)
      · exact hfresh r (List.mem_cons_of_mem _ hr) hmem

end Polymorph
