import Polymorph.Planning.Validation

/-!
# Preflight

The read-only scan of a plan over source records: the plan's own findings first, then the shape,
the required values, the transforms and the lookups of every record, under a sample size and an
input limit.
-/

set_option autoImplicit false

namespace Polymorph

/-- A record that a source yields. -/
abbrev SourceRecord := List (String × PyValue)

/-- An iteration over a source: the records it yields, and the exception it then raises, if any. -/
structure RecordStream where
  records : List SourceRecord
  failure : Option Exn := none

/-- `resolve_foreign_key` of a destination; the number is that of the record being scanned, so that
the answers may change from call to call. -/
abbrev ForeignKeyResolver := Nat → String → String → PyValue → Except Exn PyValue

/-- How severe a finding of a scan is. -/
inductive PreflightSeverity where
  | info
  | review
  | blocking
deriving DecidableEq, Repr

/-- A finding of a scan. -/
structure PreflightFinding where
  severity : PreflightSeverity
  code : String
  message : String
  recordIndex : Option Nat := none
  sourceFieldId : Option String := none
  targetFieldId : Option String := none
deriving DecidableEq

/-- The report of a preflight. -/
structure PreflightReport where
  planDigest : String
  recordsChecked : Nat
  completeScan : Bool
  planValidation : PlanValidationReport
  findings : List PreflightFinding
  destinationLookupsChecked : Nat := 0
  maxInputRecords : Option Int := none
  inputRecordLimitExceeded : Bool := false

namespace PreflightReport

/-- `valid` -/
def valid (r : PreflightReport) : Bool :=
  r.planValidation.valid && !r.findings.any fun item => item.severity = .blocking

/-- `requires_review` -/
def requiresReview (r : PreflightReport) : Bool :=
  r.planValidation.requiresReview || r.findings.any fun item => item.severity = .review

/-- `promotable` -/
def promotable (r : PreflightReport) : Bool :=
  r.valid && !r.requiresReview && r.completeScan && 0 < r.recordsChecked

end PreflightReport

/-- `except (PolymorphError, ValueError, TypeError, OverflowError)` -/
def Exn.isTransformFailure : Exn → Bool
  | .keyError _ => false
  | .recursionError => false
  | .other _ => false
  | _ => true

namespace Preflight

variable (H : Host)

/-- What a scan accumulates. -/
structure ScanState where
  checked : Nat := 0
  lookupChecks : Nat := 0
  findings : List PreflightFinding := []

/-- The outcome of one rule on one record: findings and counted lookups, or an exception. -/
abbrev RuleOutcome := Except Exn (List PreflightFinding × Nat)

/-- A source rule applied to a value. -/
def checkSourceRule (rule : MappingRule) (target : FieldDescriptor) (index : Nat) (value : PyValue) :
    RuleOutcome :=
  let finding (code message : String) : List PreflightFinding :=
    [⟨.blocking, code, message, some index, some rule.sourceFieldId, some target.id⟩]
  match applyTransform H rule.transform value rule.parameters with
  | .error e =>
      if e.isTransformFailure then
        .ok (finding "source_transform_failed" "source transform rejected a record", 0)
      else .error e
  | .ok .none =>
      if target.nullable then .ok ([], 0)
      else .ok (finding "required_target_null"
        "source transform produced null for a non-nullable target", 0)
  | .ok transformed =>
      if valueSatisfiesType transformed target.dataType then .ok ([], 0)
      else .ok (finding "transformed_type_mismatch"
        "transformed value does not satisfy target type contract", 0)

/-- A lookup rule applied to a value. -/
def checkLookupRule (resolver : Option ForeignKeyResolver) (targetSchema : SchemaDescriptor)
    (rule : MappingRule) (target : FieldDescriptor) (index : Nat) (value : PyValue) : RuleOutcome :=
  let finding (severity : PreflightSeverity) (code message : String) : List PreflightFinding :=
    [⟨severity, code, message, some index, some rule.sourceFieldId, some target.id⟩]
  match resolver with
  | none => .ok (finding .review "foreign_key_lookup_not_exercised"
      "foreign-key lookup requires a read-only destination probe", 0)
  | some resolve =>
      match rule.parameter "match_column", PlanValidator.ruleLookupKey rule target targetSchema with
      | some matchColumn, some lookupKey =>
          if !valueSatisfiesType value lookupKey.dataType then
            .ok (finding .blocking "foreign_key_lookup_input_type_mismatch"
              "foreign-key input does not satisfy the lookup-column type", 0)
          else
            match resolve index target.id matchColumn value with
            | .error _ => .ok (finding .blocking "foreign_key_lookup_failed"
                "read-only foreign-key resolution failed", 0)
            | .ok .none => .ok (finding .blocking "foreign_key_resolved_null"
                "non-null foreign-key lookup input did not resolve", 1)
            | .ok resolved =>
                if valueSatisfiesType resolved target.dataType then .ok ([], 1)
                else .ok (finding .blocking "foreign_key_resolved_type_mismatch"
                  "foreign-key resolution returned an invalid target type", 1)
      | _, _ => .ok (finding .blocking "foreign_key_lookup_invalid"
          "foreign-key rule does not declare its unique match column", 0)

/-- One rule on one record. -/
def checkRule (resolver : Option ForeignKeyResolver) (sourceSchema targetSchema : SchemaDescriptor)
    (index : Nat) (record : SourceRecord) (rule : MappingRule) : RuleOutcome := do
  let source ← sourceSchema.fieldById rule.sourceFieldId
  let target ← targetSchema.fieldById rule.targetFieldId
  let finding (code message : String) : List PreflightFinding :=
    [⟨.blocking, code, message, some index, some source.id, some target.id⟩]
  match JsonText.dictGet source.id record with
  | none =>
      if !source.nullable then
        return (finding "required_source_missing" "required source field is absent in a record", 0)
      else if !target.nullable then
        return (finding "required_target_null"
          "mapping would produce null for a non-nullable target", 0)
      else return ([], 0)
  | some .none =>
      if !target.nullable then
        return (finding "required_target_null"
          "mapping would produce null for a non-nullable target", 0)
      else return ([], 0)
  | some value =>
      -- Sealed values are not inspected.
      if source.sensitivity.isSealed then return ([], 0)
      let stage ← transformStage rule.transform
      if stage = .source then checkSourceRule H rule target index value
      else if rule.transform = "lookup_foreign_key" then
        checkLookupRule resolver targetSchema rule target index value
      else return ([], 0)

/-- The rules on one record, in order, up to one that raises. -/
def checkRules (resolver : Option ForeignKeyResolver) (sourceSchema targetSchema : SchemaDescriptor)
    (index : Nat) (record : SourceRecord) :
    List MappingRule → ScanState → ScanState × Option Exn
  | [], state => (state, none)
  | rule :: rest, state =>
      match checkRule H resolver sourceSchema targetSchema index record rule with
      | .error e => (state, some e)
      | .ok (findings, lookups) =>
          checkRules resolver sourceSchema targetSchema index record rest
            { state with
              lookupChecks := state.lookupChecks + lookups
              findings := state.findings ++ findings }

/-- One record: its shape, then its rules. -/
def checkRecord (resolver : Option ForeignKeyResolver) (sourceSchema targetSchema : SchemaDescriptor)
    (rules : List MappingRule) (record : SourceRecord) (state : ScanState) :
    ScanState × Option Exn :=
  let index := state.checked + 1
  let unknown := record.any fun entry => (sourceSchema.fieldById? entry.1).isNone
  let findings : List PreflightFinding :=
    if unknown then
      [⟨.blocking, "record_schema_mismatch",
        "record contains fields absent from the inspected source schema", some index, none, none⟩]
    else []
  checkRules H resolver sourceSchema targetSchema index record rules
    { state with checked := index, findings := state.findings ++ findings }

/-- The end of a scan: the records were read to their end, more input was left, or reading
raised. -/
inductive ScanEnd where
  | complete
  | sampled
  | exceeded (recordIndex : Nat)
  | failed
deriving DecidableEq

/-- After a sample: whether the rest of the stream stays within the input limit `limit`, of which
`seen` records, the one just read included, are used. -/
def scanRemainder (stream : RecordStream) (limit seen : Nat) : ScanEnd :=
  if limit - seen < stream.records.length then .exceeded (limit + 1)
  else if stream.failure.isSome then .failed
  else .sampled

/-- The loop over the stream. -/
def scan (resolver : Option ForeignKeyResolver) (sourceSchema targetSchema : SchemaDescriptor)
    (rules : List MappingRule) (maxRecords maxInputRecords : Option Nat) (failure : Option Exn) :
    List SourceRecord → ScanState → ScanState × ScanEnd
  | records, state =>
      if maxInputRecords.any fun limit => limit ≤ state.checked then
        match records, failure with
        | _ :: _, _ => (state, .exceeded (state.checked + 1))
        | [], some _ => (state, .failed)
        | [], none => (state, .complete)
      else if maxRecords.any fun sample => sample ≤ state.checked then
        match records, failure with
        | _ :: rest, _ =>
            match maxInputRecords with
            | none => (state, .sampled)
            | some limit => (state, scanRemainder ⟨rest, failure⟩ limit (state.checked + 1))
        | [], some _ => (state, .failed)
        | [], none => (state, .complete)
      else
        match records with
        | [] => (state, if failure.isSome then .failed else .complete)
        | record :: rest =>
            match checkRecord H resolver sourceSchema targetSchema rules record state with
            | (state, some _) => (state, .failed)
            | (state, none) =>
                scan resolver sourceSchema targetSchema rules maxRecords maxInputRecords failure
                  rest state

/-- The findings that the end of a scan adds. -/
def endFindings : ScanEnd → List PreflightFinding
  | .exceeded index =>
      [⟨.blocking, "input_record_limit_exceeded",
        "source exceeds the configured input record blast-radius limit", some index, none, none⟩]
  | .failed =>
      [⟨.blocking, "source_iteration_failed",
        "source failed while the preflight scan was reading records", none, none, none⟩]
  | _ => []

/-- A record limit that is given is a positive integer. -/
def checkLimit (message : String) : Option Int → Except Exn (Option Nat)
  | none => .ok none
  | some n => if n < 1 then .error (.valueError message) else .ok (some n.toNat)

/-- `PreflightRunner.run` -/
def run (stream : RecordStream) (sourceSchema targetSchema : SchemaDescriptor) (plan : MappingPlan)
    (maxRecords maxInputRecords : Option Int) (resolver : Option ForeignKeyResolver) :
    Except Exn PreflightReport := do
  let sample ← checkLimit "preflight sample size must be a positive integer" maxRecords
  let limit ← checkLimit "preflight input record limit must be a positive integer" maxInputRecords
  let planReport := PlanValidator.validate H plan sourceSchema targetSchema
  if !planReport.valid then
    return {
      planDigest := plan.digest H, recordsChecked := 0, completeScan := false
      planValidation := planReport, findings := [], maxInputRecords := maxInputRecords }
  else
    let formula : List PreflightFinding :=
      if JsonText.dictGet "formula_cells_present" sourceSchema.metadata = some "true" then
        [⟨.review, "spreadsheet_formula_cache",
          "source worksheet contains formulas; values are workbook-provided cached " ++
            "results and freshness cannot be proven by the parser", none, none, none⟩]
      else []
    let (state, scanEnd) := scan H resolver sourceSchema targetSchema plan.rules sample limit
      stream.failure stream.records { findings := formula }
    let complete := scanEnd = .complete
    let exceeded : Bool := match scanEnd with
      | .exceeded _ => true
      | _ => false
    let empty : List PreflightFinding :=
      if state.checked = 0 then
        [⟨.review, "empty_source", "preflight did not observe any records", none, none, none⟩]
      else []
    let sampled : List PreflightFinding :=
      if !complete && !exceeded then
        [⟨.info, "sampled_scan",
          "preflight used a bounded sample and cannot auto-promote a recipe", none, none, none⟩]
      else []
    return {
      planDigest := plan.digest H
      recordsChecked := state.checked
      completeScan := complete
      planValidation := planReport
      findings := state.findings ++ endFindings scanEnd ++ empty ++ sampled
      destinationLookupsChecked := state.lookupChecks
      maxInputRecords := maxInputRecords
      inputRecordLimitExceeded := exceeded }

end Preflight

end Polymorph
