import Polymorph.Planning.Preflight
import Polymorph.StandardHost

/-!
# Accounting of a preflight scan

How many records a scan checks, how many it asks the source for, and what its report says about
them. A rule of a valid plan never stops the scan: the exceptions of a source transform become
findings. So the loop ends at the sample size, at the input limit or at the end of the records, and
each exit determines the counters of the report.
-/

set_option autoImplicit false

namespace Polymorph

namespace Preflight

variable (H : Host)

/-! ## Requests -/

/-- The calls of `next` behind a sample: `seen` records are known, and at most `limit` of them are
counted before the last call. -/
def drainRequests (limit : Nat) : Nat → List SourceRecord → Nat
  | _, [] => 1
  | seen, _ :: rest => if seen < limit then drainRequests limit (seen + 1) rest + 1 else 1

/-- The calls of `next` of the loop over the stream. -/
def scanRequests (resolver : Option ForeignKeyResolver)
    (sourceSchema targetSchema : SchemaDescriptor) (rules : List MappingRule)
    (maxRecords maxInputRecords : Option Nat) : List SourceRecord → ScanState → Nat
  | records, state =>
      if maxInputRecords.any fun limit => limit ≤ state.checked then 1
      else if maxRecords.any fun sample => sample ≤ state.checked then
        match records, maxInputRecords with
        | _ :: rest, some limit => drainRequests limit (state.checked + 1) rest + 1
        | _, _ => 1
      else
        match records with
        | [] => 1
        | record :: rest =>
            match checkRecord H resolver sourceSchema targetSchema rules record state with
            | (_, some _) => 1
            | (state, none) =>
                scanRequests resolver sourceSchema targetSchema rules maxRecords maxInputRecords
                  rest state + 1

/-- The calls of `next` of a run; a plan that is not valid is not scanned. -/
def requests (stream : RecordStream) (sourceSchema targetSchema : SchemaDescriptor)
    (plan : MappingPlan) (maxRecords maxInputRecords : Option Int)
    (resolver : Option ForeignKeyResolver) : Nat :=
  if (PlanValidator.validate H plan sourceSchema targetSchema).valid then
    scanRequests H resolver sourceSchema targetSchema plan.rules (maxRecords.map Int.toNat)
      (maxInputRecords.map Int.toNat) stream.records {}
  else 0

/-! ## Rules never stop a scan -/

variable {H}

theorem integerOfText_error {text : PyText} {e : Exn} (h : integerOfText text = .error e) :
    e.isTransformFailure = true := by
  unfold integerOfText at h
  split at h
  split at h
  · cases h
    rfl
  · split at h
    · cases h
      rfl
    · split at h
      · cases h
        rfl
      · cases h

theorem parseInteger_error {value : PyValue} {e : Exn} (h : parseInteger H value = .error e) :
    e.isTransformFailure = true := by
  unfold parseInteger at h
  split at h
  · cases h
  · split at h
    · cases h
      rfl
    · cases h
    · split at h
      · cases h
      · cases h
        rfl
    · split at h
      · cases h
      · cases h
        rfl
    · rename_i text _
      cases hinteger : integerOfText (stripText H text) with
      | ok z =>
          rw [hinteger] at h
          cases h
      | error e' =>
          rw [hinteger] at h
          cases h
          exact integerOfText_error hinteger
    · cases h
      rfl

theorem parseDecimal_error {value : PyValue} {params : List (String × String)} {e : Exn}
    (h : parseDecimal H value params = .error e) : e.isTransformFailure = true := by
  unfold parseDecimal at h
  split at h
  · cases h
  · split at h
    · cases h
    · dsimp only at h
      split at h
      · cases h
      · cases h
        rfl

theorem parseDatetime_error {value : PyValue} {params : List (String × String)} {e : Exn}
    (h : parseDatetime H value params = .error e) : e.isTransformFailure = true := by
  unfold parseDatetime at h
  split at h
  · cases h
  · split at h
    · cases h
    · dsimp only at h
      split at h
      · cases h
      · cases h
        rfl

/-- The exceptions of a transform are those that a scan records. -/
theorem applyTransform_error {name : String} {value : PyValue} {params : List (String × String)}
    {e : Exn} (h : applyTransform H name value params = .error e) :
    e.isTransformFailure = true := by
  unfold applyTransform at h
  split at h
  · cases h
    rfl
  · split at h
    · cases h
    · split at h
      · cases h
      · split at h
        · exact parseInteger_error h
        · split at h
          · exact parseDecimal_error h
          · exact parseDatetime_error h
  · cases h
    rfl

theorem checkSourceRule_ok (rule : MappingRule) (target : FieldDescriptor) (index : Nat)
    (value : PyValue) : ∃ out, checkSourceRule H rule target index value = .ok out := by
  unfold checkSourceRule
  dsimp only
  split
  · rename_i e happly
    rw [if_pos (applyTransform_error happly)]
    exact ⟨_, rfl⟩
  · split
    · exact ⟨_, rfl⟩
    · exact ⟨_, rfl⟩
  · split
    · exact ⟨_, rfl⟩
    · exact ⟨_, rfl⟩

theorem checkLookupRule_ok (resolver : Option ForeignKeyResolver) (targetSchema : SchemaDescriptor)
    (rule : MappingRule) (target : FieldDescriptor) (index : Nat) (value : PyValue) :
    ∃ out, checkLookupRule resolver targetSchema rule target index value = .ok out := by
  unfold checkLookupRule
  dsimp only
  split
  · exact ⟨_, rfl⟩
  · split
    · split
      · exact ⟨_, rfl⟩
      · split
        · exact ⟨_, rfl⟩
        · exact ⟨_, rfl⟩
        · split
          · exact ⟨_, rfl⟩
          · exact ⟨_, rfl⟩
    · exact ⟨_, rfl⟩

/-- The rule is between known fields and its transform is registered. -/
def Resolves (sourceSchema targetSchema : SchemaDescriptor) (rule : MappingRule) : Prop :=
  (∃ source, sourceSchema.fieldById rule.sourceFieldId = .ok source) ∧
    (∃ target, targetSchema.fieldById rule.targetFieldId = .ok target) ∧
      ∃ stage, transformStage rule.transform = .ok stage

variable {resolver : Option ForeignKeyResolver} {sourceSchema targetSchema : SchemaDescriptor}

theorem checkRule_ok {rule : MappingRule} (h : Resolves sourceSchema targetSchema rule)
    (index : Nat) (record : SourceRecord) :
    ∃ out, checkRule H resolver sourceSchema targetSchema index record rule = .ok out := by
  obtain ⟨⟨source, hsource⟩, ⟨target, htarget⟩, stage, hstage⟩ := h
  unfold checkRule
  rw [hsource, htarget, hstage]
  simp only [ok_bind]
  split
  · split
    · exact ⟨_, rfl⟩
    · split
      · exact ⟨_, rfl⟩
      · exact ⟨_, rfl⟩
  · split
    · exact ⟨_, rfl⟩
    · exact ⟨_, rfl⟩
  · split
    · exact ⟨_, rfl⟩
    · split
      · exact checkSourceRule_ok rule target index _
      · split
        · exact checkLookupRule_ok resolver targetSchema rule target index _
        · exact ⟨_, rfl⟩

theorem checkRules_checked (index : Nat) (record : SourceRecord) {rules : List MappingRule}
    (h : ∀ rule ∈ rules, Resolves sourceSchema targetSchema rule) (state : ScanState) :
    (checkRules H resolver sourceSchema targetSchema index record rules state).2 = none ∧
      (checkRules H resolver sourceSchema targetSchema index record rules state).1.checked =
        state.checked := by
  induction rules generalizing state with
  | nil => exact ⟨rfl, rfl⟩
  | cons rule rules ih =>
      obtain ⟨⟨findings, lookups⟩, hrule⟩ :=
        (@checkRule_ok H resolver) (h rule List.mem_cons_self) index record
      rw [checkRules, hrule]
      exact ih (fun other hother => h other (List.mem_cons_of_mem _ hother)) _

/-- A record is counted and never stops the scan. -/
theorem checkRecord_checked {rules : List MappingRule}
    (h : ∀ rule ∈ rules, Resolves sourceSchema targetSchema rule) (record : SourceRecord)
    (state : ScanState) :
    ∃ next, checkRecord H resolver sourceSchema targetSchema rules record state = (next, none) ∧
      next.checked = state.checked + 1 := by
  unfold checkRecord
  obtain ⟨hnone, hchecked⟩ := (@checkRules_checked H resolver)
    (state.checked + 1) record h { state with
      checked := state.checked + 1
      findings := state.findings ++
        if (record.any fun entry => (sourceSchema.fieldById? entry.1).isNone) = true then
          [⟨.blocking, "record_schema_mismatch",
            "record contains fields absent from the inspected source schema",
            some (state.checked + 1), none, none⟩]
        else [] }
  exact ⟨_, Prod.ext rfl hnone, hchecked⟩

theorem resolves_of_valid {plan : MappingPlan}
    (h : (PlanValidator.validate H plan sourceSchema targetSchema).valid = true) :
    ∀ rule ∈ plan.rules, Resolves sourceSchema targetSchema rule := by
  intro rule hrule
  obtain ⟨source, target, hsource, htarget, hroute⟩ :=
    ((@PlanValidator.rules_of_valid _ _ _ _ (fun f => f.severity ≠ .blocking)) (fun _ h => h)
      (PlanValidator.not_blocking_of_valid h)).2 rule hrule
  refine ⟨⟨source, ?_⟩, ⟨target, ?_⟩, ?_⟩
  · rw [SchemaDescriptor.fieldById, hsource]
  · rw [SchemaDescriptor.fieldById, htarget]
  · unfold PlanValidator.routeFindings at hroute
    split at hroute
    · exact absurd rfl (hroute _ List.mem_cons_self)
    · rename_i hknown
      rw [Bool.not_eq_true, Bool.not_eq_false', isKnownTransform, Option.isSome_iff_exists]
        at hknown
      obtain ⟨stage, hstage⟩ := hknown
      exact ⟨stage, by rw [transformStage, hstage]⟩

/-! ## The loop -/

/-- A number under a limit that may be absent. -/
def cap (limit : Option Nat) (n : Nat) : Nat := limit.elim n (min n)

/-- The limit is reached. -/
theorem any_le_iff {limit : Option Nat} {c : Nat} :
    (limit.any fun k => k ≤ c) = true ↔ ∃ k, limit = some k ∧ k ≤ c := by
  cases limit with
  | none => simp
  | some k => simp

theorem succ_le_of_not_any {limit : Option Nat} {c : Nat}
    (h : ¬(limit.any fun k => k ≤ c) = true) : ∀ k, limit = some k → c + 1 ≤ k := by
  intro k hk
  have hlt : ¬k ≤ c := fun hle => h (any_le_iff.2 ⟨k, hk, hle⟩)
  omega

/-- The counters at the end of the loop, for records that are read without an exception. -/
structure ScanOutcome (maxRecords maxInputRecords : Option Nat) (total : Nat)
    (out : ScanState × ScanEnd) : Prop where
  checked : out.1.checked = cap maxInputRecords (cap maxRecords total)
  complete : out.2 = .complete ↔ out.1.checked = total
  exceeded : (∃ index, out.2 = .exceeded index) ↔ ∃ limit, maxInputRecords = some limit ∧
    limit < total
  read : out.2 ≠ .failed

/-- The exit at the input limit. -/
theorem outcome_at_limit {maxRecords : Option Nat} {limit : Nat} {state : ScanState}
    (records : List SourceRecord) (hsample : ∀ k, maxRecords = some k → state.checked ≤ k)
    (hlimit : state.checked = limit) :
    ScanOutcome maxRecords (some limit) (state.checked + records.length)
      (match records, (none : Option Exn) with
        | _ :: _, _ => (state, .exceeded (state.checked + 1))
        | [], some _ => (state, .failed)
        | [], none => (state, .complete)) := by
  have hcap : state.checked = cap (some limit) (cap maxRecords (state.checked + records.length)) := by
    cases maxRecords with
    | none =>
        change state.checked = min (state.checked + records.length) limit
        omega
    | some sample =>
        have := hsample sample rfl
        change state.checked = min (min (state.checked + records.length) sample) limit
        omega
  cases records with
  | nil =>
      refine ⟨hcap, ⟨fun _ => rfl, fun _ => rfl⟩, ?_, by intro h; cases h⟩
      constructor
      · rintro ⟨index, h⟩
        cases h
      · rintro ⟨k, hk, hlt⟩
        cases hk
        exact absurd hlt (by rw [List.length_nil]; omega)
  | cons record rest =>
      refine ⟨hcap, ⟨?_, ?_⟩, ⟨fun _ => ?_, fun _ => ⟨_, rfl⟩⟩, by intro h; cases h⟩
      · intro h
        cases h
      · intro h
        rw [List.length_cons] at h
        dsimp only at h
        omega
      · exact ⟨limit, rfl, by rw [List.length_cons]; omega⟩

/-- The exit at the sample size, below the input limit. -/
theorem outcome_at_sample {sample : Nat} {maxInputRecords : Option Nat} {state : ScanState}
    {records : List SourceRecord} {out : ScanState × ScanEnd}
    (hout : out = match records, (none : Option Exn) with
      | _ :: rest, _ =>
          match maxInputRecords with
          | none => (state, .sampled)
          | some limit => (state, scanRemainder ⟨rest, none⟩ limit (state.checked + 1))
      | [], some _ => (state, .failed)
      | [], none => (state, .complete))
    (hsample : state.checked = sample)
    (hlimit : ∀ k, maxInputRecords = some k → state.checked + 1 ≤ k) :
    ScanOutcome (some sample) maxInputRecords (state.checked + records.length) out := by
  subst hout
  have hcap : state.checked =
      cap maxInputRecords (cap (some sample) (state.checked + records.length)) := by
    cases maxInputRecords with
    | none =>
        change state.checked = min (state.checked + records.length) sample
        omega
    | some limit =>
        have := hlimit limit rfl
        change state.checked = min (min (state.checked + records.length) sample) limit
        omega
  cases records with
  | nil =>
      refine ⟨hcap, ⟨fun _ => rfl, fun _ => rfl⟩, ?_, by intro h; cases h⟩
      constructor
      · rintro ⟨index, h⟩
        cases h
      · rintro ⟨k, hk, hlt⟩
        have := hlimit k hk
        rw [List.length_nil] at hlt
        omega
  | cons record rest =>
      have hmore : state.checked ≠ state.checked + (record :: rest).length := by
        rw [List.length_cons]
        omega
      cases maxInputRecords with
      | none =>
          refine ⟨hcap, ⟨fun h => ?_, fun h => absurd h hmore⟩, ⟨?_, ?_⟩, by intro h; cases h⟩
          · cases h
          · rintro ⟨index, h⟩
            cases h
          · rintro ⟨k, hk, -⟩
            cases hk
      | some limit =>
          have hle := hlimit limit rfl
          dsimp only [scanRemainder]
          by_cases hexceeds : limit - (state.checked + 1) < rest.length
          · rw [if_pos hexceeds]
            refine ⟨hcap, ⟨fun h => ?_, fun h => absurd h hmore⟩,
              ⟨fun _ => ⟨limit, rfl, ?_⟩, fun _ => ⟨_, rfl⟩⟩, by intro h; cases h⟩
            · cases h
            · rw [List.length_cons]
              omega
          · rw [if_neg hexceeds, if_neg (by simp)]
            refine ⟨hcap, ⟨fun h => ?_, fun h => absurd h hmore⟩, ⟨?_, ?_⟩, by intro h; cases h⟩
            · cases h
            · rintro ⟨index, h⟩
              cases h
            · rintro ⟨k, hk, hlt⟩
              cases hk
              rw [List.length_cons] at hlt
              omega

variable {rules : List MappingRule} {maxRecords maxInputRecords : Option Nat}

/-- The loop, from a state within both limits. -/
theorem scan_outcome (h : ∀ rule ∈ rules, Resolves sourceSchema targetSchema rule)
    (records : List SourceRecord) (state : ScanState)
    (hsample : ∀ k, maxRecords = some k → state.checked ≤ k)
    (hlimit : ∀ k, maxInputRecords = some k → state.checked ≤ k) :
    ScanOutcome maxRecords maxInputRecords (state.checked + records.length)
      (scan H resolver sourceSchema targetSchema rules maxRecords maxInputRecords none records
        state) := by
  induction records generalizing state with
  | nil =>
      unfold scan
      split
      · rename_i hany
        obtain ⟨limit, rfl, hle⟩ := any_le_iff.1 hany
        exact outcome_at_limit [] hsample (by have := hlimit limit rfl; omega)
      · rename_i hany
        split
        · rename_i hfull
          obtain ⟨sample, rfl, hle⟩ := any_le_iff.1 hfull
          exact outcome_at_sample rfl (by have := hsample sample rfl; omega)
            (succ_le_of_not_any hany)
        · rename_i hfull
          refine ⟨?_, ⟨fun _ => rfl, fun _ => rfl⟩, ?_, by intro h; cases h⟩
          · have hsucc := succ_le_of_not_any hfull
            have hsucc' := succ_le_of_not_any hany
            cases maxRecords with
            | none =>
                cases maxInputRecords with
                | none => rfl
                | some limit =>
                    have := hsucc' limit rfl
                    change state.checked = min state.checked limit
                    omega
            | some sample =>
                have := hsucc sample rfl
                cases maxInputRecords with
                | none =>
                    change state.checked = min state.checked sample
                    omega
                | some limit =>
                    have := hsucc' limit rfl
                    change state.checked = min (min state.checked sample) limit
                    omega
          · constructor
            · rintro ⟨index, h⟩
              cases h
            · rintro ⟨k, hk, hlt⟩
              have := hlimit k hk
              rw [List.length_nil] at hlt
              omega
  | cons record rest ih =>
      unfold scan
      split
      · rename_i hany
        obtain ⟨limit, rfl, hle⟩ := any_le_iff.1 hany
        exact outcome_at_limit (record :: rest) hsample (by have := hlimit limit rfl; omega)
      · rename_i hany
        split
        · rename_i hfull
          obtain ⟨sample, rfl, hle⟩ := any_le_iff.1 hfull
          exact outcome_at_sample rfl (by have := hsample sample rfl; omega)
            (succ_le_of_not_any hany)
        · rename_i hfull
          obtain ⟨next, hrecord, hchecked⟩ :=
            (@checkRecord_checked H resolver) h record state
          dsimp only
          rw [hrecord]
          have hnext := ih next (by rw [hchecked]; exact succ_le_of_not_any hfull)
            (by rw [hchecked]; exact succ_le_of_not_any hany)
          have htotal : next.checked + rest.length =
              state.checked + (record :: rest).length := by
            rw [hchecked, List.length_cons]
            omega
          rwa [htotal] at hnext

/-! ## The requests -/

theorem drainRequests_le {limit seen : Nat} (hseen : seen ≤ limit) (records : List SourceRecord) :
    drainRequests limit seen records ≤ limit - seen + 1 := by
  induction records generalizing seen with
  | nil =>
      rw [drainRequests]
      omega
  | cons record rest ih =>
      rw [drainRequests]
      split
      · rename_i hlt
        have hrest : drainRequests limit (seen + 1) rest ≤ limit - (seen + 1) + 1 := ih hlt
        omega
      · omega

/-- The most requests that the limits allow from a state. -/
def requestBound (maxRecords maxInputRecords : Option Nat) : Option Nat :=
  match maxInputRecords with
  | some limit => some (limit + 1)
  | none => maxRecords.map Nat.succ

/-- Within both limits one more request is allowed. -/
theorem succ_le_requestBound {c bound : Nat}
    (hbound : requestBound maxRecords maxInputRecords = some bound)
    (hsample : ∀ k, maxRecords = some k → c ≤ k)
    (hlimit : ∀ k, maxInputRecords = some k → c ≤ k) : c + 1 ≤ bound := by
  cases maxInputRecords with
  | some limit =>
      cases hbound
      exact Nat.succ_le_succ (hlimit limit rfl)
  | none =>
      cases maxRecords with
      | some sample =>
          cases hbound
          exact Nat.succ_le_succ (hsample sample rfl)
      | none => cases hbound

theorem scanRequests_le (h : ∀ rule ∈ rules, Resolves sourceSchema targetSchema rule)
    (records : List SourceRecord) (state : ScanState)
    (hsample : ∀ k, maxRecords = some k → state.checked ≤ k)
    (hlimit : ∀ k, maxInputRecords = some k → state.checked ≤ k) :
    ∀ bound, requestBound maxRecords maxInputRecords = some bound →
      state.checked + scanRequests H resolver sourceSchema targetSchema rules maxRecords
        maxInputRecords records state ≤ bound := by
  intro bound hbound
  induction records generalizing state with
  | nil =>
      have hroom := succ_le_requestBound hbound hsample hlimit
      unfold scanRequests
      split
      · exact hroom
      · split
        · exact hroom
        · exact hroom
  | cons record rest ih =>
      have hroom := succ_le_requestBound hbound hsample hlimit
      unfold scanRequests
      split
      · exact hroom
      · rename_i hany
        split
        · cases maxInputRecords with
          | none => exact hroom
          | some limit =>
              have hlt := succ_le_of_not_any hany limit rfl
              have hdrain : drainRequests limit (state.checked + 1) rest ≤
                  limit - (state.checked + 1) + 1 := drainRequests_le hlt rest
              cases hbound
              dsimp only
              omega
        · rename_i hfull
          obtain ⟨next, hrecord, hchecked⟩ :=
            (@checkRecord_checked H resolver) h record state
          have hnext := ih next (by rw [hchecked]; exact succ_le_of_not_any hfull)
            (by rw [hchecked]; exact succ_le_of_not_any hany)
          dsimp only
          rw [hrecord]
          dsimp only
          omega

/-! ## The report -/

theorem checkLimit_eq_ok {message : String} {limit : Option Int}
    (h : ∀ n, limit = some n → 1 ≤ n) : checkLimit message limit = .ok (limit.map Int.toNat) := by
  cases limit with
  | none => rfl
  | some n => rw [checkLimit, if_neg (not_lt.2 (h n rfl)), Option.map_some]

/-- The limit as the caller gave it. -/
theorem limit_lt_iff {maxInputRecords : Option Int} {n : Nat}
    (h : ∀ N, maxInputRecords = some N → 1 ≤ N) :
    (∃ limit, maxInputRecords.map Int.toNat = some limit ∧ limit < n) ↔
      ∃ N, maxInputRecords = some N ∧ N < n := by
  cases maxInputRecords with
  | none =>
      constructor
      · rintro ⟨limit, hnone, -⟩
        cases hnone
      · rintro ⟨N, hnone, -⟩
        cases hnone
  | some N =>
      have hpos := h N rfl
      constructor
      · rintro ⟨limit, hsome, hlt⟩
        cases hsome
        exact ⟨N, rfl, by omega⟩
      · rintro ⟨N', hsome, hlt⟩
        cases hsome
        exact ⟨N.toNat, rfl, by omega⟩

theorem exceeded_iff (scanEnd : ScanEnd) :
    (match scanEnd with
      | .exceeded _ => true
      | _ => false) = true ↔ ∃ index, scanEnd = .exceeded index := by
  cases scanEnd with
  | exceeded index => exact ⟨fun _ => ⟨index, rfl⟩, fun _ => rfl⟩
  | complete => simp
  | sampled => simp
  | failed => simp

namespace Sample

/-- A schema of one column. -/
def contacts : SchemaDescriptor where
  id := "contacts"
  fields := [{ id := "email", name := "email", dataType := .string }]

/-- The plan that copies the column. -/
noncomputable def copyPlan : MappingPlan where
  id := "plan"
  sourceSchemaId := "contacts"
  targetSchemaId := "contacts"
  sourceFingerprint := contacts.fingerprint standardHost
  targetFingerprint := contacts.fingerprint standardHost
  rules := [{ sourceFieldId := "email", targetFieldId := "email" }]
  createdAt := ⟨⟨2026, 1, 1, 0, 0, 0, 0⟩, Utc.valid_newYear2026⟩

theorem copyPlan_valid :
    (PlanValidator.validate standardHost copyPlan contacts contacts).valid = true := by
  rw [validate_bound rfl rfl rfl rfl]
  decide +kernel

end Sample

end Preflight

end Polymorph
