import Polymorph.Planning.Repair

/-!
# What a repair that applies by itself consists of

`Resolves` says which field of the new schema stands for a mapped field without an open question,
and `AutoRepair` which plan an automatic repair yields. Both are compared with the code.
-/

set_option autoImplicit false

namespace Polymorph

open ScoreArith Utc

section Resolution

variable {S : Type} [ScoreArith S] {m : HybridMatcher S} {T : TextHost}
  {old f g : FieldDescriptor} {newSchema : SchemaDescriptor} {side : String}

/-- The matcher moves a mapped field: its id is gone or no longer stable, and the automatic
decision is a field of the same sensitivity and type. -/
structure Moves (m : HybridMatcher S) (T : TextHost) (newSchema : SchemaDescriptor)
    (old f : FieldDescriptor) : Prop where
  unstable : stableField S T old newSchema = none
  decided : ∃ d, m.decide T old newSchema = .ok d ∧ d.status = .auto ∧ d.targetFieldId = some f.id
  mem : f ∈ newSchema.fields
  sensitivity : f.sensitivity = old.sensitivity
  dataType : f.dataType = old.dataType

/-- The new field that stands for a mapped field. -/
inductive Resolves (m : HybridMatcher S) (T : TextHost) (newSchema : SchemaDescriptor)
    (old : FieldDescriptor) : FieldDescriptor → Prop where
  | kept {f : FieldDescriptor} : stableField S T old newSchema = some f →
      f.dataType = old.dataType → Resolves m T newSchema old f
  | moved {f : FieldDescriptor} : Moves m T newSchema old f → Resolves m T newSchema old f

theorem stableField_eq_some (h : stableField S T old newSchema = some f) :
    f ∈ newSchema.fields ∧ f.id = old.id ∧ f.sensitivity = old.sensitivity := by
  obtain ⟨hfound, hstable⟩ := Option.filter_eq_some_iff.1 h
  obtain ⟨hmem, hid⟩ := SchemaDescriptor.fieldById?_eq_some hfound
  refine ⟨hmem, hid, ?_⟩
  unfold descriptorIsStable at hstable
  split at hstable
  · cases hstable
  · rename_i hsame
    exact (not_not.1 hsame).symm

theorem Resolves.mem (h : Resolves m T newSchema old f) : f ∈ newSchema.fields := by
  cases h with
  | kept hstable _ => exact (stableField_eq_some hstable).1
  | moved hmoves => exact hmoves.mem

theorem Resolves.dataType (h : Resolves m T newSchema old f) : f.dataType = old.dataType := by
  cases h with
  | kept _ htype => exact htype
  | moved hmoves => exact hmoves.dataType

/-- A field that is not moved keeps its id. -/
theorem Resolves.id_eq (h : Resolves m T newSchema old f) (hstays : ¬Moves m T newSchema old f) :
    f.id = old.id := by
  cases h with
  | kept hstable _ => exact (stableField_eq_some hstable).2.1
  | moved hmoves => exact absurd hmoves hstays

/-- A field found by its id in a schema that has it. -/
theorem eq_of_fieldId {schema : SchemaDescriptor} (hf : f ∈ schema.fields) (hg : g ∈ schema.fields)
    (hid : f.id = g.id) : f = g := by
  have hfound := SchemaDescriptor.fieldById?_of_mem hf
  rw [hid, SchemaDescriptor.fieldById?_of_mem hg] at hfound
  exact (Option.some.inj hfound).symm

theorem Resolves.unique (hf : Resolves m T newSchema old f) (hg : Resolves m T newSchema old g) :
    f = g := by
  cases hf with
  | kept hstable _ =>
      cases hg with
      | kept hstable' _ => exact Option.some.inj (hstable.symm.trans hstable')
      | moved hmoves => rw [hmoves.unstable] at hstable; cases hstable
  | moved hmoves =>
      cases hg with
      | kept hstable' _ => rw [hmoves.unstable] at hstable'; cases hstable'
      | moved hmoves' =>
          obtain ⟨d, hd, -, htarget⟩ := hmoves.decided
          obtain ⟨d', hd', -, htarget'⟩ := hmoves'.decided
          obtain rfl : d = d' := Except.ok.inj (hd.symm.trans hd')
          exact eq_of_fieldId hmoves.mem hmoves'.mem (Option.some.inj (htarget.symm.trans htarget'))

/-- The finding, if any, is safe. -/
def SafeFinding (finding : Option RepairFinding) : Prop := ∀ item ∈ finding, item.severity = .safe

/-- A resolution without an open question. -/
theorem resolveField_safe {finding : Option RepairFinding} :
    resolveField m T old newSchema side = .ok (some f, finding) → SafeFinding finding →
      Resolves m T newSchema old f := by
  intro h hsafe
  unfold resolveField at h
  cases hstable : stableField S T old newSchema with
  | some sameId =>
      rw [hstable] at h
      have h := Except.ok.inj h
      unfold stableResolution at h
      split at h
      · cases h
      · split at h
        · cases h
          cases hsafe _ rfl
        · rename_i htype
          cases h
          exact .kept hstable (not_not.1 htype)
  | none =>
      rw [hstable] at h
      obtain ⟨d, hd, h⟩ := bind_eq_ok h
      split at h
      · rename_i targetFieldId hauto htarget
        obtain ⟨replacement, hreplacement, h⟩ := bind_eq_ok h
        obtain ⟨hmem, hid⟩ := SchemaDescriptor.fieldById?_eq_some (fieldById_eq_ok hreplacement)
        have h := Except.ok.inj h
        unfold replacementResolution at h
        split at h
        · cases h
        · rename_i hsensitivity
          split at h
          · cases h
            cases hsafe _ rfl
          · rename_i htype
            cases h
            exact .moved ⟨hstable, ⟨d, hd, hauto, hid ▸ htarget⟩, hmem, not_not.1 hsensitivity,
              not_not.1 htype⟩
      · cases h

/-- A field that resolves to nothing leaves a blocking finding. -/
theorem resolveField_ne_none {finding : Option RepairFinding} (hsafe : SafeFinding finding) :
    resolveField m T old newSchema side ≠ .ok (none, finding) := by
  intro h
  unfold resolveField at h
  split at h
  · have h := Except.ok.inj h
    unfold stableResolution at h
    split at h
    · cases h
      cases hsafe _ rfl
    · split at h
      · cases h
      · cases h
  · obtain ⟨d, hd, h⟩ := bind_eq_ok h
    split at h
    · obtain ⟨replacement, -, h⟩ := bind_eq_ok h
      have h := Except.ok.inj h
      unfold replacementResolution at h
      split at h
      · cases h
        cases hsafe _ rfl
      · split at h
        · cases h
        · cases h
    · cases h
      cases hsafe _ rfl

/-- A field that resolves is found, with a safe finding at most. -/
theorem resolveField_of_resolves (h : Resolves m T newSchema old f) :
    ∃ finding, resolveField m T old newSchema side = .ok (some f, finding) ∧
      SafeFinding finding := by
  unfold resolveField
  cases h with
  | kept hstable htype =>
      rw [hstable]
      refine ⟨none, ?_, nofun⟩
      simp only [stableResolution, (stableField_eq_some hstable).2.2, htype, ne_eq,
        not_true_eq_false, if_false]
  | moved hmoves =>
      obtain ⟨d, hd, hauto, htarget⟩ := hmoves.decided
      rw [hmoves.unstable]
      dsimp only
      rw [hd, ok_bind, hauto, htarget]
      dsimp only
      rw [fieldById_of_mem hmoves.mem, ok_bind]
      refine ⟨some ⟨.safe, old.id, "field appears moved or renamed", some f.id, side⟩, ?_, ?_⟩
      · simp only [replacementResolution, hmoves.sensitivity, hmoves.dataType, ne_eq,
          not_true_eq_false, if_false]
        rfl
      · rintro item ⟨rfl⟩
        rfl

end Resolution

/-! ## The loop over the rules -/

section Loop

variable {S : Type} [ScoreArith S] {m : HybridMatcher S} {T : TextHost} {drift : Drift}
  {rule rule' : MappingRule}

/-- A rule is rebound to the fields that stand for its own, and keeps its lookup path. -/
def Rebinds (m : HybridMatcher S) (T : TextHost) (drift : Drift) (rule rule' : MappingRule) : Prop :=
  ∃ oldSource oldTarget source target,
    drift.oldSource.fieldById? rule.sourceFieldId = some oldSource ∧
    drift.oldTarget.fieldById? rule.targetFieldId = some oldTarget ∧
    Resolves m T drift.newSource oldSource source ∧
    Resolves m T drift.newTarget oldTarget target ∧
    lookupPathExists rule target drift.newTarget = true ∧ rule' = rule.rebind source target

theorem Rebinds.unique {rule'' : MappingRule} (h : Rebinds m T drift rule rule')
    (h' : Rebinds m T drift rule rule'') : rule' = rule'' := by
  obtain ⟨os, ot, s, t, hos, hot, hs, ht, -, rfl⟩ := h
  obtain ⟨os', ot', s', t', hos', hot', hs', ht', -, rfl⟩ := h'
  obtain rfl : os = os' := Option.some.inj (hos.symm.trans hos')
  obtain rfl : ot = ot' := Option.some.inj (hot.symm.trans hot')
  rw [hs.unique hs', ht.unique ht']

/-- The findings of a pass are all safe. -/
def SafeFindings (findings : List RepairFinding) : Prop :=
  ∀ item ∈ findings, item.severity = .safe

theorem repairRule_safe {findings : List RepairFinding} {kept : Option MappingRule}
    (h : repairRule m T drift rule = .ok (findings, kept)) (hsafe : SafeFindings findings) :
    ∃ rule', kept = some rule' ∧ Rebinds m T drift rule rule' := by
  unfold repairRule at h
  split at h
  · rename_i oldSource oldTarget hsource htarget
    obtain ⟨⟨source, sourceFinding⟩, hresolveSource, h⟩ := bind_eq_ok h
    obtain ⟨⟨target, targetFinding⟩, hresolveTarget, h⟩ := bind_eq_ok h
    dsimp only at h
    have hboth : SafeFindings (sourceFinding.toList ++ targetFinding.toList) := by
      split at h
      · split at h
        · cases h
          exact hsafe
        · cases h
          cases hsafe _ (List.mem_append_right _ List.mem_cons_self)
      · cases h
        exact hsafe
    have hsourceSafe : SafeFinding sourceFinding := fun item hitem =>
      hboth item (List.mem_append_left _ (Option.mem_toList.2 hitem))
    have htargetSafe : SafeFinding targetFinding := fun item hitem =>
      hboth item (List.mem_append_right _ (Option.mem_toList.2 hitem))
    cases source with
    | none => exact absurd hresolveSource (resolveField_ne_none hsourceSafe)
    | some source =>
        cases target with
        | none => exact absurd hresolveTarget (resolveField_ne_none htargetSafe)
        | some target =>
            dsimp only at h
            split at h
            · rename_i hpath
              cases h
              exact ⟨_, rfl, oldSource, oldTarget, source, target, hsource, htarget,
                resolveField_safe hresolveSource hsourceSafe,
                resolveField_safe hresolveTarget htargetSafe, hpath, rfl⟩
            · cases h
              cases hsafe _ (List.mem_append_right _ List.mem_cons_self)
  · cases h
    cases hsafe _ List.mem_cons_self

theorem repairRule_of_rebinds (h : Rebinds m T drift rule rule') :
    ∃ findings, repairRule m T drift rule = .ok (findings, some rule') ∧ SafeFindings findings := by
  obtain ⟨oldSource, oldTarget, source, target, hsource, htarget, hs, ht, hpath, rfl⟩ := h
  obtain ⟨sourceFinding, hresolveSource, hsourceSafe⟩ :=
    (@resolveField_of_resolves _ _ _ _ _ _ _ "source") hs
  obtain ⟨targetFinding, hresolveTarget, htargetSafe⟩ :=
    (@resolveField_of_resolves _ _ _ _ _ _ _ "target") ht
  refine ⟨sourceFinding.toList ++ targetFinding.toList, ?_, ?_⟩
  · unfold repairRule
    rw [hsource, htarget]
    dsimp only
    rw [hresolveSource, ok_bind]
    dsimp only
    rw [hresolveTarget, ok_bind]
    dsimp only
    rw [if_pos hpath]
    rfl
  · intro item hitem
    rcases List.mem_append.1 hitem with hitem | hitem
    · exact hsourceSafe item (Option.mem_toList.1 hitem)
    · exact htargetSafe item (Option.mem_toList.1 hitem)

/-- The passes of the loop over rules that are all rebound. -/
theorem passes_safe {rules : List MappingRule} {passes : List (List RepairFinding × Option MappingRule)}
    (h : List.Forall₂ (fun rule pass => repairRule m T drift rule = .ok pass) rules passes)
    (hsafe : SafeFindings (passes.flatMap Prod.fst)) :
    List.Forall₂ (Rebinds m T drift) rules (passes.filterMap Prod.snd) := by
  induction h with
  | nil => exact .nil
  | @cons rule pass rules passes hpass _ ih =>
      rw [List.flatMap_cons] at hsafe
      obtain ⟨rule', hkept, hrebinds⟩ := repairRule_safe hpass fun item hitem =>
        hsafe item (List.mem_append_left _ hitem)
      rw [List.filterMap_cons_some hkept]
      exact .cons hrebinds (ih fun item hitem => hsafe item (List.mem_append_right _ hitem))

theorem passes_of_rebinds {rules rules' : List MappingRule}
    (h : List.Forall₂ (Rebinds m T drift) rules rules') :
    ∃ passes, List.Forall₂ (fun rule pass => repairRule m T drift rule = .ok pass) rules passes ∧
      SafeFindings (passes.flatMap Prod.fst) ∧ passes.filterMap Prod.snd = rules' := by
  induction h with
  | nil => exact ⟨[], .nil, nofun, rfl⟩
  | cons hrebinds _ ih =>
      obtain ⟨findings, hpass, hsafe⟩ := repairRule_of_rebinds hrebinds
      obtain ⟨passes, hpasses, hsafes, hrules⟩ := ih
      refine ⟨_ :: passes, .cons hpass hpasses, ?_, ?_⟩
      · intro item hitem
        rcases List.mem_append.1 (List.flatMap_cons ▸ hitem) with hitem | hitem
        · exact hsafe item hitem
        · exact hsafes item hitem
      · simp only [List.filterMap_cons, hrules]

end Loop

/-! ## The proposal -/

section Proposal

variable {S : Type} [ScoreArith S] {m : HybridMatcher S} {T : TextHost} {now : Instant}
  {plan plan' : MappingPlan} {drift : Drift}

/-- The rules of a plan are all rebound, and the validator only informs about the repaired plan. -/
structure Rebound (m : HybridMatcher S) (T : TextHost) (now : Instant) (plan : MappingPlan)
    (drift : Drift) (rules : List MappingRule) : Prop where
  rebinds : List.Forall₂ (Rebinds m T drift) plan.rules rules
  clean : ∀ item ∈ (PlanValidator.validate T.toHost (repairedPlan T.toHost now plan drift rules)
    drift.newSource drift.newTarget).findings, item.severity = .info

/-- The plan of an automatic repair: the plan itself while the schemas are unchanged, else the plan
over its rebound rules. -/
def AutoRepair (m : HybridMatcher S) (T : TextHost) (now : Instant) (plan : MappingPlan)
    (drift : Drift) (plan' : MappingPlan) : Prop :=
  (drift.unchanged T.toHost plan = true ∧ plan' = plan) ∨
    (drift.unchanged T.toHost plan = false ∧ ∃ rules, Rebound m T now plan drift rules ∧
      plan' = repairedPlan T.toHost now plan drift rules)

/-- The validator's information leaves no finding behind. -/
theorem planFindings_eq_nil {items : List ValidationFinding} :
    SafeFindings (items.filterMap planFinding) ↔ ∀ item ∈ items, item.severity = .info := by
  constructor
  · intro hsafe item hitem
    by_contra hsevere
    have hfound := hsafe _ (List.mem_filterMap.2 ⟨item, hitem, by
      unfold planFinding
      rw [if_neg hsevere]⟩)
    dsimp only at hfound
    split at hfound
    · cases hfound
    · cases hfound
  · intro hinfo finding hfinding
    obtain ⟨item, hitem, hsome⟩ := List.mem_filterMap.1 hfinding
    unfold planFinding at hsome
    rw [if_pos (hinfo item hitem)] at hsome
    cases hsome

theorem safe_not_blocking {findings : List RepairFinding} (h : SafeFindings findings) :
    (findings.any fun item => item.severity = .blocking) = false := by
  rw [List.any_eq_false]
  intro item hitem
  rw [h item hitem]
  decide

/-- **The proposals that apply by themselves.** -/
theorem proposePlanRepair_auto_iff :
    (∃ p, proposePlanRepair m T now plan drift = .ok p ∧ p.autoApplicable = true ∧
      p.plan = some plan') ↔ AutoRepair m T now plan drift plan' := by
  unfold proposePlanRepair AutoRepair
  cases hunchanged : drift.unchanged T.toHost plan with
  | true =>
      constructor
      · rintro ⟨p, ⟨rfl⟩, -, hplan⟩
        exact .inl ⟨rfl, (Option.some.inj hplan).symm⟩
      · rintro (⟨-, rfl⟩ | ⟨hdrifted, -⟩)
        · exact ⟨_, rfl, rfl, rfl⟩
        · cases hdrifted
  | false =>
      rw [if_neg (by decide)]
      constructor
      · rintro ⟨p, h, hauto, hplan⟩
        obtain ⟨passes, hpasses, h⟩ := bind_eq_ok h
        dsimp only at h
        split at h
        · cases h
          cases hplan
        · have h := Except.ok.inj h
          unfold unlessBlocked at h
          split at h
          · subst h
            cases hplan
          · subst h
            cases hplan
            have hsafe : SafeFindings (passes.flatMap Prod.fst ++ (PlanValidator.validate T.toHost
                (repairedPlan T.toHost now plan drift (passes.filterMap Prod.snd)) drift.newSource
                drift.newTarget).findings.filterMap planFinding) := by
              intro item hitem
              have hall := (Bool.and_eq_true_iff.1 hauto).2
              exact of_decide_eq_true (List.all_eq_true.1 hall item hitem)
            refine .inr ⟨rfl, _, ⟨passes_safe (forall₂_of_mapM hpasses) ?_, ?_⟩, rfl⟩
            · exact fun item hitem => hsafe item (List.mem_append_left _ hitem)
            · exact planFindings_eq_nil.1 fun item hitem =>
                hsafe item (List.mem_append_right _ hitem)
      · rintro (⟨hsame, -⟩ | ⟨-, rules, hrebound, rfl⟩)
        · cases hsame
        · obtain ⟨passes, hpasses, hsafe, rfl⟩ := passes_of_rebinds hrebound.rebinds
          have hall : SafeFindings (passes.flatMap Prod.fst ++ (PlanValidator.validate T.toHost
              (repairedPlan T.toHost now plan drift (passes.filterMap Prod.snd)) drift.newSource
              drift.newTarget).findings.filterMap planFinding) := by
            intro item hitem
            rcases List.mem_append.1 hitem with hitem | hitem
            · exact hsafe item hitem
            · exact planFindings_eq_nil.2 hrebound.clean item hitem
          rw [mapM_of_forall₂ hpasses, ok_bind]
          dsimp only
          rw [if_neg (by rw [safe_not_blocking hsafe]; decide), unlessBlocked,
            if_neg (by rw [safe_not_blocking hall]; decide)]
          refine ⟨_, rfl, ?_, rfl⟩
          exact List.all_eq_true.2 fun item hitem => decide_eq_true (hall item hitem)

end Proposal

end Polymorph
