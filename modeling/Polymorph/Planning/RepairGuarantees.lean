import Polymorph.Planning.RepairSpec
import Polymorph.StandardHost

/-!
# What an automatic repair keeps

A repair that applies by itself binds every rule on its own. Two mapped source fields can therefore
end in one new field, and a lookup can follow a relation that was redirected. Both guarantees hold
exactly where the drifted schemas do not bring that about.
-/

set_option autoImplicit false

namespace Polymorph

open ScoreArith Utc

section Guarantees

variable {S : Type} [ScoreArith S] {m : HybridMatcher S} {T : TextHost} {now : Instant}
  {plan : MappingPlan} {drift : Drift}

/-- A rule and what it became. -/
theorem mem_zip_of_forall₂ {α β : Type} {R : α → β → Prop} {l : List α} {l' : List β}
    (h : List.Forall₂ R l l') {a : α} (ha : a ∈ l) : ∃ b, (a, b) ∈ l.zip l' ∧ R a b := by
  induction h with
  | nil => cases ha
  | cons hab _ ih =>
      rcases List.mem_cons.1 ha with rfl | ha
      · exact ⟨_, List.mem_cons_self, hab⟩
      · obtain ⟨b, hb, hr⟩ := ih ha
        exact ⟨b, List.mem_cons_of_mem _ hb, hr⟩

theorem eq_of_mem_zip_self {α : Type} {l : List α} {p : α × α} (h : p ∈ l.zip l) : p.1 = p.2 := by
  induction l with
  | nil => cases h
  | cons a l ih =>
      rcases List.mem_cons.1 h with rfl | h
      · rfl
      · exact ih h

/-- A repair yields an automatic proposal with a plan. -/
def Repairs (m : HybridMatcher S) (T : TextHost) (now : Instant) (plan : MappingPlan) (drift : Drift)
    (plan' : MappingPlan) : Prop :=
  ∃ p, proposePlanRepair m T now plan drift = .ok p ∧ p.autoApplicable = true ∧
    p.plan = some plan'

/-! ## Source fields stay apart -/

/-- The plans have their rules in the same order, and two rules share their source field in one
exactly where they share it in the other. -/
def SourcesApart (plan plan' : MappingPlan) : Prop :=
  plan'.rules.length = plan.rules.length ∧
    ∀ p ∈ plan.rules.zip plan'.rules, ∀ q ∈ plan.rules.zip plan'.rules,
      p.1.sourceFieldId = q.1.sourceFieldId ↔ p.2.sourceFieldId = q.2.sourceFieldId

/-- No mapped source field is moved to the new field of another mapped source field. -/
def NoneMerged (m : HybridMatcher S) (T : TextHost) (plan : MappingPlan) (drift : Drift) : Prop :=
  ∀ r ∈ plan.rules, ∀ r' ∈ plan.rules, r.sourceFieldId ≠ r'.sourceFieldId →
    ∀ old old' f, drift.oldSource.fieldById? r.sourceFieldId = some old →
      drift.oldSource.fieldById? r'.sourceFieldId = some old' →
      Moves m T drift.newSource old f → ¬Resolves m T drift.newSource old' f

theorem Rebinds.source {rule rule' : MappingRule} (h : Rebinds m T drift rule rule') :
    ∃ old f, drift.oldSource.fieldById? rule.sourceFieldId = some old ∧
      Resolves m T drift.newSource old f ∧ rule'.sourceFieldId = f.id := by
  obtain ⟨old, -, f, -, hold, -, hf, -, -, rfl⟩ := h
  exact ⟨old, f, hold, hf, rfl⟩

/-- Rules over different source fields stay apart where no field is merged. -/
theorem sourceFieldId_ne_of_rebinds {r r' s s' : MappingRule} (hnone : NoneMerged m T plan drift)
    (hr : r ∈ plan.rules) (hr' : r' ∈ plan.rules) (hs : Rebinds m T drift r s)
    (hs' : Rebinds m T drift r' s') (hne : r.sourceFieldId ≠ r'.sourceFieldId) :
    s.sourceFieldId ≠ s'.sourceFieldId := by
  obtain ⟨old, f, hold, hf, hfid⟩ := hs.source
  obtain ⟨old', f', hold', hf', hfid'⟩ := hs'.source
  intro hsame
  obtain rfl : f = f' := eq_of_fieldId hf.mem hf'.mem (by rw [← hfid, ← hfid', hsame])
  by_cases hmoves : Moves m T drift.newSource old f
  · exact hnone r hr r' hr' hne old old' f hold hold' hmoves hf'
  · by_cases hmoves' : Moves m T drift.newSource old' f
    · exact hnone r' hr' r hr hne.symm old' old f hold' hold hmoves' hf
    · -- Both fields kept their ids.
      have hid := (SchemaDescriptor.fieldById?_eq_some hold).2
      have hid' := (SchemaDescriptor.fieldById?_eq_some hold').2
      exact hne (by rw [← hid, ← hid', ← hf.id_eq hmoves, hf'.id_eq hmoves'])

theorem sourcesApart_of_rebound {rules : List MappingRule} (h : Rebound m T now plan drift rules)
    (hnone : NoneMerged m T plan drift) :
    SourcesApart plan (repairedPlan T.toHost now plan drift rules) := by
  refine ⟨h.rebinds.length_eq.symm, ?_⟩
  rintro ⟨r, s⟩ hp ⟨r', s'⟩ hq
  have hr := List.forall₂_zip h.rebinds hp
  have hr' := List.forall₂_zip h.rebinds hq
  constructor
  · intro hsame
    obtain ⟨old, f, hold, hf, hfid⟩ := hr.source
    obtain ⟨old', f', hold', hf', hfid'⟩ := hr'.source
    dsimp only at hsame
    rw [hsame, hold'] at hold
    obtain rfl : old' = old := Option.some.inj hold
    rw [hfid, hfid', hf.unique hf']
  · intro hsame
    by_contra hne
    exact sourceFieldId_ne_of_rebinds hnone (List.of_mem_zip hp).1 (List.of_mem_zip hq).1 hr hr' hne
      hsame

/-- **An automatic repair keeps source fields apart** exactly when the schemas are unchanged, the
plan has no automatic repair, or no mapped field is moved onto another one's field. -/
theorem repair_keeps_sources_apart_iff (m : HybridMatcher S) (T : TextHost) (now : Instant)
    (plan : MappingPlan) (drift : Drift) :
    (∀ plan', Repairs m T now plan drift plan' → SourcesApart plan plan') ↔
      drift.unchanged T.toHost plan = true ∨ (¬∃ rules, Rebound m T now plan drift rules) ∨
        NoneMerged m T plan drift := by
  constructor
  · intro h
    by_cases hunchanged : drift.unchanged T.toHost plan = true
    · exact .inl hunchanged
    · refine .inr ?_
      by_cases hrebound : ∃ rules, Rebound m T now plan drift rules
      · refine .inr ?_
        obtain ⟨rules, hrebound⟩ := hrebound
        obtain ⟨-, happart⟩ := h _ (proposePlanRepair_auto_iff.2
          (.inr ⟨Bool.eq_false_iff.2 hunchanged, rules, hrebound, rfl⟩))
        intro r hr r' hr' hne old old' f hold hold' hmoves hresolves
        obtain ⟨s, hs, hrs⟩ := mem_zip_of_forall₂ hrebound.rebinds hr
        obtain ⟨s', hs', hrs'⟩ := mem_zip_of_forall₂ hrebound.rebinds hr'
        obtain ⟨found, g, hfound, hg, hgid⟩ := hrs.source
        obtain ⟨found', g', hfound', hg', hgid'⟩ := hrs'.source
        obtain rfl : old = found := Option.some.inj (hold.symm.trans hfound)
        obtain rfl : old' = found' := Option.some.inj (hold'.symm.trans hfound')
        obtain rfl := hg.unique (.moved hmoves)
        obtain rfl := hg'.unique hresolves
        exact hne ((happart _ hs _ hs').2 (hgid.trans hgid'.symm))
      · exact .inl hrebound
  · intro h plan' hrepairs
    rcases proposePlanRepair_auto_iff.1 hrepairs with ⟨-, rfl⟩ | ⟨hdrifted, rules, hrebound, rfl⟩
    · refine ⟨rfl, fun p hp q hq => ?_⟩
      rw [eq_of_mem_zip_self hp, eq_of_mem_zip_self hq]
    · rcases h with hunchanged | hnone | hnone
      · rw [hdrifted] at hunchanged
        cases hunchanged
      · exact absurd ⟨rules, hrebound⟩ hnone
      · exact sourcesApart_of_rebound hrebound hnone

/-! ## Relations -/

/-- Two fields refer through relations to the same target, with the same type of one lookup
column. -/
def SameRelation (old new : SchemaDescriptor) (column oldFieldId newFieldId : String) : Prop :=
  ∃ r r' key key', old.relationForSourceField oldFieldId = some r ∧
    new.relationForSourceField newFieldId = some r' ∧ r.lookupKey column = some key ∧
    r'.lookupKey column = some key' ∧ r'.targetSchema = r.targetSchema ∧
    r'.targetContainer = r.targetContainer ∧ r'.targetField = r.targetField ∧
    key'.dataType = key.dataType

/-- Every lookup of a repaired plan follows the relation of its rule in the baseline. -/
def RelationsKept (plan plan' : MappingPlan) (drift : Drift) : Prop :=
  ∀ p ∈ plan.rules.zip plan'.rules, p.1.transform = "lookup_foreign_key" →
    ∃ column, p.1.parameter "match_column" = some column ∧
      SameRelation drift.oldTarget drift.newTarget column p.1.targetFieldId p.2.targetFieldId

/-- The relation that the new schema declares for a field has the target of the relation that the
old schema declares for another field, and does not retype the lookup column. -/
def NotRedirected (old new : SchemaDescriptor) (column oldFieldId newFieldId : String) : Prop :=
  ∀ r ∈ old.relations, ∀ r' ∈ new.relations, r.sourceFieldId = oldFieldId →
    r'.sourceFieldId = newFieldId → r'.targetSchema = r.targetSchema ∧
      r'.targetContainer = r.targetContainer ∧ r'.targetField = r.targetField ∧
      ∀ key ∈ r.lookupKeys, ∀ key' ∈ r'.lookupKeys, key.name = column → key'.name = column →
        key'.dataType = key.dataType

/-- A lookup key that a rule selects is a key of the relation of its target. -/
theorem ruleLookupKey_isSome {rule : MappingRule} {target : FieldDescriptor}
    {schema : SchemaDescriptor}
    (h : (PlanValidator.ruleLookupKey rule target schema).isSome = true) :
    ∃ r column key, schema.relationForSourceField target.id = some r ∧
      rule.parameter "match_column" = some column ∧ r.lookupKey column = some key := by
  obtain ⟨key, hkey⟩ := Option.isSome_iff_exists.1 h
  unfold PlanValidator.ruleLookupKey at hkey
  obtain ⟨r, hr, hkey⟩ := Option.bind_eq_some_iff.1 hkey
  obtain ⟨column, hcolumn, hkey⟩ := Option.bind_eq_some_iff.1 hkey
  exact ⟨r, column, key, hr, hcolumn, hkey⟩

/-- A lookup rule of a valid plan selects a key that its target's relation declares. -/
theorem lookup_of_valid {H : Host} {sourceSchema targetSchema : SchemaDescriptor}
    (h : (PlanValidator.validate H plan sourceSchema targetSchema).valid = true)
    {rule : MappingRule} (hrule : rule ∈ plan.rules)
    (hlookup : rule.transform = "lookup_foreign_key") :
    ∃ r column key, targetSchema.relationForSourceField rule.targetFieldId = some r ∧
      rule.parameter "match_column" = some column ∧ r.lookupKey column = some key := by
  obtain ⟨source, target, -, htarget, hfindings⟩ := (PlanValidator.rules_of_valid (fun _ h => h)
    (PlanValidator.not_blocking_of_valid h)).2 rule hrule
  have hid := (SchemaDescriptor.fieldById?_eq_some htarget).2
  have hkey : (PlanValidator.ruleLookupKey rule target targetSchema).isSome = true := by
    unfold PlanValidator.routeFindings at hfindings
    rw [hlookup, if_neg (by decide)] at hfindings
    split at hfindings
    · exact absurd rfl (hfindings _ List.mem_cons_self)
    · have hcontract := fun f hf => hfindings f (List.mem_append_right _ hf)
      unfold PlanValidator.contractFindings at hcontract
      rw [if_neg (by rw [hlookup]; decide), if_pos hlookup] at hcontract
      dsimp only at hcontract
      split at hcontract
      · exact absurd rfl (hcontract _ List.mem_cons_self)
      · rename_i hexact
        exact (not_not.1 hexact).2.1
  rw [← hid]
  exact ruleLookupKey_isSome hkey

theorem sameRelation_iff {old new : SchemaDescriptor} {column oldFieldId newFieldId : String}
    {r r' : RelationDescriptor} {key key' : LookupKeyDescriptor}
    (hr : old.relationForSourceField oldFieldId = some r)
    (hr' : new.relationForSourceField newFieldId = some r') (hkey : r.lookupKey column = some key)
    (hkey' : r'.lookupKey column = some key') :
    SameRelation old new column oldFieldId newFieldId ↔
      NotRedirected old new column oldFieldId newFieldId := by
  constructor
  · rintro ⟨s, s', k, k', hs, hs', hk, hk', hschema, hcontainer, hfield, htype⟩
    intro q hq q' hq' hqid hqid'
    obtain rfl : s = q :=
      Option.some.inj (hs.symm.trans ((Table.UniqueBy.selectBy_eq_some old.relationFields.1).2
        ⟨hq, hqid⟩))
    obtain rfl : s' = q' :=
      Option.some.inj (hs'.symm.trans ((Table.UniqueBy.selectBy_eq_some new.relationFields.1).2
        ⟨hq', hqid'⟩))
    refine ⟨hschema, hcontainer, hfield, fun l hl l' hl' hname hname' => ?_⟩
    obtain rfl : k = l :=
      Option.some.inj (hk.symm.trans (hname ▸ RelationDescriptor.lookupKey_name hl))
    obtain rfl : k' = l' :=
      Option.some.inj (hk'.symm.trans (hname' ▸ RelationDescriptor.lookupKey_name hl'))
    exact htype
  · intro h
    have hfound := h r (List.mem_of_find?_eq_some hr) r' (List.mem_of_find?_eq_some hr')
      (by simpa using List.find?_some hr) (by simpa using List.find?_some hr')
    refine ⟨r, r', key, key', hr, hr', hkey, hkey', hfound.1, hfound.2.1, hfound.2.2.1, ?_⟩
    exact hfound.2.2.2 key (List.mem_of_find?_eq_some hkey) key' (List.mem_of_find?_eq_some hkey')
      (by simpa using List.find?_some hkey) (by simpa using List.find?_some hkey')

/-- No relation that a lookup of the plan follows is redirected in the new target schema. -/
def NoneRedirected (m : HybridMatcher S) (T : TextHost) (plan : MappingPlan) (drift : Drift) :
    Prop :=
  ∀ rule ∈ plan.rules, rule.transform = "lookup_foreign_key" → ∀ column old target,
    rule.parameter "match_column" = some column →
    drift.oldTarget.fieldById? rule.targetFieldId = some old →
    Resolves m T drift.newTarget old target →
    NotRedirected drift.oldTarget drift.newTarget column rule.targetFieldId target.id

/-- The relations of the plan's lookups stand in the new target schema under the same field ids. -/
def RelationsInPlace (plan : MappingPlan) (drift : Drift) : Prop :=
  ∀ rule ∈ plan.rules, rule.transform = "lookup_foreign_key" → ∃ column,
    rule.parameter "match_column" = some column ∧
      SameRelation drift.oldTarget drift.newTarget column rule.targetFieldId rule.targetFieldId

theorem Rebinds.target {rule rule' : MappingRule} (h : Rebinds m T drift rule rule') :
    ∃ old target, drift.oldTarget.fieldById? rule.targetFieldId = some old ∧
      Resolves m T drift.newTarget old target ∧ rule'.targetFieldId = target.id ∧
      lookupPathExists rule target drift.newTarget = true := by
  obtain ⟨-, old, -, target, -, hold, -, htarget, hpath, rfl⟩ := h
  exact ⟨old, target, hold, htarget, rfl, hpath⟩

/-- A lookup rule that is rebound follows the same relation exactly when the new schema did not
redirect it. -/
theorem sameRelation_of_rebinds {rule rule' : MappingRule} {r : RelationDescriptor}
    {column : String} {key : LookupKeyDescriptor} (h : Rebinds m T drift rule rule')
    (hlookup : rule.transform = "lookup_foreign_key")
    (hr : drift.oldTarget.relationForSourceField rule.targetFieldId = some r)
    (hcolumn : rule.parameter "match_column" = some column) (hkey : r.lookupKey column = some key) :
    SameRelation drift.oldTarget drift.newTarget column rule.targetFieldId rule'.targetFieldId ↔
      NotRedirected drift.oldTarget drift.newTarget column rule.targetFieldId
        rule'.targetFieldId := by
  obtain ⟨old, target, hold, htarget, hid, hpath⟩ := h.target
  have hnew : (PlanValidator.ruleLookupKey rule target drift.newTarget).isSome = true := by
    simpa [lookupPathExists, hlookup] using hpath
  obtain ⟨r', column', key', hr', hcolumn', hkey'⟩ := ruleLookupKey_isSome hnew
  obtain rfl : column = column' := Option.some.inj (hcolumn.symm.trans hcolumn')
  rw [hid]
  exact sameRelation_iff hr hr' hkey hkey'

/-- **An automatic repair keeps the relations of lookups** exactly when unchanged schemas have them
in place, and changed schemas admit no automatic repair or redirect none of them. -/
theorem repair_keeps_relations_iff (m : HybridMatcher S) (T : TextHost) (now : Instant)
    (plan : MappingPlan) (drift : Drift)
    (hvalid : (PlanValidator.validate T.toHost plan drift.oldSource drift.oldTarget).valid = true) :
    (∀ plan', Repairs m T now plan drift plan' → RelationsKept plan plan' drift) ↔
      (drift.unchanged T.toHost plan = true → RelationsInPlace plan drift) ∧
        (drift.unchanged T.toHost plan = false →
          (¬∃ rules, Rebound m T now plan drift rules) ∨ NoneRedirected m T plan drift) := by
  constructor
  · intro h
    constructor
    · intro hunchanged rule hrule hlookup
      have hkept := h plan (proposePlanRepair_auto_iff.2 (.inl ⟨hunchanged, rfl⟩))
      obtain ⟨rule', hmem, rfl⟩ := mem_zip_of_forall₂
        (List.forall₂_same.2 fun rule _ => rfl : List.Forall₂ (· = ·) plan.rules plan.rules) hrule
      exact hkept _ hmem hlookup
    · intro hdrifted
      by_cases hrebound : ∃ rules, Rebound m T now plan drift rules
      · refine .inr ?_
        obtain ⟨rules, hrebound⟩ := hrebound
        have hkept := h _ (proposePlanRepair_auto_iff.2 (.inr ⟨hdrifted, rules, hrebound, rfl⟩))
        intro rule hrule hlookup column old target hcolumn hold htarget
        obtain ⟨rule', hmem, hrebinds⟩ := mem_zip_of_forall₂ hrebound.rebinds hrule
        obtain ⟨column', hcolumn', hsame⟩ := hkept _ hmem hlookup
        obtain rfl : column = column' := Option.some.inj (hcolumn.symm.trans hcolumn')
        obtain ⟨r, column', key, hr, hcolumn', hkey⟩ := lookup_of_valid hvalid hrule hlookup
        obtain rfl : column = column' := Option.some.inj (hcolumn.symm.trans hcolumn')
        obtain ⟨old', target', hold', htarget', hid, -⟩ := hrebinds.target
        obtain rfl : old = old' := Option.some.inj (hold.symm.trans hold')
        rw [htarget.unique htarget', ← hid]
        exact (sameRelation_of_rebinds hrebinds hlookup hr hcolumn hkey).1 hsame
      · exact .inl hrebound
  · rintro ⟨hsame, hdrift⟩ plan' hrepairs
    rcases proposePlanRepair_auto_iff.1 hrepairs with
      ⟨hunchanged, rfl⟩ | ⟨hdrifted, rules, hrebound, rfl⟩
    · intro p hp hlookup
      have heq := eq_of_mem_zip_self hp
      rw [← heq]
      exact hsame hunchanged p.1 (List.of_mem_zip hp).1 hlookup
    · rintro ⟨rule, rule'⟩ hp hlookup
      have hrule := (List.of_mem_zip hp).1
      have hrebinds := List.forall₂_zip hrebound.rebinds hp
      obtain ⟨r, column, key, hr, hcolumn, hkey⟩ := lookup_of_valid hvalid hrule hlookup
      obtain ⟨old, target, hold, htarget, hid, -⟩ := hrebinds.target
      refine ⟨column, hcolumn, ?_⟩
      rw [sameRelation_of_rebinds hrebinds hlookup hr hcolumn hkey, hid]
      rcases hdrift hdrifted with hnone | hnone
      · exact absurd ⟨rules, hrebound⟩ hnone
      · exact hnone rule hrule hlookup column old target hcolumn hold htarget

end Guarantees

/-! ## A drift that does both -/

/-- A key column. -/
def keyColumn (id : String) : FieldDescriptor :=
  { id, name := "n", dataType := .string, role := .naturalKey }

/-- A reference to a container, which can be looked up by a text. -/
def containerRelation (container : String) : RelationDescriptor where
  sourceFieldId := "f"
  targetContainer := container
  targetField := "id"
  lookupKeys := [{ name := "k", dataType := .string }]

/-- A target with one reference and one text. -/
def referringTarget (container : String) : SchemaDescriptor where
  id := "t"
  fields := [{ id := "f", name := "p", dataType := .integer, role := .foreignKey },
    { id := "g", name := "q", dataType := .string }]
  relations := [containerRelation container]
  relationFields := by constructor <;> simp [containerRelation]

/-- The first of two columns of one name is gone, and the reference leads elsewhere. -/
def redirectedDrift : Drift where
  oldSource := { id := "s", fields := [keyColumn "a", keyColumn "b"] }
  newSource := { id := "s", fields := [keyColumn "b"] }
  oldTarget := referringTarget "buyers"
  newTarget := referringTarget "sellers"

/-- The first column is looked up, the second one copied. -/
def lookupRules (first second : String) : List MappingRule :=
  [{ sourceFieldId := first, targetFieldId := "f", transform := "lookup_foreign_key",
     parameters := [("match_column", "k")] },
   { sourceFieldId := second, targetFieldId := "g" }]

/-- The plan that was approved for the schemas before the drift. -/
noncomputable def approvedPlan : MappingPlan where
  id := "plan"
  sourceSchemaId := "s"
  targetSchemaId := "t"
  sourceFingerprint := redirectedDrift.oldSource.fingerprint standardTextHost.toHost
  targetFingerprint := redirectedDrift.oldTarget.fingerprint standardTextHost.toHost
  rules := lookupRules "a" "b"
  createdAt := ⟨⟨2026, 1, 1, 0, 0, 0, 0⟩, Utc.valid_newYear2026⟩

theorem approvedPlan_valid : (PlanValidator.validate standardTextHost.toHost approvedPlan
    redirectedDrift.oldSource redirectedDrift.oldTarget).valid = true := by
  rw [validate_bound rfl rfl rfl rfl]
  decide +kernel

theorem redirectedDrift_changed :
    redirectedDrift.unchanged standardTextHost.toHost approvedPlan = false := by
  have hdrift : redirectedDrift.newSource.fingerprint standardTextHost.toHost ≠
      redirectedDrift.oldSource.fingerprint standardTextHost.toHost := by
    decide +kernel
  unfold Drift.unchanged
  rw [Bool.and_eq_false_iff]
  exact .inl (decide_eq_false hdrift)

/-- The matcher without models. -/
def plainMatcher : HybridMatcher Rat := {}

theorem moves_twin : Moves plainMatcher standardTextHost redirectedDrift.newSource (keyColumn "a")
    (keyColumn "b") where
  unstable := by decide +kernel
  decided := by
    have hany : ((plainMatcher.decide standardTextHost (keyColumn "a")
        redirectedDrift.newSource).toOption.any fun d =>
          d.status = .auto && d.targetFieldId = some (keyColumn "b").id) = true := by
      decide +kernel
    cases hd : plainMatcher.decide standardTextHost (keyColumn "a") redirectedDrift.newSource with
    | error e =>
        rw [hd] at hany
        cases hany
    | ok d =>
        rw [hd] at hany
        obtain ⟨hauto, htarget⟩ := Bool.and_eq_true_iff.1 hany
        exact ⟨d, rfl, of_decide_eq_true hauto, of_decide_eq_true htarget⟩
  mem := List.mem_cons_self
  sensitivity := rfl
  dataType := rfl

theorem stableField_self {S : Type} [ScoreArith S] {T : TextHost} {schema : SchemaDescriptor}
    {f : FieldDescriptor} (h : f ∈ schema.fields) : stableField S T f schema = some f := by
  unfold stableField
  rw [SchemaDescriptor.fieldById?_of_mem h]
  simp [descriptorIsStable]

/-- The rebound rules raise no finding in the new schemas. -/
theorem lookupRules_clean : ∀ item ∈ (boundFindings (lookupRules "b" "b")
    redirectedDrift.newSource redirectedDrift.newTarget).findings, item.severity = .info := by
  decide +kernel

theorem redirectedDrift_rebound (now : Instant) :
    Rebound plainMatcher standardTextHost now approvedPlan redirectedDrift (lookupRules "b" "b") where
  rebinds := by
    have hkept : ∀ {old : FieldDescriptor} {schema : SchemaDescriptor}, old ∈ schema.fields →
        Resolves plainMatcher standardTextHost schema old old := fun h => .kept (stableField_self h) rfl
    refine .cons ?_ (.cons ?_ .nil)
    · refine ⟨keyColumn "a", _, keyColumn "b", _, by decide, rfl, .moved moves_twin,
        hkept List.mem_cons_self, by decide, rfl⟩
    · refine ⟨keyColumn "b", _, keyColumn "b", _, by decide, rfl, hkept List.mem_cons_self,
        hkept (List.mem_cons_of_mem _ List.mem_cons_self), by decide, rfl⟩
  clean := by
    rw [validate_bound rfl rfl rfl rfl]
    exact lookupRules_clean

/-- The drift is repaired automatically. -/
theorem redirectedDrift_repairs (now : Instant) :
    Repairs plainMatcher standardTextHost now approvedPlan redirectedDrift
      (repairedPlan standardTextHost.toHost now approvedPlan redirectedDrift (lookupRules "b" "b")) :=
  proposePlanRepair_auto_iff.2
    (.inr ⟨redirectedDrift_changed, _, redirectedDrift_rebound now, rfl⟩)

/-- The repair reads both targets from one source field. -/
theorem repair_merges_sources : ∃ now plan',
    Repairs plainMatcher standardTextHost now approvedPlan redirectedDrift plan' ∧
      ¬SourcesApart approvedPlan plan' := by
  refine ⟨⟨⟨2026, 1, 1, 0, 0, 0, 0⟩, Utc.valid_newYear2026⟩, _, redirectedDrift_repairs _, ?_⟩
  rintro ⟨-, happart⟩
  have hsame := (happart (_, _) List.mem_cons_self (_, _)
    (List.mem_cons_of_mem _ List.mem_cons_self)).2 rfl
  revert hsame
  decide

/-- The repair looks values up in another container. -/
theorem repair_redirects_lookup : ∃ now plan',
    (PlanValidator.validate standardTextHost.toHost approvedPlan redirectedDrift.oldSource
      redirectedDrift.oldTarget).valid = true ∧
    Repairs plainMatcher standardTextHost now approvedPlan redirectedDrift plan' ∧
      ¬RelationsKept approvedPlan plan' redirectedDrift := by
  refine ⟨⟨⟨2026, 1, 1, 0, 0, 0, 0⟩, Utc.valid_newYear2026⟩, _, approvedPlan_valid,
    redirectedDrift_repairs _, ?_⟩
  intro hkept
  obtain ⟨column, -, r, r', key, key', hr, hr', -, -, -, hcontainer, -⟩ :=
    hkept (_, _) List.mem_cons_self rfl
  obtain rfl := Option.some.inj hr
  obtain rfl := Option.some.inj hr'
  revert hcontainer
  decide

theorem repair_keeps_relations_iff_sample :
    ¬∀ plan', Repairs plainMatcher standardTextHost ⟨⟨2026, 1, 1, 0, 0, 0, 0⟩, Utc.valid_newYear2026⟩
        approvedPlan redirectedDrift plan' → RelationsKept approvedPlan plan' redirectedDrift := by
  rw [repair_keeps_relations_iff plainMatcher standardTextHost _ approvedPlan redirectedDrift
    approvedPlan_valid]
  rintro ⟨-, hchanged⟩
  rcases hchanged redirectedDrift_changed with hnone | hnone
  · exact hnone ⟨_, redirectedDrift_rebound _⟩
  · have hsame := hnone _ List.mem_cons_self rfl "k" _ _ rfl rfl
      (.kept (stableField_self List.mem_cons_self) rfl) _ List.mem_cons_self _ List.mem_cons_self
      rfl rfl
    exact absurd hsame.2.1 (by decide)

end Polymorph
