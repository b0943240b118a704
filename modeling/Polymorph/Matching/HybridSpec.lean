import Polymorph.Matching.Hybrid

/-!
# What a proposal guarantees

For every score arithmetic, every configuration and every model: candidates are the target fields
with their deterministic scores, an automatic decision names a target with a safe contract, and no
two automatic decisions of a proposal name one target.
-/

set_option autoImplicit false

namespace Polymorph

open ScoreArith

namespace HybridMatcher

variable {S : Type} [ScoreArith S] {m : HybridMatcher S} {T : TextHost} {glossary : Glossary}
  {source : FieldDescriptor} {sourceSchema targetSchema : SchemaDescriptor}

/-! ## Candidates -/

/-- The items carry the ids and deterministic scores of the target fields. -/
def Represents {α : Type} (T : TextHost) (source : FieldDescriptor)
    (targetSchema : SchemaDescriptor) (ident : α → String) (key : α → S) (items : List α) : Prop :=
  (items.map fun item => (ident item, key item)).Perm
    (targetSchema.fields.map fun target =>
      (target.id, (deterministicScore S T source target targetSchema).1))

/-- Candidates for the target fields. -/
abbrev Candidates (T : TextHost) (source : FieldDescriptor) (targetSchema : SchemaDescriptor)
    (candidates : List (MappingCandidate S)) : Prop :=
  Represents T source targetSchema MappingCandidate.targetFieldId
    MappingCandidate.deterministicScore candidates

section Represents

variable {α : Type} {ident : α → String} {key : α → S} {items : List α}

theorem Represents.perm {items' : List α} (h : Represents T source targetSchema ident key items)
    (hperm : items'.Perm items) : Represents T source targetSchema ident key items' :=
  (hperm.map _).trans h

/-- An item stands for a target field. -/
theorem Represents.field (h : Represents T source targetSchema ident key items) {item : α}
    (hitem : item ∈ items) :
    ∃ target ∈ targetSchema.fields, target.id = ident item ∧
      (deterministicScore S T source target targetSchema).1 = key item := by
  obtain ⟨target, htarget, heq⟩ := List.mem_map.1 (h.mem_iff.1 (List.mem_map.2 ⟨item, hitem, rfl⟩))
  exact ⟨target, htarget, congrArg Prod.fst heq, congrArg Prod.snd heq⟩

/-- A target field has an item. -/
theorem Represents.item (h : Represents T source targetSchema ident key items)
    {target : FieldDescriptor} (htarget : target ∈ targetSchema.fields) :
    ∃ item ∈ items, ident item = target.id ∧
      key item = (deterministicScore S T source target targetSchema).1 := by
  obtain ⟨item, hitem, heq⟩ := List.mem_map.1 (h.mem_iff.2 (List.mem_map.2 ⟨target, htarget, rfl⟩))
  exact ⟨item, hitem, congrArg Prod.fst heq, congrArg Prod.snd heq⟩

/-- Items have distinct ids. -/
theorem Represents.nodup (h : Represents T source targetSchema ident key items) :
    (items.map ident).Nodup := by
  have hids : (items.map ident).Perm (targetSchema.fields.map FieldDescriptor.id) := by
    simpa only [List.map_map, Function.comp_def] using h.map Prod.fst
  exact hids.nodup_iff.2 targetSchema.fieldIds

end Represents

theorem represents_evidence :
    Represents T source targetSchema (fun item => item.1.id) (fun item => item.2.1)
      (deterministicEvidence (S := S) T source targetSchema) := by
  unfold Represents deterministicEvidence
  rw [List.map_map]
  exact List.Perm.refl _

theorem zipStrict_eq_ok {α β : Type} {left : List α} {right : List β} {pairs : List (α × β)}
    (h : zipStrict left right = .ok pairs) :
    left.length = right.length ∧ pairs = left.zip right := by
  unfold zipStrict at h
  split at h
  · cases h
  · split at h
    · cases h
    · rename_i hshorter hlonger
      exact ⟨by omega, (Except.ok.inj h).symm⟩

theorem zipStrict_of_length {α β : Type} {left : List α} {right : List β}
    (h : left.length = right.length) : zipStrict left right = .ok (left.zip right) := by
  unfold zipStrict
  rw [if_neg (by omega), if_neg (by omega)]

theorem candidates_initialCandidates {candidates : List (MappingCandidate S)}
    (h : m.initialCandidates T source targetSchema = .ok candidates) :
    Candidates T source targetSchema candidates := by
  unfold initialCandidates at h
  obtain ⟨scores, -, h⟩ := bind_eq_ok h
  obtain ⟨paired, hpaired, h⟩ := bind_eq_ok h
  cases h
  obtain ⟨hlength, rfl⟩ := zipStrict_eq_ok hpaired
  refine Represents.perm ?_ (sortedByReverse_perm _ _)
  have hfst := (@List.map_fst_zip _ _ (deterministicEvidence (S := S) T source targetSchema) scores)
      (le_of_eq hlength)
  have hevidence := @represents_evidence S _ T source targetSchema
  unfold Represents at hevidence ⊢
  rw [← hfst, List.map_map] at hevidence
  rw [List.map_map]
  exact hevidence

theorem candidates_reranked {candidates : List (MappingCandidate S)} {scores : List S} {count : Nat}
    (h : Candidates T source targetSchema candidates)
    (hlength : scores.length = (candidates.take count).length) :
    Candidates T source targetSchema
      ((((candidates.take count).zip scores).map fun pair => m.rerankedCandidate pair.1 pair.2) ++
        candidates.drop count) := by
  have hfst := (@List.map_fst_zip _ _ (candidates.take count) scores) (le_of_eq hlength.symm)
  unfold Candidates Represents at h ⊢
  rw [← List.take_append_drop count candidates, ← hfst] at h
  rw [List.map_append, List.map_map] at h ⊢
  exact h

theorem candidates_candidatesFor {candidates : List (MappingCandidate S)}
    (h : m.candidatesFor T source targetSchema = .ok candidates) :
    Candidates T source targetSchema candidates := by
  unfold candidatesFor at h
  obtain ⟨initial, hinitial, h⟩ := bind_eq_ok h
  have hcandidates := candidates_initialCandidates hinitial
  split at h
  · rename_i rerank first second rest _
    dsimp only at h
    split at h
    · cases h
      exact hcandidates
    · split at h
      · cases h
        exact hcandidates
      · obtain ⟨scores, -, h⟩ := bind_eq_ok h
        split at h
        · cases h
          exact hcandidates
        · rename_i hlength
          cases h
          exact (candidates_reranked hcandidates (not_not.1 hlength)).perm (sortedByReverse_perm _ _)
  · cases h
    exact hcandidates

/-! ## Decisions -/

theorem verdict_deterministicOk_iff {top deterministicTop : MappingCandidate S} {margin : S}
    {target : FieldDescriptor} :
    (m.verdict T source targetSchema top deterministicTop margin target).deterministicOk = true ↔
      deterministicTop.targetFieldId = top.targetFieldId ∧
        le m.deterministicAutoFloor deterministicTop.deterministicScore = true ∧
        le m.deterministicMinimumMargin margin = true ∧
        automaticMappingContractSafe S T source target targetSchema = true := by
  unfold verdict
  simp only [Bool.and_eq_true, Bool.or_eq_true, decide_eq_true_eq]
  constructor
  · rintro ⟨⟨⟨⟨⟨hsame, hfloor⟩, hmargin⟩, -⟩, -⟩, hcontract⟩
    exact ⟨hsame, hfloor, hmargin, hcontract⟩
  · rintro ⟨hsame, hfloor, hmargin, hcontract⟩
    -- A safe contract implies the separate checks of types and roles.
    have hkinds := (automaticMappingContractSafe_iff.1 hcontract).2.2
    exact ⟨⟨⟨⟨⟨hsame, hfloor⟩, hmargin⟩, hkinds.elim .inr fun h => .inl h.1⟩,
      hkinds.elim .inr fun h => .inl h.2⟩, hcontract⟩

/-- What holds of the decision about a field, whatever the models say. -/
structure Sound (S : Type) [ScoreArith S] (T : TextHost) (targetSchema : SchemaDescriptor)
    (source : FieldDescriptor) (d : MappingDecision S) : Prop where
  source_eq : d.sourceFieldId = source.id
  target_none : d.targetFieldId = none ↔ d.status = .blocked
  contract : d.status = .auto → ∃ target ∈ targetSchema.fields, d.targetFieldId = some target.id ∧
    automaticMappingContractSafe S T source target targetSchema = true

theorem decision_status_auto {top deterministicTop : MappingCandidate S} {margin : S} {v : Verdict}
    (h : (m.decision source top deterministicTop margin v).status = .auto) :
    le m.autoThreshold top.score = true ∧ le m.minimumMargin margin = true ∧
      v.deterministicOk = true := by
  unfold decision at h
  dsimp only at h
  split at h
  · rename_i hauto
    simpa only [Bool.and_eq_true, and_assoc] using hauto
  · split at h <;> cases h

theorem decision_targetFieldId {top deterministicTop : MappingCandidate S} {margin : S}
    {v : Verdict} :
    (m.decision source top deterministicTop margin v).targetFieldId =
      if (m.decision source top deterministicTop margin v).status = .blocked then none
      else some top.targetFieldId := rfl

theorem decide_sound {d : MappingDecision S} (h : m.decide T source targetSchema = .ok d) :
    Sound S T targetSchema source d := by
  unfold HybridMatcher.decide at h
  obtain ⟨candidates, -, h⟩ := bind_eq_ok h
  dsimp only at h
  split at h
  · rename_i top _ deterministicTop _ _ _
    split at h
    · cases h
    · rename_i target htarget
      cases h
      obtain ⟨hmem, hid⟩ := SchemaDescriptor.fieldById?_eq_some htarget
      refine ⟨rfl, ?_, ?_⟩
      · rw [decision_targetFieldId]
        split
        · rename_i hblocked
          simp [hblocked]
        · rename_i hblocked
          simp [hblocked]
      · intro hauto
        obtain ⟨-, -, hok⟩ := decision_status_auto hauto
        obtain ⟨hsame, -, -, hcontract⟩ := verdict_deterministicOk_iff.1 hok
        refine ⟨target, hmem, ?_, hcontract⟩
        rw [decision_targetFieldId, hauto, hid, hsame]
        rfl
  · cases h
    exact ⟨rfl, ⟨fun _ => rfl, fun _ => rfl⟩, nofun⟩

theorem withGlossary_sound {d : MappingDecision S} (h : Sound S T targetSchema source d) :
    Sound S T targetSchema source (withGlossary T glossary targetSchema source d) := by
  unfold withGlossary
  split
  · exact h
  · split
    · exact h
    · split
      · exact h
      · exact ⟨rfl, ⟨nofun, nofun⟩, nofun⟩

/-! ## Conflicts -/

/-- The decisions that the conflict pass reads. -/
def Advised (m : HybridMatcher S) (T : TextHost) (glossary : Glossary)
    (targetSchema : SchemaDescriptor) (source : FieldDescriptor) (a : MappingDecision S) : Prop :=
  ∃ d, m.decide T source targetSchema = .ok d ∧ a = withGlossary T glossary targetSchema source d

theorem Advised.sound {a : MappingDecision S}
    (h : Advised m T glossary targetSchema source a) : Sound S T targetSchema source a := by
  obtain ⟨d, hd, rfl⟩ := h
  exact withGlossary_sound (decide_sound hd)

theorem forall₂_advised {fields : List FieldDescriptor} {decisions : List (MappingDecision S)}
    (h : List.Forall₂ (fun u d => m.decide T u targetSchema = .ok d) fields decisions) :
    List.Forall₂ (Advised m T glossary targetSchema) fields
      ((fields.zip decisions).map fun pair =>
        withGlossary T glossary targetSchema pair.1 pair.2) := by
  induction h with
  | nil => exact .nil
  | cons hd _ ih => exact .cons ⟨_, hd, rfl⟩ ih

theorem exists_decisions {fields : List FieldDescriptor} {advised : List (MappingDecision S)}
    (h : List.Forall₂ (Advised m T glossary targetSchema) fields advised) :
    ∃ decisions, List.Forall₂ (fun u d => m.decide T u targetSchema = .ok d) fields decisions ∧
      advised = (fields.zip decisions).map fun pair =>
        withGlossary T glossary targetSchema pair.1 pair.2 := by
  induction h with
  | nil => exact ⟨[], .nil, rfl⟩
  | cons ha _ ih =>
      obtain ⟨d, hd, rfl⟩ := ha
      obtain ⟨decisions, hdecisions, rfl⟩ := ih
      exact ⟨d :: decisions, .cons hd hdecisions, rfl⟩

theorem sources_of_advised {fields : List FieldDescriptor} {advised : List (MappingDecision S)}
    (h : List.Forall₂ (Advised m T glossary targetSchema) fields advised) :
    advised.map MappingDecision.sourceFieldId = fields.map FieldDescriptor.id := by
  induction h with
  | nil => rfl
  | cons ha _ ih => rw [List.map_cons, List.map_cons, ih, ha.sound.source_eq]

theorem propose_eq_ok {ds : List (MappingDecision S)}
    (h : m.propose T glossary sourceSchema targetSchema = .ok ds) :
    ∃ advised, List.Forall₂ (Advised m T glossary targetSchema) sourceSchema.fields advised ∧
      ds = withConflicts advised := by
  unfold propose at h
  obtain ⟨decisions, hdecisions, h⟩ := bind_eq_ok h
  cases h
  exact ⟨_, forall₂_advised (forall₂_of_mapM hdecisions), rfl⟩

theorem propose_of_advised {advised : List (MappingDecision S)}
    (h : List.Forall₂ (Advised m T glossary targetSchema) sourceSchema.fields advised) :
    m.propose T glossary sourceSchema targetSchema = .ok (withConflicts advised) := by
  obtain ⟨decisions, hdecisions, rfl⟩ := exists_decisions h
  unfold propose
  rw [mapM_of_forall₂ hdecisions]
  rfl

omit [ScoreArith S] in
theorem claimed_eq_target {d : MappingDecision S} (h : d.status ≠ .blocked) :
    claimed d = d.targetFieldId := if_neg h

theorem claimed_of_sound {d : MappingDecision S} (h : Sound S T targetSchema source d) :
    claimed d = d.targetFieldId := by
  unfold claimed
  split
  · rename_i hblocked
    exact (h.target_none.2 hblocked).symm
  · rfl

omit [ScoreArith S] in
/-- A decision after the conflict pass. -/
theorem mem_withConflicts {advised : List (MappingDecision S)} {d : MappingDecision S}
    (h : d ∈ withConflicts advised) :
    ∃ a ∈ advised, d.sourceFieldId = a.sourceFieldId ∧ d.targetFieldId = a.targetFieldId ∧
      (d.status = .auto ↔ a.status = .auto ∧ conflicted advised a = false) ∧
      (d.status = .blocked ↔ a.status = .blocked) := by
  obtain ⟨a, ha, rfl⟩ := List.mem_map.1 h
  refine ⟨a, ha, ?_⟩
  cases hconflict : conflicted advised a with
  | true =>
      have hblocked : a.status ≠ .blocked := by
        intro hblocked
        simp [conflicted, claimed, hblocked] at hconflict
      simp [hblocked]
  | false => simp

omit [ScoreArith S] in
theorem mem_withConflicts_of_auto {advised : List (MappingDecision S)} {a : MappingDecision S}
    (ha : a ∈ advised) (hconflict : conflicted advised a = false) : a ∈ withConflicts advised :=
  List.mem_map.2 ⟨a, ha, by rw [hconflict]; rfl⟩

omit [ScoreArith S] in
/-- At most one automatic decision names a target. -/
theorem countP_auto_withConflicts {advised : List (MappingDecision S)} (target : String) :
    (withConflicts advised).countP
      (fun d => d.status = .auto ∧ d.targetFieldId = some target) ≤ 1 := by
  by_cases hany : ∃ d ∈ withConflicts advised, d.status = .auto ∧ d.targetFieldId = some target
  · obtain ⟨d, hd, hauto, htarget⟩ := hany
    obtain ⟨a, -, -, htargets, hstatus, -⟩ := mem_withConflicts hd
    obtain ⟨haauto, hconflict⟩ := hstatus.1 hauto
    have hclaim : claimed a = some target := by
      rw [claimed_eq_target (by rw [haauto]; nofun), ← htargets, htarget]
    rw [conflicted, hclaim] at hconflict
    have hfew : advised.countP (fun other => claimed other = some target) ≤ 1 := by
      simpa using hconflict
    refine le_trans ?_ hfew
    -- An automatic decision for the target claimed it before the pass.
    unfold withConflicts
    rw [List.countP_map]
    refine List.countP_mono_left ?_
    intro other _ hother
    simp only [Function.comp_apply, decide_eq_true_eq] at hother ⊢
    split at hother
    · cases hother.1
    · rw [claimed_eq_target (by rw [hother.1]; nofun)]
      exact hother.2
  · rw [List.countP_eq_zero.2 fun d hd h => hany ⟨d, hd, of_decide_eq_true h⟩]
    exact Nat.zero_le 1

/-- What holds of a proposal, whatever the models say. -/
structure ProposalSound (T : TextHost) (sourceSchema targetSchema : SchemaDescriptor)
    (ds : List (MappingDecision S)) : Prop where
  sources : ds.map MappingDecision.sourceFieldId = sourceSchema.fields.map FieldDescriptor.id
  targets : ∀ d ∈ ds, d.targetFieldId = none ↔ d.status = .blocked
  contracts : ∀ d ∈ ds, d.status = .auto → ∃ source ∈ sourceSchema.fields,
    ∃ target ∈ targetSchema.fields, d.sourceFieldId = source.id ∧
      d.targetFieldId = some target.id ∧
      automaticMappingContractSafe S T source target targetSchema = true
  unique : ∀ target, ds.countP (fun d => d.status = .auto ∧ d.targetFieldId = some target) ≤ 1

theorem propose_sound {ds : List (MappingDecision S)}
    (h : m.propose T glossary sourceSchema targetSchema = .ok ds) :
    ProposalSound T sourceSchema targetSchema ds := by
  obtain ⟨advised, hadvised, rfl⟩ := propose_eq_ok h
  refine ⟨?_, ?_, ?_, countP_auto_withConflicts⟩
  · rw [← sources_of_advised hadvised]
    unfold withConflicts
    rw [List.map_map]
    refine List.map_congr_left fun a _ => ?_
    simp only [Function.comp_apply]
    split <;> rfl
  · intro d hd
    obtain ⟨a, ha, -, htargets, -, hblocked⟩ := mem_withConflicts hd
    obtain ⟨source, -, hsource⟩ := forall₂_partner_right hadvised ha
    rw [htargets, hblocked]
    exact hsource.sound.target_none
  · intro d hd hauto
    obtain ⟨a, ha, hsources, htargets, hstatus, -⟩ := mem_withConflicts hd
    obtain ⟨source, hmem, hsource⟩ := forall₂_partner_right hadvised ha
    obtain ⟨target, htarget, hid, hcontract⟩ := hsource.sound.contract (hstatus.1 hauto).1
    exact ⟨source, hmem, target, htarget, hsources.trans hsource.sound.source_eq,
      htargets.trans hid, hcontract⟩

end HybridMatcher

end Polymorph
