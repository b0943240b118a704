import Polymorph.Matching.HybridSpec
import Polymorph.Matching.Ranking
import Mathlib.Tactic.NormNum

/-!
# Models and automatic decisions

With exact scores and the default thresholds, a field is decided automatically exactly where its
deterministic evidence is decisive, and then no model is consulted. What models change is the
target that an undecided field names for review, and with it which automatic decisions conflict.
-/

set_option autoImplicit false

namespace Polymorph

open ScoreArith

namespace HybridMatcher

/-- The thresholds of an automatic decision have their defaults. -/
structure DefaultThresholds (m : HybridMatcher Rat) : Prop where
  floor : m.deterministicAutoFloor = 0.90
  separation : m.deterministicMinimumMargin = 0.08
  threshold : m.autoThreshold = 0.86
  margin : m.minimumMargin = 0.08

/-- The matcher with `semantic=None` and `reranker=None`. -/
def withoutModels (m : HybridMatcher Rat) : HybridMatcher Rat :=
  { m with semantic := none, reranker := none }

/-- The deterministic score of a pair. -/
abbrev pairScore (T : TextHost) (source : FieldDescriptor) (targetSchema : SchemaDescriptor)
    (target : FieldDescriptor) : Rat :=
  (deterministicScore Rat T source target targetSchema).1

/-- The deterministic evidence for a target is decisive: strong, separated from every other target,
and with a safe contract. -/
structure Decisive (T : TextHost) (targetSchema : SchemaDescriptor)
    (source target : FieldDescriptor) : Prop where
  mem : target ∈ targetSchema.fields
  floor : 0.90 ≤ pairScore T source targetSchema target
  lead : ∀ other ∈ targetSchema.fields, other ≠ target →
    pairScore T source targetSchema other + 0.08 ≤ pairScore T source targetSchema target
  contract : automaticMappingContractSafe Rat T source target targetSchema = true

variable {m : HybridMatcher Rat} {T : TextHost} {glossary : Glossary}
  {source target : FieldDescriptor} {sourceSchema targetSchema : SchemaDescriptor}

/-! ## Decisive rankings -/

section Ranked

variable {α : Type} {ident : α → String} {key : α → Rat} {items rest : List α} {first : α}

/-- Distance of the first item to the second, or to zero. -/
def headMargin (key : α → Rat) (first : α) (rest : List α) : Rat :=
  key first - (rest.head?.map key).getD 0

theorem leadingMargin_map : leadingMargin ((first :: rest).map key) = headMargin key first rest := by
  cases rest with
  | nil => exact (sub_zero (key first)).symm
  | cons second rest => rfl

theorem secondScore_margin {key : MappingCandidate Rat → Rat} {first : MappingCandidate Rat}
    {rest : List (MappingCandidate Rat)} :
    sub (key first) (secondScore key (first :: rest)) = headMargin key first rest := by
  cases rest with
  | nil => rfl
  | cons second rest => rfl

/-- The head of a strong ranking leads by what separates it from the second item. -/
theorem leadsBy_iff_headMargin (h : (first :: rest).Pairwise (Outranks key))
    (hstrong : 0.90 ≤ key first) :
    LeadsBy key 0.08 first rest ↔ 0.08 ≤ headMargin key first rest := by
  cases rest with
  | nil =>
      have hmargin : headMargin key first [] = key first := sub_zero (key first)
      refine ⟨fun _ => ?_, fun _ => nofun⟩
      rw [hmargin]
      linarith
  | cons second rest => exact leadsBy_iff h

/-- A ranking of the targets decides by itself exactly when the evidence for its head is
decisive. -/
theorem decisive_iff_ranked (hitems : Represents T source targetSchema ident key (first :: rest))
    (hranked : (first :: rest).Pairwise (Outranks key)) (htarget : target ∈ targetSchema.fields)
    (hid : target.id = ident first) :
    Decisive T targetSchema source target ↔
      0.90 ≤ key first ∧ 0.08 ≤ headMargin key first rest ∧
        automaticMappingContractSafe Rat T source target targetSchema = true := by
  have hscore : pairScore T source targetSchema target = key first := by
    obtain ⟨found, hfound, hfoundId, hfoundScore⟩ := hitems.field List.mem_cons_self
    have hsame : found = target :=
      List.inj_on_of_nodup_map targetSchema.fieldIds hfound htarget (hfoundId.trans hid.symm)
    exact hsame ▸ hfoundScore
  -- Every other target is ranked behind the head, and only those are.
  have hothers : LeadsBy key 0.08 first rest ↔ ∀ other ∈ targetSchema.fields, other ≠ target →
      pairScore T source targetSchema other + 0.08 ≤ pairScore T source targetSchema target := by
    constructor
    · intro hleads other hother hne
      obtain ⟨item, hitem, hitemId, hitemScore⟩ := hitems.item hother
      rcases List.mem_cons.1 hitem with rfl | hrest
      · exact absurd (List.inj_on_of_nodup_map targetSchema.fieldIds hother htarget
          (hitemId.symm.trans hid.symm)) hne
      · have hlead := hleads item hrest
        rw [hitemScore] at hlead
        rw [hscore]
        exact hlead
    · intro hlead item hrest
      obtain ⟨other, hother, hotherId, hotherScore⟩ :=
        hitems.field (List.mem_cons_of_mem first hrest)
      have hne : other ≠ target := by
        rintro rfl
        have hnodup := hitems.nodup
        rw [List.map_cons, List.nodup_cons] at hnodup
        exact hnodup.1 (List.mem_map.2 ⟨item, hrest, hotherId.symm.trans hid⟩)
      have := hlead other hother hne
      rw [hscore] at this
      rw [← hotherScore]
      exact this
  constructor
  · intro h
    have hstrong : 0.90 ≤ key first := hscore ▸ h.floor
    exact ⟨hstrong, (leadsBy_iff_headMargin hranked hstrong).1 (hothers.2 h.lead), h.contract⟩
  · rintro ⟨hstrong, hmargin, hcontract⟩
    exact ⟨htarget, hscore ▸ hstrong,
      hothers.1 ((leadsBy_iff_headMargin hranked hstrong).2 hmargin), hcontract⟩

/-- A decisive target heads every deterministic ranking. -/
theorem Decisive.head (h : Decisive T targetSchema source target)
    (hitems : Represents T source targetSchema ident key (first :: rest))
    (hranked : (first :: rest).Pairwise (Outranks key)) : target.id = ident first := by
  obtain ⟨item, hitem, hitemId, hitemScore⟩ := hitems.item h.mem
  rcases List.mem_cons.1 hitem with rfl | hrest
  · exact hitemId.symm
  · obtain ⟨other, hother, hotherId, hotherScore⟩ := hitems.field List.mem_cons_self
    by_cases hsame : other = target
    · rw [← hsame, hotherId]
    · have hlead := h.lead other hother hsame
      have hbehind : key item ≤ key first := (List.pairwise_cons.1 hranked).1 item hrest
      rw [pairScore, pairScore, hotherScore, ← hitemScore] at hlead
      linarith

end Ranked

/-! ## Consulting models -/

theorem deterministicIsDecisive_iff (hm : DefaultThresholds m) :
    m.deterministicIsDecisive T source targetSchema = true ↔
      ∃ target, Decisive T targetSchema source target := by
  have hevidence := @represents_evidence Rat _ T source targetSchema
  unfold deterministicIsDecisive
  dsimp only
  have hscores := @map_sortedByReverse _ _
    (fun item : FieldDescriptor × Rat × List String => item.2.1) (fun item => item.2.1) id
    (deterministicEvidence (S := Rat) T source targetSchema) fun _ _ => rfl
  rw [← head?_sortedByReverse, ← hscores]
  have hperm := sortedByReverse_perm (fun item : FieldDescriptor × Rat × List String => item.2.1)
    (deterministicEvidence (S := Rat) T source targetSchema)
  have hranked := (@pairwise_sortedByReverse _ (fun item : FieldDescriptor × Rat × List String =>
      item.2.1))
    (deterministicEvidence (S := Rat) T source targetSchema)
  have hitems := hevidence.perm hperm
  cases hsorted : sortedByReverse (fun item : FieldDescriptor × Rat × List String => item.2.1)
      (deterministicEvidence (S := Rat) T source targetSchema) with
  | nil =>
      rw [hsorted] at hitems
      refine ⟨nofun, ?_⟩
      rintro ⟨target, h⟩
      obtain ⟨item, hitem, -⟩ := hitems.item h.mem
      cases hitem
  | cons first rest =>
      rw [hsorted] at hitems hranked hperm
      have hmem : first.1 ∈ targetSchema.fields := by
        obtain ⟨field, hfield, rfl⟩ := List.mem_map.1 (hperm.mem_iff.1 List.mem_cons_self)
        exact hfield
      have hiff := decisive_iff_ranked hitems hranked hmem rfl
      rw [leadingMargin_map, hm.floor, hm.separation]
      simp only [List.head?_cons, List.map_cons, le, Bool.and_eq_true, decide_eq_true_eq, and_assoc]
      constructor
      · exact fun h => ⟨first.1, hiff.2 h⟩
      · rintro ⟨target, h⟩
        have hhead := h.head hitems hranked
        have hsame : target = first.1 :=
          List.inj_on_of_nodup_map targetSchema.fieldIds h.mem hmem hhead
        exact hiff.1 (hsame ▸ h)

/-- Candidates in deterministic order: a head for a target, and when it decides by itself. -/
theorem deterministic_ranking {candidates : List (MappingCandidate Rat)}
    (hcandidates : Candidates T source targetSchema candidates) (hne : candidates ≠ []) :
    ∃ first rest target,
      sortedByReverse MappingCandidate.deterministicScore candidates = first :: rest ∧
      target ∈ targetSchema.fields ∧ target.id = first.targetFieldId ∧
      pairScore T source targetSchema target = first.deterministicScore ∧
      (∀ other ∈ targetSchema.fields,
        pairScore T source targetSchema other ≤ first.deterministicScore) ∧
      (Decisive T targetSchema source target ↔ 0.90 ≤ first.deterministicScore ∧
        0.08 ≤ headMargin MappingCandidate.deterministicScore first rest ∧
        automaticMappingContractSafe Rat T source target targetSchema = true) ∧
      ∀ other, Decisive T targetSchema source other → other = target := by
  have hperm := sortedByReverse_perm MappingCandidate.deterministicScore candidates
  have hranked := (@pairwise_sortedByReverse _ MappingCandidate.deterministicScore) candidates
  have hitems := hcandidates.perm hperm
  cases hsorted : sortedByReverse MappingCandidate.deterministicScore candidates with
  | nil =>
      rw [hsorted] at hperm
      exact absurd hperm.nil_eq.symm hne
  | cons first rest =>
      rw [hsorted] at hitems hranked
      obtain ⟨target, htarget, hid, hscore⟩ := hitems.field List.mem_cons_self
      refine ⟨first, rest, target, rfl, htarget, hid, hscore, ?_,
        decisive_iff_ranked hitems hranked htarget hid, ?_⟩
      · intro other hother
        obtain ⟨item, hitem, -, hitemScore⟩ := hitems.item hother
        rw [pairScore, ← hitemScore]
        rcases List.mem_cons.1 hitem with rfl | hrest
        · exact le_rfl
        · exact (List.pairwise_cons.1 hranked).1 item hrest
      · intro other h
        exact List.inj_on_of_nodup_map targetSchema.fieldIds h.mem htarget
          ((h.head hitems hranked).trans hid.symm)

theorem decisiveCandidates_iff (hm : DefaultThresholds m)
    {candidates : List (MappingCandidate Rat)}
    (hcandidates : Candidates T source targetSchema candidates) (hne : candidates ≠ []) :
    m.decisiveCandidates T source targetSchema
        (sortedByReverse MappingCandidate.deterministicScore candidates) = true ↔
      ∃ target, Decisive T targetSchema source target := by
  obtain ⟨first, rest, target, hsorted, htarget, hid, -, -, hiff, hunique⟩ :=
    deterministic_ranking hcandidates hne
  unfold decisiveCandidates
  rw [hsorted]
  dsimp only
  rw [leadingMargin_map, hm.floor, hm.separation, ← hid,
    SchemaDescriptor.fieldById?_of_mem htarget]
  simp only [le, Bool.and_eq_true, decide_eq_true_eq, and_assoc]
  rw [← hiff]
  exact ⟨fun h => ⟨target, h⟩, fun ⟨other, h⟩ => hunique other h ▸ h⟩

/-- The candidate of one target without models. -/
def plainCandidate (source : FieldDescriptor) (item : FieldDescriptor × Rat × List String) :
    MappingCandidate Rat where
  sourceFieldId := source.id
  targetFieldId := item.1.id
  score := item.2.1
  deterministicScore := item.2.1
  reasons := item.2.2

/-- The ranking without models. -/
def plainCandidates (T : TextHost) (source : FieldDescriptor) (targetSchema : SchemaDescriptor) :
    List (MappingCandidate Rat) :=
  sortedByReverse MappingCandidate.score
    ((deterministicEvidence T source targetSchema).map (plainCandidate source))

theorem plainCandidates_score {c : MappingCandidate Rat}
    (h : c ∈ plainCandidates T source targetSchema) : c.score = c.deterministicScore := by
  obtain ⟨item, -, rfl⟩ := List.mem_map.1 (mem_sortedByReverse.1 h)
  rfl

theorem initialCandidates_plain
    (h : m.semanticScores T source targetSchema = .ok (targetSchema.fields.map fun _ => none)) :
    m.initialCandidates T source targetSchema = .ok (plainCandidates T source targetSchema) := by
  unfold initialCandidates
  rw [h, ok_bind,
    zipStrict_of_length (by rw [deterministicEvidence, List.length_map, List.length_map]), ok_bind]
  unfold plainCandidates deterministicEvidence
  dsimp only
  rw [List.zip_map', List.map_map, List.map_map]
  rfl

theorem semanticScores_of_decisive (hm : DefaultThresholds m)
    (h : Decisive T targetSchema source target) :
    m.semanticScores T source targetSchema = .ok (targetSchema.fields.map fun _ => none) := by
  unfold semanticScores
  cases m.semantic with
  | none => rfl
  | some similarities =>
      dsimp only
      rw [if_pos ((deterministicIsDecisive_iff hm).2 ⟨target, h⟩)]
      rfl

theorem candidatesFor_withoutModels :
    m.withoutModels.candidatesFor T source targetSchema =
      .ok (plainCandidates T source targetSchema) := by
  unfold candidatesFor
  rw [initialCandidates_plain rfl]
  rfl

/-- Where the evidence is decisive, no model is consulted. -/
theorem candidatesFor_of_decisive (hm : DefaultThresholds m)
    (h : Decisive T targetSchema source target) :
    m.candidatesFor T source targetSchema = .ok (plainCandidates T source targetSchema) := by
  have hinitial := initialCandidates_plain (semanticScores_of_decisive hm h)
  have hcandidates := candidates_initialCandidates hinitial
  unfold candidatesFor
  rw [hinitial, ok_bind]
  split
  · rename_i rerank first second rest hplain
    have hdecisive := (decisiveCandidates_iff hm hcandidates (by rw [hplain]; nofun)).2 ⟨target, h⟩
    rw [hplain] at hdecisive ⊢
    dsimp only
    rw [if_pos hdecisive]
    rfl
  · rfl

/-! ## Decisions of one field -/

/-- The decision drawn from a ranking, through its deterministic order. -/
theorem decide_eq {top first : MappingCandidate Rat} {others rest : List (MappingCandidate Rat)}
    (hcandidates : m.candidatesFor T source targetSchema = .ok (top :: others))
    (hsorted : sortedByReverse MappingCandidate.deterministicScore (top :: others) = first :: rest)
    (htarget : targetSchema.fieldById? first.targetFieldId = some target) :
    m.decide T source targetSchema = .ok (m.decision source top first
      (headMargin MappingCandidate.score top others)
      (m.verdict T source targetSchema top first
        (headMargin MappingCandidate.deterministicScore first rest) target)) := by
  unfold HybridMatcher.decide
  rw [hcandidates, ok_bind, hsorted]
  dsimp only
  rw [htarget, secondScore_margin, secondScore_margin]
  rfl

theorem decide_of_decisive (hm : DefaultThresholds m)
    (h : Decisive T targetSchema source target) :
    m.decide T source targetSchema = m.withoutModels.decide T source targetSchema ∧
      ∃ d, m.decide T source targetSchema = .ok d ∧ d.status = .auto ∧
        d.targetFieldId = some target.id := by
  have hfor := candidatesFor_of_decisive hm h
  have hcandidates := candidates_candidatesFor hfor
  refine ⟨?_, ?_⟩
  · unfold HybridMatcher.decide
    rw [hfor, candidatesFor_withoutModels]
    rfl
  cases hplain : plainCandidates T source targetSchema with
  | nil =>
      rw [hplain] at hcandidates
      obtain ⟨item, hitem, -⟩ := hcandidates.item h.mem
      cases hitem
  | cons top others =>
      have hscores : ∀ c ∈ top :: others, c.score = c.deterministicScore :=
        fun c hc => plainCandidates_score (hplain ▸ hc)
      rw [hplain] at hfor hcandidates
      obtain ⟨first, rest, found, hsorted, hfound, hid, -, -, hiff, hunique⟩ :=
        deterministic_ranking hcandidates (List.cons_ne_nil _ _)
      obtain rfl : target = found := hunique target h
      -- Without models the two rankings are the same list.
      have hsame : sortedByReverse MappingCandidate.deterministicScore (top :: others) =
          top :: others := by
        refine sortedByReverse_of_pairwise ?_
        have hpairwise := (@pairwise_sortedByReverse _ MappingCandidate.score)
          ((deterministicEvidence T source targetSchema).map (plainCandidate source))
        rw [show sortedByReverse MappingCandidate.score _ = top :: others from hplain] at hpairwise
        refine hpairwise.imp_of_mem ?_
        intro a b ha hb hab
        rw [Outranks, ← hscores a ha, ← hscores b hb]
        exact hab
      obtain ⟨rfl, rfl⟩ : top = first ∧ others = rest := List.cons.inj (hsame.symm.trans hsorted)
      have hscore := hscores top List.mem_cons_self
      have hmargin : headMargin MappingCandidate.score top others =
          headMargin MappingCandidate.deterministicScore top others := by
        unfold headMargin
        rw [hscore]
        cases others with
        | nil => rfl
        | cons second others =>
            show _ - second.score = _ - second.deterministicScore
            rw [hscores second (List.mem_cons_of_mem _ List.mem_cons_self)]
      obtain ⟨hstrong, hlead, hcontract⟩ := hiff.1 h
      have hok := (@verdict_deterministicOk_iff _ _ m T source targetSchema top top
          (headMargin MappingCandidate.deterministicScore top others) target) |>.2
              ⟨rfl, by simpa [le, hm.floor] using hstrong,
          by simpa [le, hm.separation] using hlead, hcontract⟩
      have hauto : (m.decision source top top (headMargin MappingCandidate.score top others)
          (m.verdict T source targetSchema top top
            (headMargin MappingCandidate.deterministicScore top others) target)).status = .auto := by
        have hthreshold : le m.autoThreshold top.score = true := by
          rw [hm.threshold, hscore, le]
          exact decide_eq_true (by linarith)
        have hminimum : le m.minimumMargin
            (headMargin MappingCandidate.score top others) = true := by
          rw [hm.margin, hmargin, le]
          exact decide_eq_true hlead
        unfold decision
        dsimp only
        rw [hthreshold, hminimum, hok]
        rfl
      refine ⟨_, decide_eq hfor hsorted (hid ▸ SchemaDescriptor.fieldById?_of_mem hfound), hauto, ?_⟩
      rw [decision_targetFieldId, hauto, hid]
      rfl

/-- Some target is plausible by deterministic evidence. -/
def Plausible (T : TextHost) (targetSchema : SchemaDescriptor) (source : FieldDescriptor) : Prop :=
  ∃ target ∈ targetSchema.fields, 0.55 ≤ pairScore T source targetSchema target

/-- An undecided field names its first candidate, when that or a target is plausible. -/
theorem decide_of_undecided (hm : DefaultThresholds m)
    (hnone : ∀ target, ¬Decisive T targetSchema source target)
    {top : MappingCandidate Rat} {others : List (MappingCandidate Rat)}
    (hfor : m.candidatesFor T source targetSchema = .ok (top :: others)) :
    ∃ d, m.decide T source targetSchema = .ok d ∧ d.status ≠ .auto ∧
      ∀ t, d.targetFieldId = some t ↔
        t = top.targetFieldId ∧ (0.55 ≤ top.score ∨ Plausible T targetSchema source) := by
  have hcandidates := candidates_candidatesFor hfor
  obtain ⟨first, rest, target, hsorted, htarget, hid, hscore, hgreatest, hiff, -⟩ :=
    deterministic_ranking hcandidates (List.cons_ne_nil _ _)
  have hnotOk : (m.verdict T source targetSchema top first
      (headMargin MappingCandidate.deterministicScore first rest) target).deterministicOk ≠ true := by
    intro hok
    obtain ⟨-, hstrong, hlead, hcontract⟩ := verdict_deterministicOk_iff.1 hok
    refine hnone target (hiff.2 ⟨?_, ?_, hcontract⟩)
    · simpa [le, hm.floor] using hstrong
    · simpa [le, hm.separation] using hlead
  have hworthy : Plausible T targetSchema source ↔ 0.55 ≤ first.deterministicScore := by
    constructor
    · rintro ⟨other, hother, hlarge⟩
      exact le_trans hlarge (hgreatest other hother)
    · intro hlarge
      exact ⟨target, htarget, hscore ▸ hlarge⟩
  refine ⟨_, decide_eq hfor hsorted (hid ▸ SchemaDescriptor.fieldById?_of_mem htarget), ?_, ?_⟩
  · intro hauto
    exact hnotOk (decision_status_auto hauto).2.2
  · intro t
    rw [hworthy]
    unfold decision
    simp only [le, lit, Bool.not_eq_true _ |>.mp hnotOk, Bool.and_false, Bool.false_eq_true,
      if_false, Bool.or_eq_true, decide_eq_true_eq]
    split
    · rename_i hnamed
      simp [hnamed, eq_comm]
    · rename_i hnamed
      simp [hnamed]

/-- Without targets there is nothing to name. -/
theorem decide_of_empty (hfor : m.candidatesFor T source targetSchema = .ok []) :
    ∃ d, m.decide T source targetSchema = .ok d ∧ d.targetFieldId = none := by
  unfold HybridMatcher.decide
  rw [hfor]
  exact ⟨_, rfl, rfl⟩

/-! ## Named targets -/

/-- The targets that a field names before conflicts are resolved: the target of decisive evidence,
the advice of the glossary, or the first candidate of a plausible ranking. -/
inductive Names (m : HybridMatcher Rat) (T : TextHost) (glossary : Glossary)
    (targetSchema : SchemaDescriptor) (source : FieldDescriptor) : String → Prop where
  | decisive {target : FieldDescriptor} : Decisive T targetSchema source target →
      Names m T glossary targetSchema source target.id
  | advised {target : FieldDescriptor} : (∀ t, ¬Decisive T targetSchema source t) →
      advisoryGlossaryTarget Rat T glossary source targetSchema = some target →
      Names m T glossary targetSchema source target.id
  | ranked {top : MappingCandidate Rat} {others : List (MappingCandidate Rat)} :
      (∀ t, ¬Decisive T targetSchema source t) →
      advisoryGlossaryTarget Rat T glossary source targetSchema = none →
      m.candidatesFor T source targetSchema = .ok (top :: others) →
      (0.55 ≤ top.score ∨ Plausible T targetSchema source) →
      Names m T glossary targetSchema source top.targetFieldId

theorem withGlossary_of_auto {d : MappingDecision Rat} (h : d.status = .auto) :
    withGlossary T glossary targetSchema source d = d := if_pos h

/-- A decision that is not automatic, after the glossary pass. -/
theorem withGlossary_of_undecided {d : MappingDecision Rat} (h : d.status ≠ .auto) :
    (withGlossary T glossary targetSchema source d).status ≠ .auto ∧
      (withGlossary T glossary targetSchema source d).targetFieldId =
        match advisoryGlossaryTarget Rat T glossary source targetSchema with
        | some target => some target.id
        | none => d.targetFieldId := by
  unfold withGlossary
  rw [if_neg h]
  cases advisoryGlossaryTarget Rat T glossary source targetSchema with
  | none => exact ⟨h, rfl⟩
  | some target =>
      dsimp only
      split
      · rename_i hsame
        exact ⟨h, hsame.symm⟩
      · exact ⟨nofun, rfl⟩

theorem candidatesFor_of_decide {d : MappingDecision Rat}
    (h : m.decide T source targetSchema = .ok d) :
    ∃ candidates, m.candidatesFor T source targetSchema = .ok candidates := by
  unfold HybridMatcher.decide at h
  obtain ⟨candidates, hfor, -⟩ := bind_eq_ok h
  exact ⟨candidates, hfor⟩

/-- Before the conflict pass, a field is automatic exactly for its decisive target, and claims
exactly what it names. -/
theorem advised_names (hm : DefaultThresholds m) {a : MappingDecision Rat}
    (h : Advised m T glossary targetSchema source a) :
    (a.status = .auto ↔ ∃ target, Decisive T targetSchema source target) ∧
      ∀ t, claimed a = some t ↔ Names m T glossary targetSchema source t := by
  have hclaimed := claimed_of_sound h.sound
  obtain ⟨d, hd, rfl⟩ := h
  by_cases hdecisive : ∃ target, Decisive T targetSchema source target
  · obtain ⟨target, htarget⟩ := hdecisive
    obtain ⟨-, d', hd', hauto, hid⟩ := decide_of_decisive hm htarget
    obtain rfl : d = d' := Except.ok.inj (hd.symm.trans hd')
    rw [withGlossary_of_auto hauto] at hclaimed ⊢
    refine ⟨⟨fun _ => ⟨target, htarget⟩, fun _ => hauto⟩, fun t => ?_⟩
    rw [hclaimed, hid]
    constructor
    · rintro ⟨rfl⟩
      exact .decisive htarget
    · intro hnames
      cases hnames with
      | decisive hother =>
          obtain ⟨-, d', hd', -, hid'⟩ := decide_of_decisive hm hother
          obtain rfl : d = d' := Except.ok.inj (hd.symm.trans hd')
          exact hid.symm.trans hid'
      | advised hnone _ => exact absurd htarget (hnone target)
      | ranked hnone _ _ _ => exact absurd htarget (hnone target)
  · push Not at hdecisive
    have hundecided : d.status ≠ .auto := by
      intro hauto
      obtain ⟨candidates, hfor⟩ := candidatesFor_of_decide hd
      cases candidates with
      | nil =>
          obtain ⟨d', hd', hnone⟩ := decide_of_empty hfor
          obtain rfl : d = d' := Except.ok.inj (hd.symm.trans hd')
          rw [(decide_sound hd).target_none.1 hnone] at hauto
          cases hauto
      | cons top others =>
          obtain ⟨d', hd', hstatus, -⟩ := decide_of_undecided hm hdecisive hfor
          obtain rfl : d = d' := Except.ok.inj (hd.symm.trans hd')
          exact hstatus hauto
    obtain ⟨hstatus, htarget⟩ := (@withGlossary_of_undecided T glossary source targetSchema)
        hundecided
    refine ⟨⟨fun h => absurd h hstatus, fun ⟨t, ht⟩ => absurd ht (hdecisive t)⟩, fun t => ?_⟩
    rw [hclaimed, htarget]
    cases hadvice : advisoryGlossaryTarget Rat T glossary source targetSchema with
    | some target =>
        dsimp only
        constructor
        · rintro ⟨rfl⟩
          exact .advised hdecisive hadvice
        · intro hnames
          cases hnames with
          | decisive hother => exact absurd hother (hdecisive _)
          | advised _ hother => rw [Option.some.inj (hadvice.symm.trans hother)]
          | ranked _ hother _ _ => rw [hadvice] at hother; cases hother
    | none =>
        dsimp only
        obtain ⟨candidates, hfor⟩ := candidatesFor_of_decide hd
        cases candidates with
        | nil =>
            obtain ⟨d', hd', hnone⟩ := decide_of_empty hfor
            obtain rfl : d = d' := Except.ok.inj (hd.symm.trans hd')
            rw [hnone]
            refine ⟨nofun, ?_⟩
            intro hnames
            cases hnames with
            | decisive hother => exact absurd hother (hdecisive _)
            | advised _ hother => rw [hadvice] at hother; cases hother
            | ranked _ _ hother _ => rw [hfor] at hother; cases hother
        | cons top others =>
            obtain ⟨d', hd', -, hiff⟩ := decide_of_undecided hm hdecisive hfor
            obtain rfl : d = d' := Except.ok.inj (hd.symm.trans hd')
            rw [hiff t]
            constructor
            · rintro ⟨rfl, hworthy⟩
              exact .ranked hdecisive hadvice hfor hworthy
            · intro hnames
              cases hnames with
              | decisive hother => exact absurd hother (hdecisive _)
              | advised _ hother => rw [hadvice] at hother; cases hother
              | ranked _ _ hother hworthy =>
                  obtain ⟨rfl, -⟩ := List.cons.inj (Except.ok.inj (hfor.symm.trans hother))
                  exact ⟨rfl, hworthy⟩

/-! ## Automatic pairs of a proposal -/

/-- `propose` marks the pair AUTO. -/
def AutoPair (ds : List (MappingDecision Rat)) (sourceId targetId : String) : Prop :=
  ∃ d ∈ ds, d.status = .auto ∧ d.sourceFieldId = sourceId ∧ d.targetFieldId = some targetId

/-- Two items that satisfy a test are counted. -/
theorem one_lt_countP {α : Type} {p : α → Bool} {l : List α} {a b : α} (ha : a ∈ l) (hb : b ∈ l)
    (hpa : p a = true) (hpb : p b = true) (hne : a ≠ b) : 1 < l.countP p := by
  rw [List.countP_eq_length_filter]
  have hfa : a ∈ l.filter p := List.mem_filter.2 ⟨ha, hpa⟩
  have hfb : b ∈ l.filter p := List.mem_filter.2 ⟨hb, hpb⟩
  match hfilter : l.filter p with
  | [] => rw [hfilter] at hfa; cases hfa
  | [c] =>
      rw [hfilter, List.mem_singleton] at hfa hfb
      exact absurd (hfa.trans hfb.symm) hne
  | _ :: _ :: rest => exact Nat.lt_add_left rest.length (Nat.lt_succ_self 1)

/-- A pair is automatic when its evidence is decisive and no other field names the target. -/
theorem autoPair_iff (hm : DefaultThresholds m) {ds : List (MappingDecision Rat)}
    (h : m.propose T glossary sourceSchema targetSchema = .ok ds) {s t : String} :
    AutoPair ds s t ↔ ∃ source ∈ sourceSchema.fields, ∃ target, source.id = s ∧ target.id = t ∧
      Decisive T targetSchema source target ∧
      ∀ other ∈ sourceSchema.fields, other ≠ source →
        ¬Names m T glossary targetSchema other target.id := by
  obtain ⟨advised, hadvised, rfl⟩ := propose_eq_ok h
  have hsources := sources_of_advised hadvised
  constructor
  · rintro ⟨d, hd, hauto, hsource, htarget⟩
    obtain ⟨a, ha, hsameSource, hsameTarget, hstatus, -⟩ := mem_withConflicts hd
    obtain ⟨haauto, hconflict⟩ := hstatus.1 hauto
    obtain ⟨source, hmem, hsourceAdvised⟩ := forall₂_partner_right hadvised ha
    obtain ⟨hautoIff, hnames⟩ := advised_names hm hsourceAdvised
    obtain ⟨target, hdecisive⟩ := hautoIff.1 haauto
    have hclaim : claimed a = some target.id := (hnames _).2 (.decisive hdecisive)
    have htargetId : target.id = t := by
      rw [claimed_eq_target (by rw [haauto]; nofun), ← hsameTarget, htarget] at hclaim
      exact (Option.some.inj hclaim).symm
    refine ⟨source, hmem, target, ?_, htargetId, hdecisive, ?_⟩
    · rw [← hsource, hsameSource, hsourceAdvised.sound.source_eq]
    · intro other hother hne hnamed
      obtain ⟨b, hb, hotherAdvised⟩ := forall₂_partner hadvised hother
      have hclaimOther : claimed b = some target.id := ((advised_names hm hotherAdvised).2 _).2 hnamed
      have hab : a ≠ b := by
        rintro rfl
        exact hne (List.inj_on_of_nodup_map sourceSchema.fieldIds hother hmem
          (hotherAdvised.sound.source_eq.symm.trans hsourceAdvised.sound.source_eq))
      have hcount : 1 < advised.countP fun other => claimed other = claimed a :=
        one_lt_countP ha hb (decide_eq_true rfl)
          (decide_eq_true (hclaimOther.trans hclaim.symm)) hab
      rw [conflicted, hclaim, ← hclaim, Bool.and_eq_false_iff] at hconflict
      rcases hconflict with hnone | hfew
      · rw [hclaim] at hnone
        cases hnone
      · exact absurd hcount (of_decide_eq_false hfew)
  · rintro ⟨source, hmem, target, rfl, rfl, hdecisive, hothers⟩
    obtain ⟨a, ha, hsourceAdvised⟩ := forall₂_partner hadvised hmem
    obtain ⟨hautoIff, hnames⟩ := advised_names hm hsourceAdvised
    have hauto := hautoIff.2 ⟨target, hdecisive⟩
    have hclaim : claimed a = some target.id := (hnames _).2 (.decisive hdecisive)
    have hfew : advised.countP (fun other => claimed other = claimed a) ≤ 1 := by
      rw [List.countP_eq_length_filter]
      have hunique : Table.UniqueBy MappingDecision.sourceFieldId advised :=
        (congrArg List.Nodup hsources).mpr sourceSchema.fieldIds
      -- Whoever claims the target names it, and so is the field itself.
      refine hunique.length_filter_le_one (k := source.id) ?_
      intro other hother hclaims
      obtain ⟨field, hfield, hfieldAdvised⟩ := forall₂_partner_right hadvised hother
      have hnamed := ((advised_names hm hfieldAdvised).2 target.id).1
        ((of_decide_eq_true hclaims).trans hclaim)
      by_cases hsame : field = source
      · exact hsame ▸ hfieldAdvised.sound.source_eq
      · exact absurd hnamed (hothers field hfield hsame)
    have hconflict : conflicted advised a = false := by
      rw [conflicted, decide_eq_false (not_lt.2 hfew), Bool.and_false]
    refine ⟨a, mem_withConflicts_of_auto ha hconflict, hauto, hsourceAdvised.sound.source_eq, ?_⟩
    rw [← claimed_eq_target (by rw [hauto]; nofun), hclaim]

theorem exists_decide {candidates : List (MappingCandidate Rat)}
    (hfor : m.candidatesFor T source targetSchema = .ok candidates) :
    ∃ d, m.decide T source targetSchema = .ok d := by
  have hcandidates := candidates_candidatesFor hfor
  cases candidates with
  | nil =>
      obtain ⟨d, hd, -⟩ := decide_of_empty hfor
      exact ⟨d, hd⟩
  | cons top others =>
      obtain ⟨first, rest, target, hsorted, htarget, hid, -⟩ :=
        deterministic_ranking hcandidates (List.cons_ne_nil _ _)
      exact ⟨_, decide_eq hfor hsorted (hid ▸ SchemaDescriptor.fieldById?_of_mem htarget)⟩

/-- A proposal is made when every field's candidates are ranked. -/
theorem exists_propose (h : ∀ source ∈ sourceSchema.fields, ∃ candidates,
      m.candidatesFor T source targetSchema = .ok candidates) :
    ∃ ds, m.propose T glossary sourceSchema targetSchema = .ok ds := by
  obtain ⟨advised, hadvised⟩ := exists_forall₂ (l := sourceSchema.fields)
    (R := Advised m T glossary targetSchema) fun source hsource => by
      obtain ⟨candidates, hfor⟩ := h source hsource
      obtain ⟨d, hd⟩ := exists_decide hfor
      exact ⟨_, d, hd, rfl⟩
  exact ⟨_, propose_of_advised hadvised⟩

/-- Without models a proposal is always made. -/
theorem exists_propose_withoutModels (m : HybridMatcher Rat) (T : TextHost) (glossary : Glossary)
    (sourceSchema targetSchema : SchemaDescriptor) :
    ∃ ds, m.withoutModels.propose T glossary sourceSchema targetSchema = .ok ds :=
  exists_propose fun _ _ => ⟨_, candidatesFor_withoutModels⟩

/-! ## What models can change -/

theorem advisoryGlossaryTarget_of_unsafe
    (h : ∀ target ∈ targetSchema.fields,
      automaticMappingContractSafe Rat T source target targetSchema = false) :
    advisoryGlossaryTarget Rat T glossary source targetSchema = none := by
  unfold advisoryGlossaryTarget
  dsimp only
  split
  · rfl
  · rw [List.filter_eq_nil_iff.2]
    intro target htarget
    rw [h target htarget, Bool.and_false]
    nofun

/-- Without models the field names the target for review, and only by its ranking: its evidence is
not decisive, the glossary has no advice, and the target has its best plausible score. -/
structure RankedFirst (T : TextHost) (glossary : Glossary) (targetSchema : SchemaDescriptor)
    (source target : FieldDescriptor) : Prop where
  undecided : ∀ t, ¬Decisive T targetSchema source t
  unadvised : advisoryGlossaryTarget Rat T glossary source targetSchema = none
  best : firstMaxBy (pairScore T source targetSchema) targetSchema.fields = some target
  worthy : 0.55 ≤ pairScore T source targetSchema target

theorem plainCandidates_head? :
    (plainCandidates T source targetSchema).head?.map MappingCandidate.targetFieldId =
      (firstMaxBy (pairScore T source targetSchema) targetSchema.fields).map FieldDescriptor.id := by
  unfold plainCandidates deterministicEvidence
  rw [head?_sortedByReverse, List.map_map, firstMaxBy_map, Option.map_map]
  rfl

/-- The first candidate without models is the first target with the greatest score. -/
theorem plainCandidates_first {top : MappingCandidate Rat} {others : List (MappingCandidate Rat)}
    (hplain : plainCandidates T source targetSchema = top :: others) :
    ∃ target ∈ targetSchema.fields, target.id = top.targetFieldId ∧
      firstMaxBy (pairScore T source targetSchema) targetSchema.fields = some target ∧
      pairScore T source targetSchema target = top.score ∧
      ∀ other ∈ targetSchema.fields, pairScore T source targetSchema other ≤ top.score := by
  have hcandidates := candidates_candidatesFor (@candidatesFor_withoutModels {} T source
      targetSchema)
  have hhead := @plainCandidates_head? T source targetSchema
  have hranked := (@pairwise_sortedByReverse _ MappingCandidate.score)
    ((deterministicEvidence T source targetSchema).map (plainCandidate source))
  have hscores : ∀ c ∈ top :: others, c.score = c.deterministicScore :=
    fun c hc => plainCandidates_score (hplain ▸ hc)
  rw [show sortedByReverse MappingCandidate.score _ = top :: others from hplain] at hranked
  rw [hplain] at hcandidates hhead
  obtain ⟨target, htarget, hid, hscore⟩ := hcandidates.field List.mem_cons_self
  refine ⟨target, htarget, hid, ?_, hscore.trans (hscores top List.mem_cons_self).symm, ?_⟩
  · obtain ⟨best, hbest, hbestId⟩ := Option.map_eq_some_iff.1 hhead.symm
    have hmem : best ∈ targetSchema.fields := by
      rw [← head?_sortedByReverse] at hbest
      exact mem_sortedByReverse.1 (List.mem_of_head? hbest)
    rw [hbest, List.inj_on_of_nodup_map targetSchema.fieldIds hmem htarget (hbestId.trans hid.symm)]
  · intro other hother
    obtain ⟨item, hitem, -, hitemScore⟩ := hcandidates.item hother
    rw [pairScore, ← hitemScore, ← hscores item hitem]
    rcases List.mem_cons.1 hitem with rfl | hrest
    · exact le_rfl
    · exact (List.pairwise_cons.1 hranked).1 item hrest

/-- Without models, what an undecided field names by its ranking is its best plausible target. -/
theorem rankedFirst_iff (htarget : target ∈ targetSchema.fields)
    (hnone : ∀ t, ¬Decisive T targetSchema source t)
    (hadvice : advisoryGlossaryTarget Rat T glossary source targetSchema = none) :
    Names m.withoutModels T glossary targetSchema source target.id ↔
      RankedFirst T glossary targetSchema source target := by
  have hfor := @candidatesFor_withoutModels m T source targetSchema
  constructor
  · intro hnames
    generalize hid : target.id = id at hnames
    cases hnames with
    | decisive h => exact absurd h (hnone _)
    | advised _ h => rw [hadvice] at h; cases h
    | @ranked top others _ _ hranked hworthy =>
        obtain ⟨best, hbest, hbestId, hfirst, hscore, hgreatest⟩ :=
          plainCandidates_first (Except.ok.inj (hfor.symm.trans hranked))
        obtain rfl : best = target :=
          List.inj_on_of_nodup_map targetSchema.fieldIds hbest htarget (hbestId.trans hid.symm)
        refine ⟨hnone, hadvice, hfirst, ?_⟩
        rw [hscore]
        rcases hworthy with hlarge | ⟨other, hother, hlarge⟩
        · exact hlarge
        · exact le_trans hlarge (hgreatest other hother)
  · intro h
    cases hplain : plainCandidates T source targetSchema with
    | nil =>
        have hhead := @plainCandidates_head? T source targetSchema
        rw [hplain, h.best] at hhead
        cases hhead
    | cons top others =>
        obtain ⟨best, -, hbestId, hfirst, -, -⟩ := plainCandidates_first hplain
        obtain rfl : target = best := Option.some.inj (h.best.symm.trans hfirst)
        rw [hbestId]
        exact .ranked hnone hadvice (hplain ▸ hfor) (.inr ⟨target, htarget, h.worthy⟩)

/-- Models keep the conflicts of the run without them: where an undecided field contests a decisive
pair by its own ranking, some field still contests it when models rank the candidates. -/
def ConflictsKept (m : HybridMatcher Rat) (T : TextHost) (glossary : Glossary)
    (sourceSchema targetSchema : SchemaDescriptor) : Prop :=
  ∀ source ∈ sourceSchema.fields, ∀ target, Decisive T targetSchema source target →
    ∀ rival ∈ sourceSchema.fields, rival ≠ source →
      RankedFirst T glossary targetSchema rival target →
        ∃ other ∈ sourceSchema.fields, other ≠ source ∧
          Names m T glossary targetSchema other target.id

/-- Only a ranking can stop naming a target when models are consulted. -/
theorem names_of_withoutModels (htarget : target ∈ targetSchema.fields)
    (h : Names m.withoutModels T glossary targetSchema source target.id) :
    Names m T glossary targetSchema source target.id ∨
      RankedFirst T glossary targetSchema source target := by
  by_cases hdecisive : ∃ t, Decisive T targetSchema source t
  · left
    obtain ⟨t, ht⟩ := hdecisive
    generalize target.id = id at h
    cases h with
    | decisive h => exact .decisive h
    | advised hnone _ => exact absurd ht (hnone t)
    | ranked hnone _ _ _ => exact absurd ht (hnone t)
  · push Not at hdecisive
    cases hadvice : advisoryGlossaryTarget Rat T glossary source targetSchema with
    | none => exact .inr ((rankedFirst_iff htarget hdecisive hadvice).1 h)
    | some advised =>
        left
        generalize target.id = id at h
        cases h with
        | decisive h => exact absurd h (hdecisive _)
        | advised hnone h => exact .advised hnone h
        | ranked _ h _ _ => rw [hadvice] at h; cases h

/-- **Models are no authority exactly while they keep the conflicts.** Every pair that is automatic
with the models is automatic without them if and only if no automatic pair owes its status to a
rival that the models moved to another target. -/
theorem models_keep_authority (m : HybridMatcher Rat) (T : TextHost) (glossary : Glossary)
    (sourceSchema targetSchema : SchemaDescriptor) (hm : DefaultThresholds m)
    (ds : List (MappingDecision Rat))
    (h : m.propose T glossary sourceSchema targetSchema = .ok ds) :
    ∃ plain, m.withoutModels.propose T glossary sourceSchema targetSchema = .ok plain ∧
      ((∀ s t, AutoPair ds s t → AutoPair plain s t) ↔
        ConflictsKept m T glossary sourceSchema targetSchema) := by
  obtain ⟨plain, hplain⟩ := exists_propose_withoutModels m T glossary sourceSchema targetSchema
  have hm' : DefaultThresholds m.withoutModels := ⟨hm.floor, hm.separation, hm.threshold, hm.margin⟩
  refine ⟨plain, hplain, ?_, ?_⟩
  · intro hauthority source hsource target hdecisive rival hrival hne hranked
    by_contra hnone
    push Not at hnone
    -- Nobody contests the pair with the models, so it is automatic in both runs.
    have hauto := hauthority _ _ ((autoPair_iff hm h).2
      ⟨source, hsource, target, rfl, rfl, hdecisive, hnone⟩)
    obtain ⟨source', hsource', target', hs, ht, -, hothers⟩ := (autoPair_iff hm' hplain).1 hauto
    have hsame : source' = source :=
      List.inj_on_of_nodup_map sourceSchema.fieldIds hsource' hsource hs
    have hrivalNames : Names m.withoutModels T glossary targetSchema rival target.id :=
      (rankedFirst_iff hdecisive.mem hranked.undecided hranked.unadvised).2 hranked
    exact hothers rival hrival (hsame ▸ hne) (ht ▸ hrivalNames)
  · intro hkept s t hauto
    obtain ⟨source, hsource, target, hs, ht, hdecisive, hothers⟩ := (autoPair_iff hm h).1 hauto
    refine (autoPair_iff hm' hplain).2 ⟨source, hsource, target, hs, ht, hdecisive, ?_⟩
    intro rival hrival hne hnames
    rcases names_of_withoutModels hdecisive.mem hnames with hnames | hranked
    · exact hothers rival hrival hne hnames
    · obtain ⟨other, hother, hotherNe, hotherNames⟩ :=
        hkept source hsource target hdecisive rival hrival hne hranked
      exact hothers other hother hotherNe hotherNames

/-! ## A rival moved by an encoder -/

/-- A required field. -/
def contestedField : FieldDescriptor :=
  { id := "a", name := "zq", dataType := .string, nullable := false }

/-- A nullable field of the same name, with the name of the other target as an alias. -/
def rivalField : FieldDescriptor :=
  { id := "b", name := "zq", dataType := .string, aliases := ["xv"] }

/-- The target of that name. -/
def contestedTarget : FieldDescriptor :=
  { id := "t", name := "zq", dataType := .string, nullable := false }

/-- The two source fields. -/
def rivalSource : SchemaDescriptor := { id := "source", fields := [contestedField, rivalField] }

/-- Two required targets. -/
def rivalTarget : SchemaDescriptor where
  id := "target"
  fields := [contestedTarget, { id := "u", name := "xv", dataType := .string, nullable := false }]

/-- An encoder that prefers the second target. -/
def rivalMatcher : HybridMatcher Rat where
  semantic := some fun _ _ => .ok [0, 1]

theorem rivalMatcher_defaults : DefaultThresholds rivalMatcher := ⟨rfl, rfl, rfl, rfl⟩

theorem contested_decisive :
    Decisive standardTextHost rivalTarget contestedField contestedTarget where
  mem := List.mem_cons_self
  floor := by decide +kernel
  lead := by decide +kernel
  contract := by decide +kernel

/-- A nullable field has no safe contract with a required target. -/
theorem rival_unprotected : ∀ target ∈ rivalTarget.fields,
    automaticMappingContractSafe Rat standardTextHost rivalField target rivalTarget = false := by
  decide +kernel

theorem rival_undecided (target : FieldDescriptor) :
    ¬Decisive standardTextHost rivalTarget rivalField target := by
  intro h
  have hcontract := h.contract
  rw [rival_unprotected target h.mem] at hcontract
  cases hcontract

theorem rival_unadvised :
    advisoryGlossaryTarget Rat standardTextHost businessGlossary rivalField rivalTarget = none :=
  advisoryGlossaryTarget_of_unsafe rival_unprotected

/-- With the encoder the rival ranks the other target first. -/
theorem rival_candidates : ∃ top others,
    rivalMatcher.candidatesFor standardTextHost rivalField rivalTarget = .ok (top :: others) ∧
      top.targetFieldId = "u" := by
  have hvalue : ((rivalMatcher.candidatesFor standardTextHost rivalField rivalTarget).toOption.map
      fun cs => cs.map MappingCandidate.targetFieldId) = some ["u", "t"] := by
    decide +kernel
  obtain ⟨candidates, hfor, hids⟩ := Option.map_eq_some_iff.1 hvalue
  cases hresult : rivalMatcher.candidatesFor standardTextHost rivalField rivalTarget with
  | error e =>
      rw [hresult] at hfor
      cases hfor
  | ok found =>
      rw [hresult] at hfor
      obtain rfl : found = candidates := Option.some.inj hfor
      cases found with
      | nil => cases hids
      | cons top others => exact ⟨top, others, rfl, (List.cons.inj hids).1⟩

/-- Without models it ranks the contested target first. -/
theorem rival_rankedFirst :
    RankedFirst standardTextHost businessGlossary rivalTarget rivalField contestedTarget where
  undecided := rival_undecided
  unadvised := rival_unadvised
  best := by decide +kernel
  worthy := by decide +kernel

theorem rival_propose : ∃ ds,
    rivalMatcher.propose standardTextHost businessGlossary rivalSource rivalTarget = .ok ds := by
  refine exists_propose fun source hsource => ?_
  rcases List.mem_cons.1 hsource with rfl | hsource
  · exact ⟨_, candidatesFor_of_decisive rivalMatcher_defaults contested_decisive⟩
  · obtain rfl := List.mem_singleton.1 hsource
    obtain ⟨top, others, hfor, -⟩ := rival_candidates
    exact ⟨_, hfor⟩

theorem models_keep_authority_sample : ∃ ds plain,
    rivalMatcher.propose standardTextHost businessGlossary rivalSource rivalTarget = .ok ds ∧
      rivalMatcher.withoutModels.propose standardTextHost businessGlossary rivalSource
        rivalTarget = .ok plain ∧
      ((∀ s t, AutoPair ds s t → AutoPair plain s t) ↔
        ConflictsKept rivalMatcher standardTextHost businessGlossary rivalSource rivalTarget) := by
  obtain ⟨ds, h⟩ := rival_propose
  obtain ⟨plain, hplain, hiff⟩ := models_keep_authority rivalMatcher standardTextHost
    businessGlossary rivalSource rivalTarget rivalMatcher_defaults ds h
  exact ⟨ds, plain, h, hplain, hiff⟩

/-- The encoder moves the rival away, and the contested pair becomes automatic. -/
theorem encoder_grants_authority : ∃ ds plain,
    rivalMatcher.propose standardTextHost businessGlossary rivalSource rivalTarget = .ok ds ∧
      rivalMatcher.withoutModels.propose standardTextHost businessGlossary rivalSource
        rivalTarget = .ok plain ∧
      AutoPair ds "a" "t" ∧ ¬AutoPair plain "a" "t" := by
  obtain ⟨ds, h⟩ := rival_propose
  obtain ⟨plain, hplain⟩ := exists_propose_withoutModels rivalMatcher standardTextHost
    businessGlossary rivalSource rivalTarget
  have hdefaults : DefaultThresholds rivalMatcher.withoutModels := ⟨rfl, rfl, rfl, rfl⟩
  refine ⟨ds, plain, h, hplain, ?_, ?_⟩
  · refine (autoPair_iff rivalMatcher_defaults h).2
      ⟨contestedField, List.mem_cons_self, contestedTarget, rfl, rfl, contested_decisive, ?_⟩
    intro other hother hne hnames
    rcases List.mem_cons.1 hother with rfl | hother
    · exact hne rfl
    obtain rfl := List.mem_singleton.1 hother
    obtain ⟨top, others, hfor, htop⟩ := rival_candidates
    generalize hid : contestedTarget.id = id at hnames
    cases hnames with
    | decisive hdecisive => exact rival_undecided _ hdecisive
    | advised _ hadvice => rw [rival_unadvised] at hadvice; cases hadvice
    | ranked _ _ hranked _ =>
        obtain ⟨rfl, -⟩ := List.cons.inj (Except.ok.inj (hfor.symm.trans hranked))
        exact absurd (hid.trans htop) (by decide)
  · intro hauto
    obtain ⟨source, -, target, hs, ht, -, hothers⟩ := (autoPair_iff hdefaults hplain).1 hauto
    have hnames : Names rivalMatcher.withoutModels standardTextHost businessGlossary rivalTarget
        rivalField contestedTarget.id :=
      (rankedFirst_iff contested_decisive.mem rival_undecided rival_unadvised).2 rival_rankedFirst
    refine hothers rivalField (List.mem_cons_of_mem _ List.mem_cons_self) ?_ (ht ▸ hnames)
    rintro rfl
    exact absurd hs (by decide)

end HybridMatcher

end Polymorph
