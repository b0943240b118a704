import Polymorph.Matching.Glossary

/-!
# The hybrid matcher

Candidates for a source field are ranked by deterministic evidence, blended with the scores of an
optional semantic encoder and an optional reranker. A decision follows the best candidate, and is
automatic only where the deterministic ranking selects the same target by itself.
-/

set_option autoImplicit false

namespace Polymorph

open ScoreArith

/-- Status of a mapping decision. -/
inductive MappingStatus where
  | auto
  | review
  | blocked
deriving DecidableEq, Repr

/-- A ranked target of one source field. -/
structure MappingCandidate (S : Type) where
  sourceFieldId : String
  targetFieldId : String
  score : S
  deterministicScore : S
  semanticScore : Option S := none
  reasons : List String := []
  rerankerScore : Option S := none

/-- The decision about one source field. -/
structure MappingDecision (S : Type) where
  sourceFieldId : String
  targetFieldId : Option String
  status : MappingStatus
  score : S
  margin : S
  reasons : List String := []

/-- `SemanticEncoder.similarities` -/
abbrev SemanticEncoder (S : Type) := String → List String → Except Exn (List S)

/-- `Reranker.scores` -/
abbrev Reranker (S : Type) := String → List String → Except Exn (List S)

/-- `HybridMatcher` -/
structure HybridMatcher (S : Type) [ScoreArith S] where
  semantic : Option (SemanticEncoder S) := none
  reranker : Option (Reranker S) := none
  semanticWeight : S := lit 0.24
  rerankerWeight : S := lit 0.18
  rerankTopK : Int := 4
  rerankTriggerMargin : S := lit 0.16
  rerankMinScore : S := lit 0.50
  deterministicAutoFloor : S := lit 0.90
  deterministicMinimumMargin : S := lit 0.08
  autoThreshold : S := lit 0.86
  minimumMargin : S := lit 0.08

/-- `FieldDescriptor.semantic_text` -/
def FieldDescriptor.semanticText (f : FieldDescriptor) : String :=
  String.intercalate "; " (["name: " ++ f.name] ++
    (if f.aliases.isEmpty then [] else ["aliases: " ++ String.intercalate ", " f.aliases]) ++
    (match f.description with
      | none => []
      | some text => if text.isEmpty then [] else ["description: " ++ text]) ++
    ["type: " ++ f.dataType.value, "role: " ++ f.role.text] ++
    match f.container with
    | none => []
    | some text => if text.isEmpty then [] else ["container: " ++ text])

section Ranking

variable {S : Type} [ScoreArith S]

/-- `ranking[0] - ranking[1]`, or the only score, or zero. -/
def leadingMargin : List S → S
  | first :: second :: _ => sub first second
  | [only] => only
  | [] => lit 0

/-- The better of two items, the first one between equals. -/
def betterBy {α : Type} (key : α → S) (best item : α) : α :=
  if lt (key best) (key item) then item else best

/-- `max(items, key=key)` -/
def firstMaxBy {α : Type} (key : α → S) : List α → Option α
  | [] => none
  | first :: rest => some (rest.foldl (betterBy key) first)

/-- `zip(left, right, strict=True)`, consumed to its end. -/
def zipStrict {α β : Type} (left : List α) (right : List β) : Except Exn (List (α × β)) :=
  if right.length < left.length then
    .error (.valueError "zip() argument 2 is shorter than argument 1")
  else if left.length < right.length then
    .error (.valueError "zip() argument 2 is longer than argument 1")
  else .ok (left.zip right)

end Ranking

namespace HybridMatcher

variable {S : Type} [ScoreArith S] (m : HybridMatcher S) (T : TextHost) (glossary : Glossary)

/-- The deterministic evidence of each target, in schema order. -/
def deterministicEvidence (source : FieldDescriptor) (targetSchema : SchemaDescriptor) :
    List (FieldDescriptor × S × List String) :=
  targetSchema.fields.map fun target => (target, deterministicScore S T source target targetSchema)

/-- `deterministic_is_decisive` -/
def deterministicIsDecisive (source : FieldDescriptor) (targetSchema : SchemaDescriptor) : Bool :=
  let evidence := deterministicEvidence T source targetSchema
  let ranking : List S := sortedByReverse id (evidence.map fun item => item.2.1)
  match firstMaxBy (fun item => item.2.1) evidence, ranking with
  | some top, best :: _ =>
      le m.deterministicAutoFloor best &&
      le m.deterministicMinimumMargin (leadingMargin ranking) &&
      automaticMappingContractSafe S T source top.1 targetSchema
  | _, _ => false

/-- The candidate of one target. -/
def initialCandidate (source : FieldDescriptor) (item : FieldDescriptor × S × List String)
    (semanticScore : Option S) : MappingCandidate S where
  sourceFieldId := source.id
  targetFieldId := item.1.id
  score :=
    match semanticScore with
    | none => item.2.1
    | some score =>
        add (mul (sub (lit 1) m.semanticWeight) item.2.1) (mul m.semanticWeight (clamp score))
  deterministicScore := item.2.1
  semanticScore := semanticScore
  reasons := item.2.2

/-- The semantic scores of the targets: none without an encoder, and none where the deterministic
evidence is decisive. -/
def semanticScores (source : FieldDescriptor) (targetSchema : SchemaDescriptor) :
    Except Exn (List (Option S)) :=
  match m.semantic with
  | none => return targetSchema.fields.map fun _ => none
  | some similarities =>
      if m.deterministicIsDecisive T source targetSchema then
        return targetSchema.fields.map fun _ => none
      else do
        let scores ← similarities source.semanticText
          (targetSchema.fields.map FieldDescriptor.semanticText)
        return scores.map some

/-- `_initial_candidates` -/
def initialCandidates (source : FieldDescriptor) (targetSchema : SchemaDescriptor) :
    Except Exn (List (MappingCandidate S)) := do
  let scores ← m.semanticScores T source targetSchema
  let paired ← zipStrict (deterministicEvidence T source targetSchema) scores
  let candidates := paired.map fun pair => m.initialCandidate source pair.1 pair.2
  return sortedByReverse MappingCandidate.score candidates

/-- The candidate after reranking. -/
def rerankedCandidate (candidate : MappingCandidate S) (rawScore : S) : MappingCandidate S :=
  let rerankerScore := clamp rawScore
  { candidate with
    score := add (mul (sub (lit 1) m.rerankerWeight) candidate.score)
      (mul m.rerankerWeight rerankerScore)
    rerankerScore := some rerankerScore
    reasons := candidate.reasons ++ ["reranker evidence"] }

/-- The semantic text of a candidate's target. -/
def candidateText (targetSchema : SchemaDescriptor) (candidate : MappingCandidate S) : String :=
  ((targetSchema.fieldById? candidate.targetFieldId).map FieldDescriptor.semanticText).getD ""

/-- The deterministic ranking of candidates decides by itself. -/
def decisiveCandidates (source : FieldDescriptor) (targetSchema : SchemaDescriptor)
    (deterministic : List (MappingCandidate S)) : Bool :=
  match deterministic with
  | top :: _ =>
      le m.deterministicAutoFloor top.deterministicScore &&
      le m.deterministicMinimumMargin
        (leadingMargin (deterministic.map MappingCandidate.deterministicScore)) &&
      (match targetSchema.fieldById? top.targetFieldId with
      | some target => automaticMappingContractSafe S T source target targetSchema
      | none => false)
  | [] => false

/-- `candidates_for` -/
def candidatesFor (source : FieldDescriptor) (targetSchema : SchemaDescriptor) :
    Except Exn (List (MappingCandidate S)) := do
  let candidates ← m.initialCandidates T source targetSchema
  match m.reranker, candidates with
  | some rerank, first :: second :: _ =>
      let deterministic := sortedByReverse MappingCandidate.deterministicScore candidates
      if m.decisiveCandidates T source targetSchema deterministic then return candidates
      let initialMargin := sub first.score second.score
      if lt first.score m.rerankMinScore || lt m.rerankTriggerMargin initialMargin then
        return candidates
      let count := min (max 2 m.rerankTopK).toNat candidates.length
      let top := candidates.take count
      let scores ← rerank source.semanticText (top.map (candidateText targetSchema))
      if scores.length ≠ top.length then return candidates
      let reranked := (top.zip scores).map fun pair => m.rerankedCandidate pair.1 pair.2
      return sortedByReverse MappingCandidate.score (reranked ++ candidates.drop count)
  | _, _ => return candidates

/-- What `decide` finds about the deterministic winner of a ranking. -/
structure Verdict where
  typeOk : Bool
  roleOk : Bool
  contractSafe : Bool
  deterministicOk : Bool

/-- The deterministic part of `decide`: `top` is the final ranking's first candidate, and
`deterministic` the deterministic ranking with the target of its first. -/
def verdict (source : FieldDescriptor) (targetSchema : SchemaDescriptor)
    (top deterministicTop : MappingCandidate S) (deterministicMargin : S)
    (deterministicTarget : FieldDescriptor) : Verdict :=
  let verifiedRelationLookup :=
    (foreignKeyLookupKey S T source deterministicTarget targetSchema).isSome
  let typeOk := automaticCopyTypeSafe source.dataType deterministicTarget.dataType ||
    verifiedRelationLookup
  let roleOk := roleCompatibleForAutomatic source.role deterministicTarget.role ||
    verifiedRelationLookup
  let contractSafe := automaticMappingContractSafe S T source deterministicTarget targetSchema
  { typeOk, roleOk, contractSafe
    deterministicOk :=
      decide (deterministicTop.targetFieldId = top.targetFieldId) &&
      le m.deterministicAutoFloor deterministicTop.deterministicScore &&
      le m.deterministicMinimumMargin deterministicMargin && typeOk && roleOk && contractSafe }

/-- The score of the second candidate, or zero. -/
def secondScore (key : MappingCandidate S → S) : List (MappingCandidate S) → S
  | _ :: second :: _ => key second
  | _ => lit 0

/-- The decision that `decide` draws from a non-empty ranking. -/
def decision (source : FieldDescriptor) (top deterministicTop : MappingCandidate S) (margin : S)
    (v : Verdict) : MappingDecision S :=
  let status : MappingStatus :=
    if le m.autoThreshold top.score && le m.minimumMargin margin && v.deterministicOk then .auto
    else if le (lit 0.55) top.score || le (lit 0.55) deterministicTop.deterministicScore then
      .review
    else .blocked
  { sourceFieldId := source.id
    targetFieldId := if status = .blocked then none else some top.targetFieldId
    status := status
    score := top.score
    margin := margin
    reasons := top.reasons ++
      (if v.typeOk then [] else ["automatic approval requires compatible declared types"]) ++
      (if v.roleOk then [] else ["automatic approval requires compatible field roles"]) ++
      (if v.contractSafe then []
        else ["automatic approval requires an executable policy route"]) ++
      if !v.deterministicOk then
        ["automatic approval requires independently strong deterministic evidence"]
      else if top.semanticScore.isSome || top.rerankerScore.isSome then
        ["model evidence is advisory; automatic approval is deterministic"]
      else [] }

/-- `decide` -/
def decide (source : FieldDescriptor) (targetSchema : SchemaDescriptor) :
    Except Exn (MappingDecision S) := do
  let candidates ← m.candidatesFor T source targetSchema
  let deterministic := sortedByReverse MappingCandidate.deterministicScore candidates
  match candidates, deterministic with
  | top :: _, deterministicTop :: _ =>
      let margin := sub top.score (secondScore MappingCandidate.score candidates)
      let deterministicMargin := sub deterministicTop.deterministicScore
        (secondScore MappingCandidate.deterministicScore deterministic)
      match targetSchema.fieldById? deterministicTop.targetFieldId with
      | none => throw (.keyError deterministicTop.targetFieldId)
      | some deterministicTarget =>
          return m.decision source top deterministicTop margin
            (m.verdict T source targetSchema top deterministicTop deterministicMargin
              deterministicTarget)
  | _, _ =>
      return { sourceFieldId := source.id, targetFieldId := none, status := .blocked,
               score := lit 0, margin := lit 0, reasons := ["no target fields"] }

/-- The glossary pass of `propose` over one decision. -/
def withGlossary (targetSchema : SchemaDescriptor) (source : FieldDescriptor)
    (decision : MappingDecision S) : MappingDecision S :=
  if decision.status = .auto then decision
  else
    match advisoryGlossaryTarget S T glossary source targetSchema with
    | none => decision
    | some target =>
        if some target.id = decision.targetFieldId then decision
        else
          { sourceFieldId := source.id
            targetFieldId := some target.id
            status := .review
            score := pyMax (lit 0.55) decision.score
            margin := lit 0
            reasons := decision.reasons ++ ["business glossary advisory match"] }

/-- The target a decision claims. Field ids are never empty, so a present id counts. -/
def claimed (decision : MappingDecision S) : Option String :=
  if decision.status = .blocked then none else decision.targetFieldId

/-- Another decision claims the target that this decision claims. -/
def conflicted (decisions : List (MappingDecision S)) (decision : MappingDecision S) : Bool :=
  (claimed decision).isSome &&
    1 < decisions.countP fun other => claimed other = claimed decision

/-- `target_to_sources` groups the decisions by the target they claim; a decision of a group with
more than one member is sent to review. -/
def withConflicts (decisions : List (MappingDecision S)) : List (MappingDecision S) :=
  decisions.map fun decision =>
    if conflicted decisions decision then
      { decision with
        status := .review
        reasons := decision.reasons ++ ["target conflict"] }
    else decision

/-- `propose` -/
def propose (sourceSchema targetSchema : SchemaDescriptor) :
    Except Exn (List (MappingDecision S)) := do
  let decisions ← sourceSchema.fields.mapM fun source => m.decide T source targetSchema
  let advised := (sourceSchema.fields.zip decisions).map fun pair =>
    withGlossary T glossary targetSchema pair.1 pair.2
  return withConflicts advised

end HybridMatcher

end Polymorph
