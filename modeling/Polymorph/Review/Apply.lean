import Mathlib.Data.List.TakeWhile
import Polymorph.Embed.ReviewedRules
import Polymorph.Review.ArtifactStorage

/-!
# Applying a review artifact to a session

The decisions of an artifact are recorded one after another between two calls of `prepare`. What a
call leaves behind is the session's reviews with a known beginning of the decisions recorded, and
nothing when the call stops before its first decision.
-/

set_option autoImplicit false

namespace Polymorph

open JsonText Utc

namespace MoveSession

variable {S : Type} [ScoreArith S]

/-! ## The call -/

/-- `_preparation_fingerprints`, `validate_route` and `require_complete`. -/
def checkArtifact {H : Host} (artifact : ReviewArtifact H) (preparation : RoutePreparation S) :
    Except Exn Unit := do
  let source ← fingerprintText "source_schema_fingerprint"
    (.str (preparation.sourceSchema.fingerprint H))
  let destination ← fingerprintText "destination_schema_fingerprint"
    (.str (preparation.destinationSchema.fingerprint H))
  artifact.validateRoute source destination
  artifact.requireComplete

/-- The loop over the decisions. -/
def recordDecisions (H : Host) (reviewedBy : String) :
    List ReviewDecision → MoveSession S → Except Exn Unit × MoveSession S
  | [], session => (.ok (), session)
  | d :: rest, session =>
      match d.targetField with
      | none =>
          (.error (.polymorphError "complete review decision unexpectedly has no target"), session)
      | some target =>
          match reviewMapping H session d.sourceField target reviewedBy with
          | (.error e, session) => (.error e, session)
          | (.ok (), session) => recordDecisions H reviewedBy rest session

/-- `apply_review_artifact`; the two calls of `prepare` observe `w` and `w'`. -/
def applyReviewArtifact (cfg : SessionConfig S) (session : MoveSession S)
    (artifact : ReviewArtifact cfg.text.toHost) (w w' : PrepareWorld) :
    Except Exn (RoutePreparation S) × MoveSession S :=
  match prepare cfg session w with
  | (.error e, session) => (.error e, session)
  | (.ok preparation, session) =>
      match checkArtifact artifact preparation with
      | .error e => (.error e, session)
      | .ok () =>
          match recordDecisions cfg.text.toHost artifact.reviewedBy artifact.decisions session with
          | (.error e, session) => (.error e, session)
          | (.ok (), session) => prepare cfg session w'

/-! ## What is recorded -/

/-- The decision passes the checks of a reviewed mapping. -/
def isRecordable (H : Host) (reviewedBy : String) (d : ReviewDecision) : Bool :=
  isReviewText H d.sourceField && d.targetField.any (isReviewText H) && isReviewText H reviewedBy

/-- The decision as a review. -/
def reviewOf (reviewedBy : String) (d : ReviewDecision) : ReviewedMapping :=
  ⟨d.sourceField, d.targetField.getD "", reviewedBy⟩

/-- Reviews with some decisions recorded over them. -/
def recordAll (reviewedBy : String) (ds : List ReviewDecision)
    (reviews : List (String × ReviewedMapping)) : List (String × ReviewedMapping) :=
  ds.foldl (fun reviews d => dictSet d.sourceField (reviewOf reviewedBy d) reviews) reviews

/-- The decisions that a call records: none if its first `prepare` raises or its artifact is stale
or incomplete, and else those before the first that is refused. -/
def recordedDecisions (cfg : SessionConfig S) (session : MoveSession S)
    (artifact : ReviewArtifact cfg.text.toHost) (w : PrepareWorld) : List ReviewDecision :=
  match (prepare cfg session w).1 with
  | .error _ => []
  | .ok preparation =>
      match checkArtifact artifact preparation with
      | .error _ => []
      | .ok () => artifact.decisions.takeWhile (isRecordable cfg.text.toHost artifact.reviewedBy)

variable {cfg : SessionConfig S} {session : MoveSession S}

omit [ScoreArith S] in
/-- One review, by whether its texts pass. -/
theorem reviewMapping_eq (H : Host) (sourceFieldId targetFieldId reviewedBy : String) :
    ((isReviewText H sourceFieldId && isReviewText H targetFieldId &&
        isReviewText H reviewedBy) = true ∧
      reviewMapping H session sourceFieldId targetFieldId reviewedBy = (.ok (), { session with
        reviews := dictSet sourceFieldId ⟨sourceFieldId, targetFieldId, reviewedBy⟩ session.reviews
        preparation := none })) ∨
    ((isReviewText H sourceFieldId && isReviewText H targetFieldId &&
        isReviewText H reviewedBy) = false ∧
      ∃ e, reviewMapping H session sourceFieldId targetFieldId reviewedBy = (.error e, session)) := by
  unfold reviewMapping ReviewedMapping.make
  cases hsource : isReviewText H sourceFieldId with
  | false => exact .inr ⟨rfl, _, rfl⟩
  | true =>
      cases htarget : isReviewText H targetFieldId with
      | false => exact .inr ⟨rfl, _, rfl⟩
      | true =>
          cases hreviewer : isReviewText H reviewedBy with
          | false => exact .inr ⟨rfl, _, rfl⟩
          | true => exact .inl ⟨rfl, rfl⟩

omit [ScoreArith S] in
/-- The loop records the decisions before the first that is refused, and returns when none is. -/
theorem recordDecisions_spec (H : Host) (reviewedBy : String) (ds : List ReviewDecision) :
    (recordDecisions H reviewedBy ds session).2.reviews =
        recordAll reviewedBy (ds.takeWhile (isRecordable H reviewedBy)) session.reviews ∧
      ((recordDecisions H reviewedBy ds session).1 = .ok () →
        ∀ d ∈ ds, isRecordable H reviewedBy d = true) ∧
      (ds.takeWhile (isRecordable H reviewedBy) = [] →
        (recordDecisions H reviewedBy ds session).2 = session) := by
  induction ds generalizing session with
  | nil => exact ⟨rfl, fun _ d hd => absurd hd List.not_mem_nil, fun _ => rfl⟩
  | cons d ds ih =>
      have hrefused : ∀ e, isRecordable H reviewedBy d = false →
          recordDecisions H reviewedBy (d :: ds) session = (.error e, session) →
          (recordDecisions H reviewedBy (d :: ds) session).2.reviews = recordAll reviewedBy
              ((d :: ds).takeWhile (isRecordable H reviewedBy)) session.reviews ∧
            ((recordDecisions H reviewedBy (d :: ds) session).1 = .ok () →
              ∀ d' ∈ d :: ds, isRecordable H reviewedBy d' = true) ∧
            ((d :: ds).takeWhile (isRecordable H reviewedBy) = [] →
              (recordDecisions H reviewedBy (d :: ds) session).2 = session) := by
        intro e hd hresult
        rw [hresult, List.takeWhile_cons, hd]
        refine ⟨rfl, ?_, fun _ => rfl⟩
        intro h
        cases h
      cases htarget : d.targetField with
      | none =>
          refine hrefused (.polymorphError "complete review decision unexpectedly has no target")
            ?_ ?_
          · rw [isRecordable, htarget, Option.any_none, Bool.and_false, Bool.false_and]
          · rw [recordDecisions, htarget]
      | some target =>
          rcases (@reviewMapping_eq _ session) H d.sourceField target reviewedBy with
            ⟨hrecordable, hreview⟩ | ⟨hrecordable, e, hreview⟩
          · have hd : isRecordable H reviewedBy d = true := by
              rw [isRecordable, htarget]
              exact hrecordable
            have hstep : recordDecisions H reviewedBy (d :: ds) session =
                recordDecisions H reviewedBy ds { session with
                  reviews := dictSet d.sourceField ⟨d.sourceField, target, reviewedBy⟩
                    session.reviews
                  preparation := none } := by
              rw [recordDecisions, htarget]
              simp only [hreview]
            obtain ⟨hreviews, hall, -⟩ := @ih { session with
              reviews := dictSet d.sourceField ⟨d.sourceField, target, reviewedBy⟩ session.reviews
              preparation := none }
            rw [hstep, List.takeWhile_cons, hd]
            refine ⟨?_, ?_, ?_⟩
            · rw [hreviews, if_pos rfl, recordAll, recordAll, List.foldl_cons, reviewOf, htarget]
              rfl
            · intro hok d' hd'
              rcases List.mem_cons.1 hd' with rfl | hd'
              · exact hd
              · exact hall hok d' hd'
            · intro hnil
              cases hnil
          · refine hrefused e ?_ ?_
            · rw [isRecordable, htarget]
              exact hrecordable
            · rw [recordDecisions, htarget]
              simp only [hreview]

omit [ScoreArith S] in
theorem recordDecisions_of_recordable {H : Host} {reviewedBy : String} {ds : List ReviewDecision}
    (h : ∀ d ∈ ds, isRecordable H reviewedBy d = true) :
    (recordDecisions H reviewedBy ds session).1 = .ok () := by
  induction ds generalizing session with
  | nil => rfl
  | cons d ds ih =>
      have hd := h d List.mem_cons_self
      rw [isRecordable] at hd
      cases htarget : d.targetField with
      | none =>
          rw [htarget, Option.any_none, Bool.and_false, Bool.false_and] at hd
          cases hd
      | some target =>
          rw [htarget, Option.any_some] at hd
          rcases (@reviewMapping_eq _ session) H d.sourceField target reviewedBy with
            ⟨-, hreview⟩ | ⟨hrefused, -⟩
          · rw [recordDecisions, htarget]
            simp only [hreview]
            exact ih fun d' hd' => h d' (List.mem_cons_of_mem _ hd')
          · rw [hd] at hrefused
            cases hrefused

/-! ## Recorded reviews -/

/-- A review that no decision names is kept. -/
theorem recordAll_of_notMem {reviewedBy k : String} {ds : List ReviewDecision}
    {reviews : List (String × ReviewedMapping)} (h : k ∉ ds.map ReviewDecision.sourceField) :
    dictGet k (recordAll reviewedBy ds reviews) = dictGet k reviews := by
  induction ds generalizing reviews with
  | nil => rfl
  | cons d ds ih =>
      rw [List.map_cons, List.mem_cons, not_or] at h
      rw [recordAll, List.foldl_cons]
      exact (ih h.2).trans (dictGet_dictSet_of_ne h.1 _ _)

/-- The review of a decision names its target. -/
theorem recordAll_of_mem {reviewedBy : String} {ds : List ReviewDecision}
    {reviews : List (String × ReviewedMapping)} (h : (ds.map ReviewDecision.sourceField).Nodup)
    {d : ReviewDecision} (hd : d ∈ ds) :
    dictGet d.sourceField (recordAll reviewedBy ds reviews) = some (reviewOf reviewedBy d) := by
  induction ds generalizing reviews with
  | nil => cases hd
  | cons d' ds ih =>
      rw [List.map_cons, List.nodup_cons] at h
      rw [recordAll, List.foldl_cons]
      rcases List.mem_cons.1 hd with rfl | hd
      · exact (recordAll_of_notMem h.1).trans (dictGet_dictSet_self _ _ _)
      · exact ih h.2 hd

theorem resolved_some {α : Type} (a : α) (resolve : Except Exn α) :
    resolved (some a) resolve = .ok a := rfl

/-- Preparing again under the same answers gives the same result. -/
theorem prepare_again (w : PrepareWorld) :
    (prepare cfg (prepare cfg session w).2 w).1 = (prepare cfg session w).1 := by
  rcases Option.eq_none_or_eq_some session.preparation with hpreparation | ⟨p, hpreparation⟩
  · cases hsource : resolved session.source w.resolveSource with
    | error e =>
        simp only [prepare, hpreparation, hsource]
    | ok source =>
        cases hdestination : resolved session.destination w.resolveDestination with
        | error e =>
            simp only [prepare, hpreparation, hsource, hdestination]
            rfl
        | ok destination =>
            cases hsourceSchema : w.sourceSchema with
            | error e =>
                simp only [prepare, hpreparation, hsource, hdestination, hsourceSchema]
                rfl
            | ok sourceSchema =>
                cases hdestinationSchema : w.destinationSchema with
                | error e =>
                    simp only [prepare, hpreparation, hsource, hdestination, hsourceSchema,
                      hdestinationSchema]
                    rfl
                | ok destinationSchema =>
                    cases hroute : prepareRoute cfg session.reviews source destination w
                        sourceSchema destinationSchema with
                    | error e =>
                        simp only [prepare, hpreparation, hsource, hdestination, hsourceSchema,
                          hdestinationSchema, hroute, resolved_some]
                    | ok p =>
                        simp only [prepare, hpreparation, hsource, hdestination, hsourceSchema,
                          hdestinationSchema, hroute]
  · simp only [prepare, hpreparation]

/-! ## The result of a call -/

/-- What a call leaves behind, by the decisions it recorded. -/
theorem apply_spec (artifact : ReviewArtifact cfg.text.toHost) (w w' : PrepareWorld) :
    (applyReviewArtifact cfg session artifact w w').2.reviews = recordAll artifact.reviewedBy
        (recordedDecisions cfg session artifact w) session.reviews ∧
      (∀ p, (applyReviewArtifact cfg session artifact w w').1 = .ok p →
        recordedDecisions cfg session artifact w = artifact.decisions ∧
        ∀ d ∈ artifact.decisions, isRecordable cfg.text.toHost artifact.reviewedBy d = true) ∧
      ((∃ e, (applyReviewArtifact cfg session artifact w w').1 = .error e) →
        recordedDecisions cfg session artifact w = [] →
        (applyReviewArtifact cfg session artifact w w').2 = (prepare cfg session w).2) := by
  obtain ⟨hkept, -, -⟩ := (@prepare_spec _ _ cfg session) w
  unfold applyReviewArtifact recordedDecisions
  rcases hprepare : prepare cfg session w with ⟨outcome, prepared⟩
  rw [hprepare] at hkept
  cases outcome with
  | error e =>
      refine ⟨hkept, ?_, fun _ _ => rfl⟩
      intro p hp
      cases hp
  | ok preparation =>
      dsimp only
      cases hcheck : checkArtifact artifact preparation with
      | error e =>
          refine ⟨hkept, ?_, fun _ _ => rfl⟩
          intro p hp
          cases hp
      | ok u =>
          obtain ⟨hreviews, hall, hnone⟩ := (@recordDecisions_spec _ prepared)
            cfg.text.toHost artifact.reviewedBy artifact.decisions
          dsimp only
          rcases hrecord : recordDecisions cfg.text.toHost artifact.reviewedBy artifact.decisions
            prepared with ⟨recorded, after⟩
          rw [hrecord] at hreviews hall hnone
          rw [hkept] at hreviews
          cases recorded with
          | error e =>
              refine ⟨hreviews, ?_, fun _ hnil => hnone hnil⟩
              intro p hp
              cases hp
          | ok u =>
              have hall := hall rfl
              obtain ⟨hkept', -, -⟩ := (@prepare_spec _ _ cfg after) w'
              have htake : artifact.decisions.takeWhile
                  (isRecordable cfg.text.toHost artifact.reviewedBy) = artifact.decisions :=
                List.takeWhile_eq_self_iff.2 hall
              refine ⟨hkept'.trans hreviews, fun _ _ => ⟨htake, hall⟩, ?_⟩
              intro _ hnil
              rw [htake] at hnil
              exact absurd hnil artifact.decisions_count.1

theorem recordedDecisions_initial (artifact : ReviewArtifact cfg.text.toHost) (w : PrepareWorld) :
    recordedDecisions cfg session artifact w <+: artifact.decisions := by
  unfold recordedDecisions
  split
  · exact List.nil_prefix
  · split
    · exact List.nil_prefix
    · exact List.takeWhile_prefix _

/-- **Applying an artifact.** The reviews of the recorded decisions name their targets and every
other review is unchanged; a call that raises before its first decision leaves the reviews and the
next `prepare` as they were; a call that returns has recorded every decision. -/
theorem apply_records_prefix (cfg : SessionConfig S) (session : MoveSession S)
    (artifact : ReviewArtifact cfg.text.toHost) (w w' : PrepareWorld) :
    recordedDecisions cfg session artifact w <+: artifact.decisions ∧
    (∀ d ∈ recordedDecisions cfg session artifact w,
      dictGet d.sourceField (applyReviewArtifact cfg session artifact w w').2.reviews =
        some (reviewOf artifact.reviewedBy d)) ∧
    (∀ k, k ∉ (recordedDecisions cfg session artifact w).map ReviewDecision.sourceField →
      dictGet k (applyReviewArtifact cfg session artifact w w').2.reviews =
        dictGet k session.reviews) ∧
    ((∃ e, (applyReviewArtifact cfg session artifact w w').1 = .error e) →
      recordedDecisions cfg session artifact w = [] →
      (applyReviewArtifact cfg session artifact w w').2.reviews = session.reviews ∧
      (prepare cfg (applyReviewArtifact cfg session artifact w w').2 w).1 =
        (prepare cfg session w).1) ∧
    ∀ p, (applyReviewArtifact cfg session artifact w w').1 = .ok p →
      recordedDecisions cfg session artifact w = artifact.decisions ∧
      ∀ d ∈ artifact.decisions, ∃ target review, d.targetField = some target ∧
        dictGet d.sourceField (applyReviewArtifact cfg session artifact w w').2.reviews =
          some review ∧ review.targetFieldId = target := by
  obtain ⟨hreviews, hreturned, hraised⟩ := (@apply_spec _ _ _ session) artifact w w'
  have hmoved := (@recordedDecisions_initial _ _ _ session) artifact w
  have hnodup : (artifact.decisions.map ReviewDecision.sourceField).Nodup :=
    (checkDistinct_eq_ok.1 artifact.decisions_distinct).1.1
  have hrecorded : ∀ d ∈ recordedDecisions cfg session artifact w,
      dictGet d.sourceField (applyReviewArtifact cfg session artifact w w').2.reviews =
        some (reviewOf artifact.reviewedBy d) := by
    intro d hd
    rw [hreviews]
    exact recordAll_of_mem (hnodup.sublist (hmoved.sublist.map _)) hd
  refine ⟨hmoved, hrecorded, ?_, ?_, ?_⟩
  · intro k hk
    rw [hreviews]
    exact recordAll_of_notMem hk
  · intro herror hnil
    rw [hreviews, hnil, hraised herror hnil]
    exact ⟨rfl, prepare_again w⟩
  · intro p hp
    obtain ⟨hall, hrecordable⟩ := hreturned p hp
    refine ⟨hall, fun d hd => ?_⟩
    have hd' := hrecordable d hd
    rw [isRecordable, Bool.and_eq_true, Bool.and_eq_true, Option.any_eq_true] at hd'
    obtain ⟨target, htarget, -⟩ := hd'.1.2
    refine ⟨target, _, htarget, hrecorded d (hall.symm ▸ hd), ?_⟩
    rw [reviewOf, htarget]
    rfl

/-! ## A half applied artifact -/

/-- A route holds the schemas it was made from. -/
theorem prepareRoute_schemas {reviews : List (String × ReviewedMapping)} {source : ResolvedSource}
    {destination : String} {w : PrepareWorld} {sourceSchema destinationSchema : SchemaDescriptor}
    {p : RoutePreparation S} (h : prepareRoute cfg reviews source destination w sourceSchema
      destinationSchema = .ok p) :
    p.sourceSchema = sourceSchema ∧ p.destinationSchema = destinationSchema := by
  unfold prepareRoute at h
  obtain ⟨proposed, -, h⟩ := bind_eq_ok h
  obtain ⟨reviewed, -, h⟩ := bind_eq_ok h
  dsimp only at h
  split at h
  · cases h
    exact ⟨rfl, rfl⟩
  split at h
  · cases h
    exact ⟨rfl, rfl⟩
  · obtain ⟨plan, -, h⟩ := bind_eq_ok h
    obtain ⟨records, -, h⟩ := bind_eq_ok h
    obtain ⟨report, -, h⟩ := bind_eq_ok h
    cases h
    exact ⟨rfl, rfl⟩

/-- The first route of a session is between the schemas that its `prepare` observed. -/
theorem prepare_schemas {w : PrepareWorld} {p : RoutePreparation S}
    {sourceSchema destinationSchema : SchemaDescriptor} (hsource : w.sourceSchema = .ok sourceSchema)
    (hdestination : w.destinationSchema = .ok destinationSchema)
    (h : (prepare cfg {} w).1 = .ok p) :
    p.sourceSchema = sourceSchema ∧ p.destinationSchema = destinationSchema := by
  unfold prepare at h
  dsimp only at h
  split at h
  · cases h
  split at h
  · cases h
  rw [hsource, hdestination] at h
  dsimp only at h
  split at h
  · cases h
  · rename_i hroute
    cases h
    exact prepareRoute_schemas hroute

omit [ScoreArith S] in
theorem checkArtifact_of_fingerprints {H : Host} {artifact : ReviewArtifact H}
    {preparation : RoutePreparation S}
    (hsource : artifact.sourceSchemaFingerprint = preparation.sourceSchema.fingerprint H)
    (hdestination : artifact.destinationSchemaFingerprint =
      preparation.destinationSchema.fingerprint H)
    (hcomplete : artifact.decisions.any (fun d => d.disposition = .abstained) = false) :
    checkArtifact artifact preparation = .ok () := by
  have hfingerprint : ∀ name (schema : SchemaDescriptor),
      fingerprintText name (.str (schema.fingerprint H)) = .ok (schema.fingerprint H) :=
    fun name schema => fingerprintText_eq_ok.2 ⟨rfl, H.sha256Hex_digits _⟩
  rw [checkArtifact, hfingerprint, hfingerprint, ok_bind, ok_bind, ReviewArtifact.validateRoute,
    hfingerprint, hfingerprint, ReviewArtifact.requireComplete, hcomplete, hsource, hdestination]
  simp only [ok_bind, ne_eq, not_true_eq_false, if_false, Bool.false_eq_true]
  rfl

/-- A field that no field of the source resembles. -/
def otherTarget : SchemaDescriptor where
  id := "target"
  fields := [{ id := "t", name := "q", dataType := .integer, nullable := false }]

/-- A route between `plainSource` and `otherTarget`. -/
noncomputable def blockedWorld : PrepareWorld :=
  { plainWorld.prepare with destinationSchema := .ok otherTarget }

/-- One decision that can be recorded. -/
def firstDecision : ReviewDecision :=
  ⟨"a", some "t", .accepted, ReviewArtifact.openDecision.sourceField_bounded, by decide,
    by decide⟩

/-- A decision whose target ends with a blank, which a reviewed mapping does not allow. -/
def blankTarget : ReviewDecision :=
  ⟨"b", some "t ", .accepted, by decide, by decide, by decide⟩

/-- An artifact for the route. -/
noncomputable def routeArtifact (decisions : List ReviewDecision)
    (hcount : decisions ≠ [] ∧ decisions.length ≤ maxReviewDecisions)
    (hdistinct : checkDistinct [] [] decisions = .ok ()) :
    ReviewArtifact standardTextHost.toHost where
  artifactId := "route"
  sourceSchemaFingerprint := plainSource.fingerprint standardTextHost.toHost
  destinationSchemaFingerprint := otherTarget.fingerprint standardTextHost.toHost
  reviewedBy := "ops"
  createdAt := ReviewArtifact.sampleInstant.isoformat
  decisions := decisions
  artifactId_bounded := by decide
  source_fingerprint := standardTextHost.sha256Hex_digits _
  destination_fingerprint := standardTextHost.sha256Hex_digits _
  reviewedBy_bounded := by decide
  createdAt_timestamp := ReviewArtifact.isTimestamp_isoformat _
  decisions_count := hcount
  decisions_distinct := hdistinct

/-- An artifact that is applied as a whole. -/
noncomputable def wholeArtifact : ReviewArtifact plainConfig.text.toHost :=
  routeArtifact [firstDecision] (by decide) (by decide)

/-- An artifact that is refused at its second decision. -/
noncomputable def halfArtifact : ReviewArtifact plainConfig.text.toHost :=
  routeArtifact [firstDecision, blankTarget] (by decide) (by decide)

/-- The first `prepare` of the route succeeds, and both artifacts belong to it. -/
theorem prepare_blocked : ∃ preparation,
    (prepare plainConfig {} blockedWorld).1 = .ok preparation ∧
    checkArtifact wholeArtifact preparation = .ok () ∧
    checkArtifact halfArtifact preparation = .ok () := by
  have hok : ((prepare plainConfig {} blockedWorld).1.toOption).isSome = true := by decide +kernel
  cases hprepare : (prepare plainConfig {} blockedWorld).1 with
  | error e =>
      rw [hprepare] at hok
      cases hok
  | ok preparation =>
      obtain ⟨hsource, hdestination⟩ := prepare_schemas rfl rfl hprepare
      refine ⟨preparation, rfl, ?_, ?_⟩
      · exact checkArtifact_of_fingerprints (by rw [hsource]; rfl) (by rw [hdestination]; rfl) rfl
      · exact checkArtifact_of_fingerprints (by rw [hsource]; rfl) (by rw [hdestination]; rfl) rfl

/-- A call whose decisions are all recorded ends with its second `prepare`. -/
theorem apply_eq_prepare {artifact : ReviewArtifact cfg.text.toHost} {w : PrepareWorld}
    {preparation : RoutePreparation S} (hprepare : (prepare cfg session w).1 = .ok preparation)
    (hcheck : checkArtifact artifact preparation = .ok ())
    (hrecord : (recordDecisions cfg.text.toHost artifact.reviewedBy artifact.decisions
      (prepare cfg session w).2).1 = .ok ()) (w' : PrepareWorld) :
    applyReviewArtifact cfg session artifact w w' = prepare cfg (recordDecisions cfg.text.toHost
      artifact.reviewedBy artifact.decisions (prepare cfg session w).2).2 w' := by
  unfold applyReviewArtifact
  rcases hfirst : prepare cfg session w with ⟨outcome, prepared⟩
  rw [hfirst] at hprepare hrecord
  cases hprepare
  rcases hloop : recordDecisions cfg.text.toHost artifact.reviewedBy artifact.decisions prepared
    with ⟨recorded, after⟩
  rw [hloop] at hrecord
  cases hrecord
  simp only [hcheck, hloop]

/-- The call raises and leaves the first decision behind. -/
theorem apply_half_recorded :
    (∃ e, (applyReviewArtifact plainConfig {} halfArtifact blockedWorld blockedWorld).1 =
      .error e) ∧
    (applyReviewArtifact plainConfig {} halfArtifact blockedWorld blockedWorld).2.reviews =
      [("a", ⟨"a", "t", "ops"⟩)] := by
  obtain ⟨preparation, hprepare, -, hcheck⟩ := prepare_blocked
  have hrecorded : recordedDecisions plainConfig {} halfArtifact blockedWorld = [firstDecision] := by
    rw [recordedDecisions, hprepare]
    simp only [hcheck]
    decide +kernel
  obtain ⟨hreviews, hreturned, -⟩ :=
    (@apply_spec _ _ plainConfig {}) halfArtifact blockedWorld blockedWorld
  refine ⟨?_, ?_⟩
  · cases hresult : (applyReviewArtifact plainConfig {} halfArtifact blockedWorld
        blockedWorld).1 with
    | error e => exact ⟨e, rfl⟩
    | ok p =>
        have hall := (hreturned p hresult).1
        rw [hrecorded] at hall
        cases hall
  · rw [hreviews, hrecorded]
    rfl

theorem apply_records_prefix_sample : ∃ review,
    dictGet "a" (applyReviewArtifact plainConfig {} wholeArtifact blockedWorld
      blockedWorld).2.reviews = some review ∧ review.targetFieldId = "t" := by
  obtain ⟨preparation, hprepare, hcheck, -⟩ := prepare_blocked
  have hrecordable : ∀ d ∈ wholeArtifact.decisions,
      isRecordable plainConfig.text.toHost wholeArtifact.reviewedBy d = true := by
    decide +kernel
  have hrecord := (@recordDecisions_of_recordable _ ((prepare plainConfig {} blockedWorld).2))
    hrecordable
  have hok : ((prepare plainConfig (recordDecisions plainConfig.text.toHost
      wholeArtifact.reviewedBy wholeArtifact.decisions
      (prepare plainConfig {} blockedWorld).2).2 blockedWorld).1.toOption).isSome = true := by
    decide +kernel
  have happly := (@apply_eq_prepare _ _ _ _ wholeArtifact) hprepare hcheck hrecord blockedWorld
  cases hresult : (applyReviewArtifact plainConfig {} wholeArtifact blockedWorld
      blockedWorld).1 with
  | error e =>
      rw [happly] at hresult
      rw [hresult] at hok
      cases hok
  | ok p =>
      obtain ⟨-, -, -, -, hreturned⟩ :=
        apply_records_prefix plainConfig {} wholeArtifact blockedWorld blockedWorld
      obtain ⟨target, review, htarget, hreview, heq⟩ :=
        (hreturned p hresult).2 firstDecision List.mem_cons_self
      cases htarget
      exact ⟨review, hreview, heq⟩

end MoveSession

end Polymorph
