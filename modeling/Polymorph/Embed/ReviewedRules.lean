import Polymorph.Embed.MoveSession

/-!
# No unreviewed rule reaches the write boundary

The calls on one session, and the invariant of its states: recorded reviews come from calls of
`review_mapping`, and a prepared route was prepared under the recorded reviews. A route that passes
the gates of `execute` then consists of automatic pairs without a review and of reviewed pairs.
-/

set_option autoImplicit false

namespace Polymorph

open JsonText

variable {S : Type} [ScoreArith S]

/-- A call on a session. -/
inductive SessionCall where
  | reviewMapping (sourceFieldId targetFieldId reviewedBy : String)
  | prepare (w : PrepareWorld)
  | execute (w : ExecuteWorld)

namespace MoveSession

variable {cfg : SessionConfig S} {session : MoveSession S}

/-- The session after a call, whatever the call returned or raised. -/
def step (cfg : SessionConfig S) (session : MoveSession S) : SessionCall → MoveSession S
  | .reviewMapping s t by_ => (reviewMapping cfg.text.toHost session s t by_).2
  | .prepare w => (prepare cfg session w).2
  | .execute w => (execute cfg session w).2.1

/-- The session after a sequence of calls on a new one. -/
def run (cfg : SessionConfig S) (calls : List SessionCall) : MoveSession S :=
  calls.foldl (step cfg) {}

/-! ## The override loop -/

/-- What the override loop makes of a proposed decision. -/
inductive Overridden (reviews : List (String × ReviewedMapping)) (d : MappingDecision S) :
    MappingDecision S → Prop where
  | kept : dictGet d.sourceFieldId reviews = none → Overridden reviews d d
  | blocked {r : ReviewedMapping} : dictGet d.sourceFieldId reviews = some r →
      d.status = .blocked → Overridden reviews d d
  | reviewed {r : ReviewedMapping} {d' : MappingDecision S} :
      dictGet d.sourceFieldId reviews = some r → d.status ≠ .blocked →
      d'.sourceFieldId = d.sourceFieldId → d'.targetFieldId = some r.targetFieldId →
      d'.status = .review → Overridden reviews d d'

/-- No review overrides the decision. -/
def Unreviewed (reviews : List (String × ReviewedMapping)) (d : MappingDecision S) : Prop :=
  d.status ≠ .blocked → dictGet d.sourceFieldId reviews = none

/-- A decision that leaves neither a block nor an open review behind. -/
def Settled (reviews : List (String × ReviewedMapping)) (d : MappingDecision S) : Prop :=
  (dictGet d.sourceFieldId reviews = none → d.status = .auto) ∧ d.status ≠ .blocked

omit [ScoreArith S] in
theorem overrideDecision_eq_ok {reviews : List (String × ReviewedMapping)}
    {schema : SchemaDescriptor} {state state' : Reviewed S} {d : MappingDecision S}
    (h : overrideDecision reviews schema state d = .ok state') :
    ∃ d', Overridden reviews d d' ∧ state'.decisions = state.decisions ++ [d'] ∧
      state.blocked ≤ state'.blocked ∧ state.unresolvedReviews ≤ state'.unresolvedReviews ∧
      (state'.reviewedMappings = [] → state.reviewedMappings = [] ∧ Unreviewed reviews d) ∧
      (state'.blocked = 0 → state'.unresolvedReviews = 0 → Settled reviews d) := by
  unfold overrideDecision at h
  cases hreview : dictGet d.sourceFieldId reviews with
  | none =>
      rw [hreview] at h
      cases h
      refine ⟨d, .kept hreview, rfl, Nat.le_add_right _ _, Nat.le_add_right _ _,
        fun hnone => ⟨hnone, fun _ => hreview⟩, ?_⟩
      intro hblocked hunresolved
      dsimp only at hblocked hunresolved
      cases hstatus : d.status with
      | auto => exact ⟨fun _ => hstatus, by rw [hstatus]; nofun⟩
      | review =>
          rw [hstatus] at hunresolved
          simp at hunresolved
      | blocked =>
          rw [hstatus] at hblocked
          simp at hblocked
  | some r =>
      rw [hreview] at h
      dsimp only at h
      split at h
      · cases h
      · split at h
        · rename_i hstatus
          cases h
          refine ⟨d, .blocked hreview hstatus, rfl, Nat.le_succ _, le_rfl,
            fun hnone => ⟨hnone, fun hopen => absurd hstatus hopen⟩, ?_⟩
          intro hblocked
          exact absurd hblocked (Nat.succ_ne_zero _)
        · rename_i hstatus
          cases h
          refine ⟨_, ?_, rfl, le_rfl, le_rfl, ?_, ?_⟩
          · exact .reviewed hreview hstatus rfl rfl rfl
          · intro hnone
            exact absurd hnone (by simp)
          · intro _ _
            exact ⟨fun hnone => absurd (hreview.symm.trans hnone) (by nofun), hstatus⟩

omit [ScoreArith S] in
theorem overrideDecisions_eq_ok {reviews : List (String × ReviewedMapping)}
    {schema : SchemaDescriptor} {proposed : List (MappingDecision S)} {state state' : Reviewed S}
    (h : proposed.foldlM (overrideDecision reviews schema) state = .ok state') :
    ∃ ds, List.Forall₂ (Overridden reviews) proposed ds ∧
      state'.decisions = state.decisions ++ ds ∧ state.blocked ≤ state'.blocked ∧
      state.unresolvedReviews ≤ state'.unresolvedReviews ∧
      (state'.reviewedMappings = [] → state.reviewedMappings = [] ∧
        ∀ d ∈ proposed, Unreviewed reviews d) ∧
      (state'.blocked = 0 → state'.unresolvedReviews = 0 → ∀ d ∈ proposed, Settled reviews d) := by
  induction proposed generalizing state with
  | nil =>
      cases h
      exact ⟨[], .nil, (List.append_nil _).symm, le_rfl, le_rfl,
        fun hnone => ⟨hnone, nofun⟩, fun _ _ => nofun⟩
  | cons d proposed ih =>
      rw [List.foldlM_cons] at h
      obtain ⟨mid, hmid, h⟩ := bind_eq_ok h
      obtain ⟨d', hd', hdecisions, hblocked, hunresolved, hnone, hsettled⟩ :=
        overrideDecision_eq_ok hmid
      obtain ⟨ds, hds, hdecisions', hblocked', hunresolved', hnone', hsettled'⟩ := ih h
      refine ⟨d' :: ds, .cons hd' hds, ?_, hblocked.trans hblocked',
        hunresolved.trans hunresolved', ?_, ?_⟩
      · rw [hdecisions', hdecisions, List.append_assoc]
        rfl
      · intro hempty
        obtain ⟨hmidEmpty, hrest⟩ := hnone' hempty
        obtain ⟨hstateEmpty, hfirst⟩ := hnone hmidEmpty
        refine ⟨hstateEmpty, fun e he => ?_⟩
        rcases List.mem_cons.1 he with rfl | he
        · exact hfirst
        · exact hrest e he
      · intro hb hu e he
        rcases List.mem_cons.1 he with rfl | he
        · exact hsettled (Nat.le_zero.1 (hb ▸ hblocked')) (Nat.le_zero.1 (hu ▸ hunresolved'))
        · exact hsettled' hb hu e he

/-! ## A ready route -/

/-- What a rule of a route rests on: an automatic pair without a review, or a review of a source
field that was not blocked. -/
def Authorized (reviews : List (String × ReviewedMapping)) (proposed : List (MappingDecision S))
    (rule : MappingRule) : Prop :=
  ∃ d ∈ proposed, d.sourceFieldId = rule.sourceFieldId ∧
    ((d.status = .auto ∧ d.targetFieldId = some rule.targetFieldId ∧
        dictGet d.sourceFieldId reviews = none) ∨
      (d.status ≠ .blocked ∧ ∃ r, dictGet d.sourceFieldId reviews = some r ∧
        r.targetFieldId = rule.targetFieldId))

/-- A route that was prepared under the reviews and is ready to execute. -/
structure ReadyRoute (cfg : SessionConfig S) (reviews : List (String × ReviewedMapping))
    (p : RoutePreparation S) (plan : MappingPlan) (proposed : List (MappingDecision S)) : Prop where
  proposed_eq : cfg.matcher.propose cfg.text cfg.glossary p.sourceSchema p.destinationSchema =
    .ok proposed
  rules : ∀ rule ∈ plan.rules, Authorized reviews proposed rule
  targets : (plan.rules.map MappingRule.targetFieldId).Nodup
  covered : ∀ d ∈ proposed, d.status ≠ .auto → d.status ≠ .blocked ∧
    ∃ r, dictGet d.sourceFieldId reviews = some r ∧
      ∃ rule ∈ plan.rules, rule.sourceFieldId = d.sourceFieldId ∧
        rule.targetFieldId = r.targetFieldId

theorem promotable_of_ready {report : PreflightReport} (h : preflightStatus report = .ready) :
    report.promotable = true := by
  unfold preflightStatus at h
  split at h
  · assumption
  · split at h <;> cases h

/-- A promotable preflight found no blocking finding in the plan. -/
theorem plan_valid_of_promotable {H : Host} {stream : RecordStream} {maxRecords maxInput : Option Int}
    {sourceSchema targetSchema : SchemaDescriptor} {plan : MappingPlan}
    {resolver : Option ForeignKeyResolver} {report : PreflightReport}
    (h : Preflight.run H stream sourceSchema targetSchema plan maxRecords maxInput resolver =
      .ok report) (hpromotable : report.promotable = true) :
    (PlanValidator.validate H plan sourceSchema targetSchema).valid = true := by
  unfold Preflight.run at h
  obtain ⟨sample, -, h⟩ := bind_eq_ok h
  obtain ⟨limit, -, h⟩ := bind_eq_ok h
  dsimp only at h
  split at h
  · cases h
    simp [PreflightReport.promotable] at hpromotable
  · rename_i hvalid
    simpa using hvalid

/-- The rules of a plan built from settled decisions. -/
theorem authorized_of_buildPlan {reviews : List (String × ReviewedMapping)}
    {proposed ds : List (MappingDecision S)} {rs : List (Option MappingRule)}
    {sourceSchema destinationSchema : SchemaDescriptor} {allowReview : Bool}
    (hds : List.Forall₂ (Overridden reviews) proposed ds)
    (hrs : List.Forall₂ (fun d r =>
      decisionRule cfg.text sourceSchema destinationSchema allowReview d = .ok r) ds rs)
    (hsettled : ∀ d ∈ proposed, Settled reviews d)
    (hallow : allowReview = false → ∀ d ∈ proposed, Unreviewed reviews d) :
    (∀ rule ∈ rs.filterMap id, Authorized reviews proposed rule) ∧
      ∀ d ∈ proposed, d.status ≠ .auto → d.status ≠ .blocked ∧
        ∃ r, dictGet d.sourceFieldId reviews = some r ∧
          ∃ rule ∈ rs.filterMap id, rule.sourceFieldId = d.sourceFieldId ∧
            rule.targetFieldId = r.targetFieldId := by
  constructor
  · intro rule hrule
    obtain ⟨r, hr, hsome⟩ := List.mem_filterMap.1 hrule
    obtain rfl : r = some rule := hsome
    obtain ⟨d', hd', hdecision⟩ := forall₂_partner_right hrs hr
    obtain ⟨d, hd, hover⟩ := forall₂_partner_right hds hd'
    obtain ⟨hsource, htarget⟩ := (decisionRule_eq_ok hdecision).1 rule rfl
    obtain ⟨hauto, hopen⟩ := hsettled d hd
    cases hover with
    | kept hnone => exact ⟨_, hd, hsource.symm, .inl ⟨hauto hnone, htarget, hnone⟩⟩
    | blocked _ hblocked => exact absurd hblocked hopen
    | @reviewed review _ hreview _ hsame hreviewed _ =>
        refine ⟨d, hd, hsame.symm.trans hsource.symm, .inr ⟨hopen, review, hreview, ?_⟩⟩
        exact Option.some.inj (hreviewed.symm.trans htarget)
  · intro d hd hstatus
    obtain ⟨hauto, hopen⟩ := hsettled d hd
    obtain ⟨d', hd', hover⟩ := forall₂_partner hds hd
    refine ⟨hopen, ?_⟩
    cases hover with
    | kept hnone => exact absurd (hauto hnone) hstatus
    | blocked _ hblocked => exact absurd hblocked hopen
    | @reviewed review _ hreview _ hsame hreviewed hstatus' =>
        obtain ⟨r, hr, hdecision⟩ := forall₂_partner hrs hd'
        obtain ⟨hfields, hpresent⟩ := decisionRule_eq_ok hdecision
        have hallowed : allowReview = true := by
          cases allowReview with
          | true => rfl
          | false =>
              have hnone := hallow rfl d hd hopen
              rw [hreview] at hnone
              cases hnone
        have hsome : r.isSome = true :=
          hpresent (by rw [hreviewed]; rfl) (by rw [hstatus']; nofun) fun _ => hallowed
        obtain ⟨rule, rfl⟩ := Option.isSome_iff_exists.1 hsome
        obtain ⟨hsource, htarget⟩ := hfields rule rfl
        refine ⟨review, hreview, rule, List.mem_filterMap.2 ⟨_, hr, rfl⟩, hsource.trans hsame, ?_⟩
        exact Option.some.inj (htarget.symm.trans hreviewed)

theorem readyRoute_of_prepareRoute {reviews : List (String × ReviewedMapping)}
    {source : ResolvedSource} {destination : String} {w : PrepareWorld}
    {sourceSchema destinationSchema : SchemaDescriptor} {p : RoutePreparation S}
    {plan : MappingPlan}
    (h : prepareRoute cfg reviews source destination w sourceSchema destinationSchema = .ok p)
    (hready : p.status = .ready) (hplan : p.plan = some plan) :
    ∃ proposed, ReadyRoute cfg reviews p plan proposed := by
  unfold prepareRoute at h
  obtain ⟨proposed, hproposed, h⟩ := bind_eq_ok h
  obtain ⟨reviewed, hreviewed, h⟩ := bind_eq_ok h
  dsimp only at h
  split at h
  · cases h
    cases hready
  · rename_i hblocked
    split at h
    · cases h
      cases hready
    · rename_i hunresolved
      obtain ⟨built, hbuilt, h⟩ := bind_eq_ok h
      obtain ⟨records, -, h⟩ := bind_eq_ok h
      obtain ⟨report, hreport, h⟩ := bind_eq_ok h
      cases h
      obtain rfl : built = plan := Option.some.inj hplan
      have hoverride : ∃ ds, List.Forall₂ (Overridden reviews) proposed ds ∧
          reviewed.decisions = ds ∧ (reviewed.reviewedMappings = [] →
            ∀ d ∈ proposed, Unreviewed reviews d) ∧ ∀ d ∈ proposed, Settled reviews d := by
        unfold applyReviews at hreviewed
        split at hreviewed
        · cases hreviewed
        · obtain ⟨ds, hds, hdecisions, -, -, hnone, hsettled⟩ := overrideDecisions_eq_ok hreviewed
          exact ⟨ds, hds, hdecisions, fun hempty => (hnone hempty).2,
            hsettled (by omega) (by omega)⟩
      obtain ⟨ds, hds, rfl, hnone, hsettled⟩ := hoverride
      obtain ⟨rs, hrs, hrules⟩ := buildPlan_eq_ok hbuilt
      obtain ⟨hauthorized, hcovered⟩ := authorized_of_buildPlan hds hrs hsettled fun hallow =>
        hnone (by simpa using hallow)
      have hvalid := plan_valid_of_promotable hreport (promotable_of_ready hready)
      refine ⟨proposed, hproposed, hrules ▸ hauthorized, ?_, hrules ▸ hcovered⟩
      exact (PlanValidator.rules_of_valid (fun _ h => h)
        (PlanValidator.not_blocking_of_valid hvalid)).1

/-! ## States of a session -/

/-- What holds of a session after `calls`. -/
structure SessionInv (cfg : SessionConfig S) (calls : List SessionCall) (session : MoveSession S) :
    Prop where
  recorded : ∀ k r, dictGet k session.reviews = some r →
    .reviewMapping k r.targetFieldId r.reviewedBy ∈ calls
  prepared : ∀ p, session.preparation = some p → ∃ source destination w sourceSchema
    destinationSchema, prepareRoute cfg session.reviews source destination w sourceSchema
      destinationSchema = .ok p

theorem SessionInv.mono {calls calls' : List SessionCall} (h : SessionInv cfg calls session)
    (hsub : ∀ c ∈ calls, c ∈ calls') : SessionInv cfg calls' session :=
  ⟨fun k r hr => hsub _ (h.recorded k r hr), h.prepared⟩

/-- `prepare` keeps the reviews, and a route it returns is the session's. -/
theorem prepare_spec (w : PrepareWorld) :
    (prepare cfg session w).2.reviews = session.reviews ∧
      ((prepare cfg session w).2.preparation = session.preparation ∨
        ∃ p source destination sourceSchema destinationSchema,
          prepareRoute cfg session.reviews source destination w sourceSchema destinationSchema =
            .ok p ∧ (prepare cfg session w).2.preparation = some p) ∧
      ∀ p, (prepare cfg session w).1 = .ok p → (prepare cfg session w).2.preparation = some p := by
  generalize hresult : prepare cfg session w = result
  unfold prepare at hresult
  -- A call that raises keeps the reviews and leaves no route behind.
  have hraised : ∀ (e : Exn) (after : MoveSession S), (.error e, after) = result →
      after.reviews = session.reviews → after.preparation = session.preparation →
      result.2.reviews = session.reviews ∧
        (result.2.preparation = session.preparation ∨
          ∃ p source destination sourceSchema destinationSchema,
            prepareRoute cfg session.reviews source destination w sourceSchema destinationSchema =
              .ok p ∧ result.2.preparation = some p) ∧
        ∀ p, result.1 = .ok p → result.2.preparation = some p := by
    rintro e after rfl hreviews hpreparation
    refine ⟨hreviews, .inl hpreparation, ?_⟩
    intro p hp
    cases hp
  rcases Option.eq_none_or_eq_some session.preparation with hpreparation | ⟨p, hpreparation⟩
  · rw [hpreparation] at hresult
    dsimp only at hresult
    cases hsource : resolved session.source w.resolveSource with
    | error e =>
        rw [hsource] at hresult
        exact hraised e _ hresult rfl rfl
    | ok source =>
        rw [hsource] at hresult
        dsimp only at hresult
        cases hdestination : resolved session.destination w.resolveDestination with
        | error e =>
            rw [hdestination] at hresult
            exact hraised e _ hresult rfl hpreparation.symm
        | ok destination =>
            rw [hdestination] at hresult
            dsimp only at hresult
            split at hresult
            · exact hraised _ _ hresult rfl hpreparation.symm
            · exact hraised _ _ hresult rfl hpreparation.symm
            · rename_i sourceSchema destinationSchema _ _
              cases hroute : prepareRoute cfg session.reviews source destination w sourceSchema
                  destinationSchema with
              | error e =>
                  rw [hroute] at hresult
                  exact hraised e _ hresult rfl hpreparation.symm
              | ok p =>
                  rw [hroute] at hresult
                  cases hresult
                  refine ⟨rfl, .inr ⟨p, source, destination, sourceSchema, destinationSchema,
                    hroute, rfl⟩, ?_⟩
                  rintro found ⟨rfl⟩
                  rfl
  · rw [hpreparation] at hresult
    cases hresult
    refine ⟨rfl, .inl rfl, ?_⟩
    rintro found ⟨rfl⟩
    exact hpreparation

theorem SessionInv.prepare {calls : List SessionCall} (h : SessionInv cfg calls session)
    (w : PrepareWorld) : SessionInv cfg calls (prepare cfg session w).2 := by
  obtain ⟨hreviews, hpreparation, -⟩ := (@prepare_spec _ _ cfg session) w
  refine ⟨fun k r hr => h.recorded k r (hreviews ▸ hr), fun p hp => ?_⟩
  rw [hreviews]
  rcases hpreparation with hsame | ⟨found, source, destination, sourceSchema, destinationSchema,
    hroute, hfound⟩
  · exact h.prepared p (hsame ▸ hp)
  · obtain rfl : found = p := Option.some.inj (hfound.symm.trans hp)
    exact ⟨source, destination, w, sourceSchema, destinationSchema, hroute⟩

/-- `execute` leaves the session as its `prepare` does. -/
theorem execute_session (w : ExecuteWorld) :
    (execute cfg session w).2.1 = (prepare cfg session w.prepare).2 := by
  unfold execute
  split
  · rename_i hprepare
    rw [hprepare]
  · rename_i hprepare
    rw [hprepare]
    split <;> rfl

theorem SessionInv.reviewMapping {calls : List SessionCall} (h : SessionInv cfg calls session)
    (s t reviewer : String) :
    SessionInv cfg (calls ++ [.reviewMapping s t reviewer])
      (reviewMapping cfg.text.toHost session s t reviewer).2 := by
  unfold MoveSession.reviewMapping
  cases hmake : ReviewedMapping.make cfg.text.toHost s t reviewer with
  | error e => exact h.mono fun c hc => List.mem_append_left _ hc
  | ok reviewed =>
      have hfields : reviewed = ⟨s, t, reviewer⟩ := by
        unfold ReviewedMapping.make at hmake
        split at hmake
        · cases hmake
        · split at hmake
          · cases hmake
          · split at hmake
            · cases hmake
            · exact (Except.ok.inj hmake).symm
      refine ⟨?_, fun p hp => (by cases hp)⟩
      intro k r hr
      by_cases hk : k = s
      · rw [hk, dictGet_dictSet_self] at hr
        obtain rfl : reviewed = r := Option.some.inj hr
        rw [hk, hfields]
        exact List.mem_append_right _ List.mem_cons_self
      · rw [dictGet_dictSet_of_ne hk] at hr
        exact List.mem_append_left _ (h.recorded k r hr)

theorem SessionInv.step {calls : List SessionCall} (h : SessionInv cfg calls session)
    (c : SessionCall) : SessionInv cfg (calls ++ [c]) (step cfg session c) := by
  cases c with
  | reviewMapping s t reviewer => exact h.reviewMapping s t reviewer
  | prepare w => exact (h.prepare w).mono fun c hc => List.mem_append_left _ hc
  | execute w =>
      show SessionInv cfg _ (execute cfg session w).2.1
      rw [execute_session]
      exact (h.prepare w.prepare).mono fun c hc => List.mem_append_left _ hc

theorem sessionInv_run (cfg : SessionConfig S) (calls : List SessionCall) :
    SessionInv cfg calls (run cfg calls) := by
  induction calls using List.reverseRecOn with
  | nil => exact ⟨fun k r hr => (by cases hr), fun p hp => (by cases hp)⟩
  | append_singleton calls c ih =>
      unfold run
      rw [List.foldl_append]
      exact ih.step c

/-- What the gates of `execute` let through. -/
theorem gates_eq_ok {p : RoutePreparation S} {w : ExecuteWorld} {call : WriteCall S}
    {preflight : PreflightReport} (h : gates cfg session p w = .ok (call, preflight)) :
    p.status = .ready ∧ p.plan = some call.plan ∧ call.preparation = p := by
  unfold gates at h
  split at h
  · cases h
  · rename_i hready
    split at h
    · cases h
    · cases hplan : p.plan with
      | none =>
          rw [hplan] at h
          cases h
      | some plan =>
          cases hpreflight : p.preflight with
          | none =>
              rw [hplan, hpreflight] at h
              cases h
          | some report =>
              rw [hplan, hpreflight] at h
              dsimp only at h
              split at h
              · cases h
              · split at h
                · cases h
                · split at h
                  · cases h
                  · split at h
                    · cases h
                    · cases h
                      exact ⟨not_not.1 hready, rfl, rfl⟩

theorem execute_write {w : ExecuteWorld} {call : WriteCall S}
    (h : (execute cfg session w).2.2 = some call) :
    (prepare cfg session w.prepare).1 = .ok call.preparation ∧
      call.preparation.status = .ready ∧ call.preparation.plan = some call.plan := by
  unfold execute at h
  split at h
  · cases h
  · rename_i preparation session' hprepare
    split at h
    · cases h
    · rename_i found preflight hgates
      obtain rfl : found = call := Option.some.inj h
      obtain ⟨hready, hplan, rfl⟩ := gates_eq_ok hgates
      rw [hprepare]
      exact ⟨rfl, hready, hplan⟩

/-- **No unreviewed rule reaches the write boundary.** -/
theorem no_unreviewed_write (cfg : SessionConfig S) (calls : List SessionCall) (w : ExecuteWorld)
    (call : WriteCall S) (h : (execute cfg (run cfg calls) w).2.2 = some call) :
    ∃ proposed, cfg.matcher.propose cfg.text cfg.glossary call.preparation.sourceSchema
        call.preparation.destinationSchema = .ok proposed ∧
      (∀ rule ∈ call.plan.rules,
        (∃ d ∈ proposed, d.status = .auto ∧ d.sourceFieldId = rule.sourceFieldId ∧
          d.targetFieldId = some rule.targetFieldId ∧
          dictGet rule.sourceFieldId (run cfg calls).reviews = none) ∨
        ∃ d ∈ proposed, d.status ≠ .blocked ∧ d.sourceFieldId = rule.sourceFieldId ∧
          ∃ r, dictGet rule.sourceFieldId (run cfg calls).reviews = some r ∧
            r.targetFieldId = rule.targetFieldId ∧
            .reviewMapping rule.sourceFieldId rule.targetFieldId r.reviewedBy ∈ calls) ∧
      (call.plan.rules.map MappingRule.targetFieldId).Nodup ∧
      ∀ d ∈ proposed, d.status ≠ .auto → d.status ≠ .blocked ∧
        ∃ r, dictGet d.sourceFieldId (run cfg calls).reviews = some r ∧
          .reviewMapping d.sourceFieldId r.targetFieldId r.reviewedBy ∈ calls ∧
          ∃ rule ∈ call.plan.rules, rule.sourceFieldId = d.sourceFieldId ∧
            rule.targetFieldId = r.targetFieldId := by
  obtain ⟨hprepare, hready, hplan⟩ := execute_write h
  have hinv := sessionInv_run cfg calls
  obtain ⟨hreviews, -, hstored⟩ := (@prepare_spec _ _ cfg (run cfg calls)) w.prepare
  obtain ⟨source, destination, w', sourceSchema, destinationSchema, hroute⟩ :=
    (hinv.prepare w.prepare).prepared _ (hstored _ hprepare)
  rw [hreviews] at hroute
  obtain ⟨proposed, hroute⟩ := readyRoute_of_prepareRoute hroute hready hplan
  refine ⟨proposed, hroute.proposed_eq, ?_, hroute.targets, ?_⟩
  · intro rule hrule
    obtain ⟨d, hd, hsource, hauthority⟩ := hroute.rules rule hrule
    rcases hauthority with ⟨hauto, htarget, hnone⟩ | ⟨hopen, r, hr, htarget⟩
    · exact .inl ⟨d, hd, hauto, hsource, htarget, hsource ▸ hnone⟩
    · rw [hsource] at hr
      exact .inr ⟨d, hd, hopen, hsource, r, hr, htarget, htarget ▸ hinv.recorded _ _ hr⟩
  · intro d hd hstatus
    obtain ⟨hopen, r, hr, rule, hrule, hsource, htarget⟩ := hroute.covered d hd hstatus
    exact ⟨hopen, r, hr, hinv.recorded _ _ hr, rule, hrule, hsource, htarget⟩

/-! ## A written route -/

/-- One field. -/
def plainSource : SchemaDescriptor where
  id := "source"
  fields := [{ id := "a", name := "z", dataType := .string, nullable := false }]

/-- A field of the same name. -/
def plainTarget : SchemaDescriptor where
  id := "target"
  fields := [{ id := "t", name := "z", dataType := .string, nullable := false }]

/-- A session without models, with an empty glossary. -/
noncomputable def plainConfig : SessionConfig Rat where
  matcher := {}
  text := standardTextHost
  glossary := []
  runId := "run"
  maxInputRecords := 10
  maxInputRecords_pos := by decide

/-- One record for the pair, and a destination that reports one written record. -/
def plainWorld : ExecuteWorld where
  prepare := {
    resolveSource := .ok ⟨"csv", true⟩
    resolveDestination := .ok "sqlite"
    sourceSchema := .ok plainSource
    destinationSchema := .ok plainTarget
    capabilities := {}
    planId := "plan"
    now := ⟨⟨2026, 1, 1, 0, 0, 0, 0⟩, Utc.valid_newYear2026⟩
    records := .ok ⟨[[("a", .str (PyText.ofString "x"))]], none⟩
    resolver := none }
  capabilities := {}
  destinationSchema := .ok plainTarget
  records := ⟨[[("a", .str (PyText.ofString "x"))]], none⟩
  write := fun _ => ⟨1, .ok (some 1)⟩

theorem no_unreviewed_write_sample : ∃ call,
    (execute plainConfig (run plainConfig [.reviewMapping "a" "t" "ops"]) plainWorld).2.2 =
      some call ∧
    ∀ rule ∈ call.plan.rules,
      (∃ r, dictGet rule.sourceFieldId
          (run plainConfig [.reviewMapping "a" "t" "ops"]).reviews = some r ∧
        .reviewMapping rule.sourceFieldId rule.targetFieldId r.reviewedBy ∈
          [SessionCall.reviewMapping "a" "t" "ops"]) ∨
      dictGet rule.sourceFieldId (run plainConfig [.reviewMapping "a" "t" "ops"]).reviews =
        none := by
  have hwrite : (execute plainConfig (run plainConfig [.reviewMapping "a" "t" "ops"])
      plainWorld).2.2.isSome = true := by
    decide +kernel
  obtain ⟨call, hcall⟩ := Option.isSome_iff_exists.1 hwrite
  obtain ⟨proposed, -, hrules, -⟩ := no_unreviewed_write _ _ _ call hcall
  refine ⟨call, hcall, fun rule hrule => ?_⟩
  rcases hrules rule hrule with ⟨d, -, -, -, -, hnone⟩ | ⟨d, -, -, -, r, hr, -, hcalled⟩
  · exact .inr hnone
  · exact .inl ⟨r, hr, hcalled⟩

end MoveSession

end Polymorph
