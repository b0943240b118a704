import Polymorph.Review.Artifact
import Polymorph.StandardHost
import Polymorph.Text.JsonRoundTrip

/-!
# Stored review artifacts

`save` writes an artifact that `load` reads back exactly when the written text is within the size
limit of the loader, and a payload that `from_dict` accepts is the dictionary of the artifact,
where only a decision without a target may leave that property out.
-/

set_option autoImplicit false

namespace Polymorph

open JsonText Utc

/-! ## Checked texts -/

theorem checkedText_eq_ok {check : String → Bool} {refusal : String → Exn} {value : Json}
    {text : String} :
    checkedText check refusal value = .ok text ↔ value = .str text ∧ check text = true := by
  cases value with
  | str s =>
      rw [checkedText, Json.str.injEq]
      split
      · rename_i hs
        rw [Except.ok.injEq]
        constructor
        · rintro rfl
          exact ⟨rfl, hs⟩
        · exact fun h => h.1
      · rename_i hs
        constructor
        · intro h
          cases h
        · rintro ⟨rfl, h⟩
          exact absurd h hs
  | _ =>
      constructor
      · intro h
        cases h
      · rintro ⟨h, -⟩
        cases h

theorem boundedText_eq_ok {name : String} {value : Json} {maximum : Nat} {text : String} :
    boundedText name value maximum = .ok text ↔
      value = .str text ∧ isBoundedText maximum text = true := checkedText_eq_ok

theorem fingerprintText_eq_ok {name : String} {value : Json} {text : String} :
    fingerprintText name value = .ok text ↔ value = .str text ∧ isLowerHex 64 text = true :=
  checkedText_eq_ok

theorem timestampText_eq_ok {H : Host} {name : String} {value : Json} {text : String} :
    timestampText H name value = .ok text ↔ value = .str text ∧ isTimestamp H text = true :=
  checkedText_eq_ok

theorem optionalBoundedText_eq_ok {name : String} {value : Json} {maximum : Nat}
    {text : Option String} : optionalBoundedText name value maximum = .ok text ↔
      value = text.elim .null .str ∧ text.all (isBoundedText maximum) = true := by
  unfold optionalBoundedText
  cases text with
  | none =>
      split
      · simp
      · rename_i hnull
        constructor
        · intro h
          cases hvalue : boundedText name value maximum with
          | error e => rw [hvalue] at h; cases h
          | ok text => rw [hvalue] at h; cases h
        · exact fun h => absurd h.1 hnull
  | some text =>
      split
      · constructor
        · intro h
          cases h
        · rintro ⟨h, -⟩
          cases h
      · rw [Option.elim_some, Option.all_some, ← (@boundedText_eq_ok name)]
        constructor
        · intro h
          cases hvalue : boundedText name value maximum with
          | error e => rw [hvalue] at h; cases h
          | ok text => rw [hvalue] at h; cases h; rfl
        · intro h
          rw [h]
          rfl

theorem payloadGet_eq_str {key text : String} {payload : List (String × Json)}
    (h : payloadGet key payload = .str text) : dictGet key payload = some (.str text) := by
  rw [payloadGet] at h
  cases hget : dictGet key payload with
  | none =>
      rw [hget] at h
      cases h
  | some value =>
      rw [hget] at h
      exact congrArg some h

theorem isText_iff {text : String} {value : Json} : isText text value = true ↔ value = .str text := by
  cases value with
  | str s => simp [isText]
  | _ => simp [isText]

/-! ## Decisions -/

namespace Disposition

theorem ofValue?_value (d : Disposition) : ofValue? d.value = some d := by
  cases d <;> rfl

theorem ofValue?_eq_some {text : String} {d : Disposition} (h : ofValue? text = some d) :
    text = d.value := by
  unfold ofValue? at h
  split at h
  · cases h
    assumption
  split at h
  · cases h
    assumption
  split at h
  · cases h
    assumption
  · cases h

theorem isBoundedText_value (d : Disposition) : isBoundedText 16 d.value = true := by
  cases d <;> decide

end Disposition

namespace ReviewDecision

theorem make_self (d : ReviewDecision) :
    make d.sourceField d.targetField d.disposition.value = .ok d := by
  rw [make, dif_pos d.sourceField_bounded, dif_pos d.targetField_bounded]
  simp only [Disposition.ofValue?_value, dif_pos d.targetField_isSome]

theorem make_eq_ok {sourceField disposition : String} {targetField : Option String}
    {d : ReviewDecision} (h : make sourceField targetField disposition = .ok d) :
    d.sourceField = sourceField ∧ d.targetField = targetField ∧
      d.disposition.value = disposition := by
  unfold make at h
  split at h
  · split at h
    · split at h
      · cases h
      · rename_i hdisposition
        split at h
        · cases h
          exact ⟨rfl, rfl, (Disposition.ofValue?_eq_some hdisposition).symm⟩
        · split at h <;> cases h
    · cases h
  · cases h

/-- The properties of a decision as `from_dict` reads them. -/
theorem fromDict_eq_ok {payload : List (String × Json)} {d : ReviewDecision} :
    fromDict payload = .ok d ↔
      (∀ p ∈ payload, p.1 ∈ allowed) ∧
      payloadGet "source_field" payload = .str d.sourceField ∧
      payloadGet "target_field" payload = d.targetField.elim .null .str ∧
      payloadGet "disposition" payload = .str d.disposition.value := by
  constructor
  · intro h
    unfold fromDict at h
    obtain ⟨hallowed, h⟩ := guard_eq_ok h
    obtain ⟨sourceField, hsource, h⟩ := bind_eq_ok h
    obtain ⟨targetField, htarget, h⟩ := bind_eq_ok h
    obtain ⟨disposition, hdisposition, h⟩ := bind_eq_ok h
    obtain ⟨rfl, rfl, rfl⟩ := make_eq_ok h
    refine ⟨?_, (boundedText_eq_ok.1 hsource).1, (optionalBoundedText_eq_ok.1 htarget).1,
      (boundedText_eq_ok.1 hdisposition).1⟩
    rw [Bool.not_eq_true, Bool.not_eq_false', List.all_eq_true] at hallowed
    exact fun p hp => List.contains_iff_mem.1 (hallowed p hp)
  · rintro ⟨hallowed, hsource, htarget, hdisposition⟩
    have hall : payload.all (fun p => allowed.contains p.1) = true :=
      List.all_eq_true.2 fun p hp => List.contains_iff_mem.2 (hallowed p hp)
    have hsource := (@boundedText_eq_ok "source_field").2 ⟨hsource, d.sourceField_bounded⟩
    have htarget := (@optionalBoundedText_eq_ok "target_field").2
      ⟨htarget, d.targetField_bounded⟩
    have hdisposition := (@boundedText_eq_ok "disposition").2
      ⟨hdisposition, d.disposition.isBoundedText_value⟩
    rw [fromDict, hall, hsource, htarget, hdisposition]
    exact make_self d

end ReviewDecision

/-! ## Artifacts -/

/-- The loop over the decisions passes exactly when no field is met twice. -/
theorem checkDistinct_eq_ok {sources targets : List String} {ds : List ReviewDecision} :
    checkDistinct sources targets ds = .ok () ↔
      ((ds.map ReviewDecision.sourceField).Nodup ∧
        ∀ s ∈ ds.map ReviewDecision.sourceField, s ∉ sources) ∧
      (ds.filterMap ReviewDecision.targetField).Nodup ∧
        ∀ t ∈ ds.filterMap ReviewDecision.targetField, t ∉ targets := by
  induction ds generalizing sources targets with
  | nil => simp [checkDistinct]
  | cons d ds ih =>
      rw [checkDistinct]
      by_cases hsource : d.sourceField ∈ sources
      · rw [if_pos hsource]
        constructor
        · intro h
          cases h
        · intro h
          exact absurd hsource (h.1.2 _ List.mem_cons_self)
      · rw [if_neg hsource]
        cases htarget : d.targetField with
        | none =>
            rw [List.filterMap_cons_none htarget]
            dsimp only
            rw [ih]
            simp only [List.map_cons, List.nodup_cons, List.mem_cons, forall_eq_or_imp, not_or]
            grind
        | some target =>
            rw [List.filterMap_cons_some htarget]
            dsimp only
            split
            · rename_i hmem
              constructor
              · intro h
                cases h
              · intro h
                exact absurd hmem (h.2.2 _ List.mem_cons_self)
            · rename_i hmem
              rw [ih]
              simp only [List.map_cons, List.nodup_cons, List.mem_cons, forall_eq_or_imp, not_or]
              grind

namespace ReviewArtifact

variable {H : Host}

theorem make_self (a : ReviewArtifact H) : make a.artifactId a.sourceSchemaFingerprint
    a.destinationSchemaFingerprint a.reviewedBy a.createdAt a.decisions = .ok a := by
  rw [make, dif_pos a.artifactId_bounded, dif_pos a.source_fingerprint,
    dif_pos a.destination_fingerprint, dif_pos a.reviewedBy_bounded, dif_pos a.createdAt_timestamp,
    dif_pos a.decisions_count]
  split
  · rename_i e he
    have hdistinct := a.decisions_distinct
    rw [he] at hdistinct
    cases hdistinct
  · rfl

/-- What the constructor returns holds what it was given. -/
theorem make_eq_ok {artifactId source destination reviewedBy createdAt : String}
    {decisions : List ReviewDecision} {a : ReviewArtifact H}
    (h : make artifactId source destination reviewedBy createdAt decisions = .ok a) :
    a.artifactId = artifactId ∧ a.sourceSchemaFingerprint = source ∧
      a.destinationSchemaFingerprint = destination ∧ a.reviewedBy = reviewedBy ∧
      a.createdAt = createdAt ∧ a.decisions = decisions := by
  unfold make at h
  repeat' split at h
  all_goals first
    | cases h; exact ⟨rfl, rfl, rfl, rfl, rfl, rfl⟩
    | cases h

theorem decisionsOf_eq_ok {value : Json} {message : String} {decisions : List ReviewDecision} :
    decisionsOf value message = .ok decisions ↔ ∃ items, value = .arr items ∧
      List.Forall₂ (fun item d => ReviewDecision.ofJson item = .ok d) items decisions := by
  constructor
  · intro h
    cases value with
    | arr items => exact ⟨items, rfl, forall₂_of_mapM h⟩
    | _ => cases h
  · rintro ⟨items, rfl, h⟩
    exact mapM_of_forall₂ h

/-- A payload that `from_dict` accepts, property by property. -/
theorem fromDict_eq_ok {payload : List (String × Json)} {a : ReviewArtifact H} :
    fromDict payload = .ok a ↔
      hasExpectedKeys payload = true ∧
      payloadGet "schema" payload = .str "polymorph.review-artifact" ∧
      isOne H (payloadGet "version" payload) = true ∧
      payloadGet "privacy" payload = .str privacy ∧
      (∃ items, payloadGet "decisions" payload = .arr items ∧
        List.Forall₂ (fun item d => ReviewDecision.ofJson item = .ok d) items a.decisions) ∧
      payloadGet "artifact_id" payload = .str a.artifactId ∧
      payloadGet "source_schema_fingerprint" payload = .str a.sourceSchemaFingerprint ∧
      payloadGet "destination_schema_fingerprint" payload = .str a.destinationSchemaFingerprint ∧
      payloadGet "reviewed_by" payload = .str a.reviewedBy ∧
      payloadGet "created_at" payload = .str a.createdAt ∧
      payloadGet "content_sha256" payload = .str a.contentSha256 := by
  constructor
  · intro h
    unfold fromDict at h
    obtain ⟨hkeys, h⟩ := guard_eq_ok h
    obtain ⟨hschema, h⟩ := guard_eq_ok h
    obtain ⟨hprivacy, h⟩ := guard_eq_ok h
    obtain ⟨decisions, hdecisions, h⟩ := bind_eq_ok h
    obtain ⟨artifactId, hid, h⟩ := bind_eq_ok h
    obtain ⟨source, hsource, h⟩ := bind_eq_ok h
    obtain ⟨destination, hdestination, h⟩ := bind_eq_ok h
    obtain ⟨reviewedBy, hreviewer, h⟩ := bind_eq_ok h
    obtain ⟨createdAt, hcreated, h⟩ := bind_eq_ok h
    obtain ⟨artifact, hmake, h⟩ := bind_eq_ok h
    obtain ⟨supplied, hsupplied, h⟩ := bind_eq_ok h
    obtain ⟨hdigest, h⟩ := guard_eq_ok h
    cases h
    obtain ⟨rfl, rfl, rfl, rfl, rfl, rfl⟩ := make_eq_ok hmake
    rw [Bool.or_eq_true, not_or, Bool.not_eq_true, Bool.not_eq_false', Bool.not_eq_true,
      Bool.not_eq_false'] at hschema
    rw [Bool.not_eq_true, Bool.not_eq_false'] at hkeys hprivacy
    rw [ne_eq, not_not] at hdigest
    refine ⟨hkeys, isText_iff.1 hschema.1, hschema.2, isText_iff.1 hprivacy,
      decisionsOf_eq_ok.1 hdecisions, (boundedText_eq_ok.1 hid).1,
      (fingerprintText_eq_ok.1 hsource).1, (fingerprintText_eq_ok.1 hdestination).1,
      (boundedText_eq_ok.1 hreviewer).1, (timestampText_eq_ok.1 hcreated).1, ?_⟩
    rw [← hdigest]
    exact (fingerprintText_eq_ok.1 hsupplied).1
  · rintro ⟨hkeys, hschema, hversion, hprivacy, hdecisions, hid, hsource, hdestination, hreviewer,
      hcreated, hdigest⟩
    have hdecisions := (@decisionsOf_eq_ok _ "review artifact decisions must be an array").2
      hdecisions
    have hid := (@boundedText_eq_ok "artifact_id").2 ⟨hid, a.artifactId_bounded⟩
    have hsource := (@fingerprintText_eq_ok "source_schema_fingerprint").2
      ⟨hsource, a.source_fingerprint⟩
    have hdestination := (@fingerprintText_eq_ok "destination_schema_fingerprint").2
      ⟨hdestination, a.destination_fingerprint⟩
    have hreviewer := (@boundedText_eq_ok "reviewed_by").2 ⟨hreviewer, a.reviewedBy_bounded⟩
    have hcreated := (@timestampText_eq_ok _ "created_at").2 ⟨hcreated, a.createdAt_timestamp⟩
    have hdigest := (@fingerprintText_eq_ok "content_sha256").2
      ⟨hdigest, H.sha256Hex_digits _⟩
    rw [fromDict, hkeys, isText_iff.2 hschema, hversion, isText_iff.2 hprivacy, hdecisions, hid,
      hsource, hdestination, hreviewer, hcreated, hdigest]
    simp only [Bool.not_true, Bool.or_self, Bool.false_eq_true, if_false, ok_bind, make_self,
      ne_eq, not_true_eq_false]
    rfl

/-! ## Written artifacts -/

/-- The decisions of an artifact as `to_dict` writes them. -/
def decisionObjects (a : ReviewArtifact H) : List Json := a.decisions.map fun d => .obj d.toDict

/-- `to_dict` with ordered keys. -/
def sortedDict (a : ReviewArtifact H) : List (String × Json) :=
  [("artifact_id", .str a.artifactId), ("content_sha256", .str a.contentSha256),
    ("created_at", .str a.createdAt), ("decisions", .arr a.decisionObjects),
    ("destination_schema_fingerprint", .str a.destinationSchemaFingerprint),
    ("privacy", .str privacy), ("reviewed_by", .str a.reviewedBy),
    ("schema", .str "polymorph.review-artifact"),
    ("source_schema_fingerprint", .str a.sourceSchemaFingerprint), ("version", .int 1)]

theorem sortKeys_decision (d : ReviewDecision) : sortKeys (.obj d.toDict) = .obj d.toDict := by
  have hvalues : sortValues d.toDict = d.toDict := by
    cases htarget : d.targetField <;> simp only [ReviewDecision.toDict, htarget, Option.elim_none,
      Option.elim_some, sortValues, sortKeys]
  rw [sortKeys, hvalues]
  simp [ReviewDecision.toDict, sortMembers, List.insertionSort]

theorem sortItems_decisions (ds : List ReviewDecision) :
    sortItems (ds.map fun d => .obj d.toDict) = ds.map fun d => .obj d.toDict := by
  induction ds with
  | nil => rfl
  | cons d ds ih => rw [List.map_cons, sortItems, sortKeys_decision, ih]

/-- The digest moves behind the id, and the other keys are ordered already. -/
theorem sortKeys_toDict (a : ReviewArtifact H) : sortKeys (.obj a.toDict) = .obj a.sortedDict := by
  have hvalues : sortValues a.toDict = a.toDict := by
    simp only [toDict, body, List.cons_append, List.nil_append, sortValues, sortKeys,
      sortItems_decisions]
  rw [sortKeys, hvalues]
  simp [toDict, body, sortedDict, decisionObjects, sortMembers, List.insertionSort,
    List.orderedInsert]

/-- A decision holds no number and repeats no key. -/
theorem decision_plain (d : ReviewDecision) : integral (.obj d.toDict) = true ∧
    shortIntegers (.obj d.toDict) = true ∧ uniqueKeys (.obj d.toDict) = true := by
  cases htarget : d.targetField with
  | none => rw [ReviewDecision.toDict, htarget]; exact ⟨rfl, rfl, rfl⟩
  | some target => rw [ReviewDecision.toDict, htarget]; exact ⟨rfl, rfl, rfl⟩

theorem decisions_plain (ds : List ReviewDecision) :
    integralItems (ds.map fun d => .obj d.toDict) = true ∧
      shortItems (ds.map fun d => .obj d.toDict) = true ∧
      uniqueItems (ds.map fun d => .obj d.toDict) = true := by
  induction ds with
  | nil => exact ⟨rfl, rfl, rfl⟩
  | cons d ds ih =>
      obtain ⟨hintegral, hshort, hunique⟩ := decision_plain d
      rw [List.map_cons, integralItems, shortItems, uniqueItems, hintegral, hshort, hunique]
      exact ih

/-- The dictionary of an artifact passes the checks of the reader. -/
theorem sortedDict_plain (a : ReviewArtifact H) : integral (.obj a.sortedDict) = true ∧
    shortIntegers (.obj a.sortedDict) = true ∧ uniqueKeys (.obj a.sortedDict) = true := by
  obtain ⟨hintegral, hshort, hunique⟩ := decisions_plain a.decisions
  have hpow : ∀ n, n ≠ 0 → decide ((1 : Int).natAbs < 10 ^ n) = true :=
    fun n hn => decide_eq_true (Nat.one_lt_pow hn (by decide))
  have hone : shortIntegers (.int 1) = true := by
    rw [shortIntegers]
    exact hpow maxStrDigits (by decide)
  have hkeys : distinctKeys a.sortedDict = true := by
    unfold distinctKeys sortedDict
    simp only [List.map_cons, List.map_nil]
    decide
  refine ⟨?_, ?_, ?_⟩
  · simp only [integral, sortedDict, integralMembers, decisionObjects, hintegral, Bool.and_self]
  · have hobject : shortIntegers (.obj a.sortedDict) = shortMembers a.sortedDict := rfl
    have htext : ∀ text, shortIntegers (.str text) = true := fun _ => rfl
    have hitems : shortIntegers (.arr a.decisionObjects) = true := hshort
    rw [hobject, sortedDict]
    simp only [shortMembers, hone, htext, hitems, Bool.and_self]
  · rw [uniqueKeys, hkeys, Bool.true_and]
    simp only [sortedDict, uniqueMembers, uniqueKeys, decisionObjects, hunique, Bool.and_self]

theorem loadText_saveText (a : ReviewArtifact H) : loadText a.saveText = .ok a.sortedDict := by
  obtain ⟨hintegral, hshort, hunique⟩ := a.sortedDict_plain
  have hread := @Layout.loads_text asciiIndented _ (readable_of_integral _ hintegral) ['\n']
    (.inr ⟨[], rfl, rfl⟩)
  have htext : a.saveText = asciiIndented.text (.obj a.sortedDict) ++ String.ofList ['\n'] := by
    rw [saveText, sortKeys_toDict]
  rw [loadText, htext, hread]
  simp only [hshort, hunique, Bool.not_true, Bool.false_eq_true, if_false]

theorem fromDict_sortedDict (a : ReviewArtifact H) : fromDict a.sortedDict = .ok a := by
  rw [fromDict_eq_ok]
  refine ⟨rfl, rfl, rfl, rfl, ⟨a.decisionObjects, rfl, ?_⟩, rfl, rfl, rfl, rfl, rfl, rfl⟩
  rw [decisionObjects, List.forall₂_map_left_iff]
  refine List.forall₂_same.2 fun d _ => ?_
  refine (@ReviewDecision.fromDict_eq_ok d.toDict d).2 ⟨?_, rfl, rfl, rfl⟩
  intro p hp
  rw [ReviewDecision.toDict] at hp
  simp only [List.mem_cons, List.not_mem_nil, or_false] at hp
  rcases hp with rfl | rfl | rfl
  · exact (by decide : "disposition" ∈ ReviewDecision.allowed)
  · exact (by decide : "source_field" ∈ ReviewDecision.allowed)
  · exact (by decide : "target_field" ∈ ReviewDecision.allowed)

/-- A saved artifact is read back when its file is within the size limit. -/
theorem load_save {a : ReviewArtifact H} {before after : PathEntry}
    (h : a.save before = .ok after) :
    load after = .ok a ↔ a.saveText.utf8ByteSize ≤ maxReviewArtifactBytes := by
  have hafter : after = .file (utf8Bytes a.saveText.toList) := by
    cases before with
    | missing => cases h; rfl
    | file bytes => cases h; rfl
    | symlink => cases h
    | special => cases h
  rw [hafter, load, length_utf8Bytes, decodeUtf8_utf8Bytes, String.ofList_toList]
  split
  · rename_i hsize
    constructor
    · intro hload
      cases hload
    · exact fun hle => absurd hsize (Nat.not_lt.2 hle)
  · rename_i hsize
    refine ⟨fun _ => Nat.not_lt.1 hsize, fun _ => ?_⟩
    simp only [loadText_saveText, ok_bind, fromDict_sortedDict]

/-! ## Accepted payloads -/

/-- `payload == decision.to_dict()`, up to an ignored `suggested_target`. -/
def IsDecisionDict (item : Json) (d : ReviewDecision) : Prop :=
  ∃ payload, item = .obj payload ∧
    ∀ key, key ≠ "suggested_target" → dictGet key payload = dictGet key d.toDict

/-- `payload == artifact.to_dict()`, up to the ignored `suggested_target` of its decisions; `==`
holds between `1`, `1.0` and `True`. -/
structure IsDict (payload : List (String × Json)) (a : ReviewArtifact H) : Prop where
  version : ∃ value, dictGet "version" payload = some value ∧ isOne H value = true
  decisions : ∃ items, dictGet "decisions" payload = some (.arr items) ∧
    List.Forall₂ IsDecisionDict items a.decisions
  others : ∀ key, key ≠ "version" → key ≠ "decisions" →
    dictGet key payload = dictGet key a.toDict

/-- Every decision of the payload has the property `target_field`, possibly `null`. -/
def NamesTargets (payload : List (String × Json)) : Prop :=
  ∀ items, dictGet "decisions" payload = some (.arr items) →
    ∀ members, .obj members ∈ items → (dictGet "target_field" members).isSome = true

theorem dictGet_eq_none {key : String} {payload : List (String × Json)}
    (h : ∀ p ∈ payload, p.1 ≠ key) : dictGet key payload = none := by
  rw [dictGet, Option.map_eq_none_iff, List.find?_eq_none]
  intro p hp
  simpa using h p hp

theorem dictGet_of_isSome {key : String} {payload : List (String × Json)}
    (h : (dictGet key payload).isSome = true) :
    dictGet key payload = some (payloadGet key payload) := by
  obtain ⟨value, hvalue⟩ := Option.isSome_iff_exists.1 h
  rw [payloadGet, hvalue, Option.getD_some]

/-- A decision that `from_dict` accepts is the dictionary of the decision it returns, if it names
its target. -/
theorem isDecisionDict_of_ofJson {item : Json} {d : ReviewDecision}
    (h : ReviewDecision.ofJson item = .ok d)
    (hnames : ∀ members, item = .obj members → (dictGet "target_field" members).isSome = true) :
    IsDecisionDict item d := by
  cases item with
  | obj members =>
      obtain ⟨hallowed, hsource, htarget, hdisposition⟩ := ReviewDecision.fromDict_eq_ok.1 h
      refine ⟨members, rfl, fun key hkey => ?_⟩
      by_cases hmem : key ∈ ReviewDecision.allowed
      · simp only [ReviewDecision.allowed, List.mem_cons, List.not_mem_nil, or_false] at hmem
        rcases hmem with rfl | rfl | rfl | rfl
        · rw [payloadGet_eq_str hsource]
          rfl
        · rw [dictGet_of_isSome (hnames members rfl), htarget]
          rfl
        · rw [payloadGet_eq_str hdisposition]
          rfl
        · exact absurd rfl hkey
      · rw [dictGet_eq_none (by rintro p hp rfl; exact hmem (hallowed p hp)), dictGet_eq_none]
        rintro p hp rfl
        apply hmem
        rw [ReviewDecision.toDict] at hp
        simp only [List.mem_cons, List.not_mem_nil, or_false] at hp
        rcases hp with rfl | rfl | rfl
        · exact (by decide : "disposition" ∈ ReviewDecision.allowed)
        · exact (by decide : "source_field" ∈ ReviewDecision.allowed)
        · exact (by decide : "target_field" ∈ ReviewDecision.allowed)
  | _ => cases h

theorem mem_toDict {a : ReviewArtifact H} {p : String × Json} (h : p ∈ a.toDict) :
    p.1 ∈ expected := by
  rw [toDict, body] at h
  simp only [List.cons_append, List.nil_append, List.mem_cons, List.not_mem_nil, or_false] at h
  rcases h with rfl | rfl | rfl | rfl | rfl | rfl | rfl | rfl | rfl | rfl <;> simp [expected]

theorem isDict_of_fromDict {payload : List (String × Json)} {a : ReviewArtifact H}
    (h : fromDict payload = .ok a) : IsDict payload a ↔ NamesTargets payload := by
  obtain ⟨hkeys, hschema, hversion, hprivacy, ⟨items, hitems, hdecisions⟩, hid, hsource,
    hdestination, hreviewer, hcreated, hdigest⟩ := fromDict_eq_ok.1 h
  rw [hasExpectedKeys, Bool.and_eq_true, List.all_eq_true, List.all_eq_true] at hkeys
  have hsome : ∀ key ∈ expected, dictGet key payload = some (payloadGet key payload) :=
    fun key hkey => dictGet_of_isSome (hkeys.2 key hkey)
  have hget : dictGet "decisions" payload = some (.arr items) := by
    rw [hsome "decisions" (by decide), hitems]
  constructor
  · intro hdict found hfound members hmembers
    obtain ⟨items', hitems', hsame⟩ := hdict.decisions
    rw [hfound] at hitems'
    cases hitems'
    obtain ⟨d, -, payload', hpayload', hd⟩ := forall₂_partner hsame hmembers
    cases hpayload'
    rw [hd "target_field" (by decide)]
    rfl
  · intro hnames
    refine ⟨⟨_, hsome "version" (by decide), hversion⟩, ⟨items, hget, ?_⟩, ?_⟩
    · have hboth := (List.forall₂_and_left (p := fun item => ∀ members, item = .obj members →
        (dictGet "target_field" members).isSome = true) _ _).2
          ⟨by rintro item hitem members rfl; exact hnames items hget members hitem, hdecisions⟩
      exact hboth.imp fun item d hd => isDecisionDict_of_ofJson hd.2 hd.1
    · intro key hversion hdecisions
      by_cases hmem : key ∈ expected
      · rw [hsome key hmem]
        simp only [expected, List.mem_cons, List.not_mem_nil, or_false] at hmem
        rcases hmem with rfl | rfl | rfl | rfl | rfl | rfl | rfl | rfl | rfl | rfl
        · rw [hid]; rfl
        · rw [hcreated]; rfl
        · exact absurd rfl hdecisions
        · rw [hdestination]; rfl
        · rw [hprivacy]; rfl
        · rw [hreviewer]; rfl
        · rw [hschema]; rfl
        · rw [hsource]; rfl
        · exact absurd rfl hversion
        · rw [hdigest]; rfl
      · rw [dictGet_eq_none, dictGet_eq_none]
        · exact fun p hp heq => hmem (heq ▸ mem_toDict hp)
        · exact fun p hp heq => hmem (heq ▸ List.contains_iff_mem.1 (hkeys.1 p hp))

/-- A field id of 256 characters. -/
def longField (i : Nat) : String := String.ofList (digits 4 i ++ List.replicate 252 'a')

theorem length_longField (i : Nat) : (longField i).length = 256 := by
  rw [longField, String.length_ofList, List.length_append, length_digits, List.length_replicate]

theorem longField_injective {i j : Nat} (hi : i < 4096) (hj : j < 4096)
    (h : longField i = longField j) : i = j :=
  (digits_append_inj (by omega) (by omega) (String.ofList_injective h)).1

theorem isBoundedText_longField (i : Nat) : isBoundedText 256 (longField i) = true := by
  have hdigits : ∀ width n : Nat,
      (digits width n).all (fun c => 32 ≤ c.toNat && c.toNat ≠ 127) = true := by
    intro width
    induction width with
    | zero => exact fun _ => rfl
    | succ width ih =>
        intro n
        have hdigit : ∀ d < 10, (32 ≤ (Nat.digitChar d).toNat && (Nat.digitChar d).toNat ≠ 127) =
            true := by
          decide
        rw [digits, List.all_append, ih, List.all_cons, hdigit _ (Nat.mod_lt _ (by decide))]
        rfl
  have hletters : (List.replicate 252 'a').all (fun c => 32 ≤ c.toNat && c.toNat ≠ 127) = true := by
    rw [List.all_eq_true]
    intro c hc
    rw [List.eq_of_mem_replicate hc]
    rfl
  have hempty : (longField i).isEmpty = false := by
    rw [String.isEmpty_eq_false_iff]
    intro h
    have hlength := length_longField i
    rw [h] at hlength
    cases hlength
  rw [isBoundedText, hempty, length_longField, longField, String.toList_ofList, List.all_append,
    hdigits, hletters]
  rfl

/-- A decision without a target. -/
def longDecision (i : Nat) : ReviewDecision :=
  ⟨longField i, none, .abstained, isBoundedText_longField i, rfl, by decide⟩

/-- The first moment of a year. -/
def sampleInstant : Instant := ⟨⟨2026, 1, 1, 0, 0, 0, 0⟩, Utc.valid_newYear2026⟩

theorem isTimestamp_isoformat (H : Host) : isTimestamp H sampleInstant.isoformat = true := by
  have hreplace : replaceText sampleInstant.isoformat "Z" "+00:00" = sampleInstant.isoformat := by
    decide
  have hbounded : isBoundedText 64 sampleInstant.isoformat = true := by decide
  rw [isTimestamp, hbounded, readTimestamp, hreplace, H.fromisoformat_isoformat]
  rfl

/-- An artifact with as many decisions as the constructor allows. -/
def largeArtifact (H : Host) : ReviewArtifact H where
  artifactId := "large"
  sourceSchemaFingerprint := H.sha256Hex ""
  destinationSchemaFingerprint := H.sha256Hex ""
  reviewedBy := "reviewer"
  createdAt := sampleInstant.isoformat
  decisions := (List.range 4096).map longDecision
  artifactId_bounded := by decide
  source_fingerprint := H.sha256Hex_digits _
  destination_fingerprint := H.sha256Hex_digits _
  reviewedBy_bounded := by decide
  createdAt_timestamp := isTimestamp_isoformat H
  decisions_count := by
    refine ⟨fun h => ?_, ?_⟩
    · have hlength := congrArg List.length h
      rw [List.length_map, List.length_range] at hlength
      cases hlength
    · rw [List.length_map, List.length_range]
      exact Nat.le_refl _
  decisions_distinct := by
    have hsources : ((List.range 4096).map longDecision).map ReviewDecision.sourceField =
        (List.range 4096).map longField := List.map_map
    have htargets : ((List.range 4096).map longDecision).filterMap ReviewDecision.targetField =
        [] := by
      rw [List.filterMap_eq_nil_iff]
      intro d hd
      obtain ⟨i, -, rfl⟩ := List.mem_map.1 hd
      rfl
    rw [checkDistinct_eq_ok, hsources, htargets]
    refine ⟨⟨?_, fun _ _ => List.not_mem_nil⟩, List.nodup_nil, fun _ h => absurd h List.not_mem_nil⟩
    refine List.Nodup.map_on ?_ List.nodup_range
    intro i hi j hj
    exact longField_injective (List.mem_range.1 hi) (List.mem_range.1 hj)

/-- A text is as long as the values written inside it. -/
theorem length_longDecision (level i : Nat) :
    257 ≤ (asciiIndented.value level (.obj (longDecision i).toDict)).length := by
  have hmem : ("source_field", Json.str (longField i)) ∈ (longDecision i).toDict :=
    List.mem_cons_of_mem _ List.mem_cons_self
  have hobject := @Layout.length_le_obj asciiIndented level _ _ _ hmem
  have hchars := asciiIndented.length_le_flatMap_escape (longField i).toList
  rw [String.length_toList, length_longField] at hchars
  rw [Layout.value, Layout.string, List.length_cons, List.length_append] at hobject
  omega

theorem largeArtifact_decisions (H : Host) :
    (largeArtifact H).decisions = (List.range 4096).map longDecision := by
  rw [largeArtifact]

/-- Its text is longer than the size limit of the loader. -/
theorem large_saveText (H : Host) :
    maxReviewArtifactBytes < (largeArtifact H).saveText.utf8ByteSize := by
  have hdecision : ∀ item ∈ (largeArtifact H).decisionObjects,
      257 ≤ (asciiIndented.value 2 item).length := by
    intro item hitem
    rw [decisionObjects, largeArtifact_decisions] at hitem
    obtain ⟨d, hd, rfl⟩ := List.mem_map.1 hitem
    obtain ⟨i, -, rfl⟩ := List.mem_map.1 hd
    exact length_longDecision 2 i
  have hcount : (largeArtifact H).decisionObjects.length = 4096 := by
    rw [decisionObjects, List.length_map, largeArtifact_decisions, List.length_map,
      List.length_range]
  have hitems := @Layout.mul_length_le_arr asciiIndented _ 1 _ hdecision
  have hmem : ("decisions", Json.arr (largeArtifact H).decisionObjects) ∈
      (largeArtifact H).sortedDict :=
    List.mem_cons_of_mem _ (List.mem_cons_of_mem _ (List.mem_cons_of_mem _ List.mem_cons_self))
  have hobject := @Layout.length_le_obj asciiIndented 0 _ _ _ hmem
  rw [Nat.zero_add] at hobject
  have hbytes := length_le_utf8ByteSize (largeArtifact H).saveText
  rw [saveText, sortKeys_toDict, Layout.text, String.length_append, String.length_ofList] at hbytes
  rw [hcount] at hitems
  rw [saveText, sortKeys_toDict, maxReviewArtifactBytes, Layout.text]
  omega

/-! ## A decision that leaves its target out -/

/-- An abstained decision. -/
def openDecision : ReviewDecision := ⟨"a", none, .abstained, by decide, rfl, by decide⟩

/-- An artifact of one decision. -/
def openArtifact (H : Host) : ReviewArtifact H where
  artifactId := "open"
  sourceSchemaFingerprint := H.sha256Hex ""
  destinationSchemaFingerprint := H.sha256Hex ""
  reviewedBy := "reviewer"
  createdAt := sampleInstant.isoformat
  decisions := [openDecision]
  artifactId_bounded := by decide
  source_fingerprint := H.sha256Hex_digits _
  destination_fingerprint := H.sha256Hex_digits _
  reviewedBy_bounded := by decide
  createdAt_timestamp := isTimestamp_isoformat H
  decisions_count := by decide
  decisions_distinct := by decide

/-- Its dictionary without the target of the decision. -/
def openPayload (H : Host) : List (String × Json) :=
  [("artifact_id", .str "open"), ("created_at", .str sampleInstant.isoformat),
    ("decisions", .arr [.obj [("disposition", .str "abstained"), ("source_field", .str "a")]]),
    ("destination_schema_fingerprint", .str (H.sha256Hex "")), ("privacy", .str privacy),
    ("reviewed_by", .str "reviewer"), ("schema", .str "polymorph.review-artifact"),
    ("source_schema_fingerprint", .str (H.sha256Hex "")), ("version", .int 1),
    ("content_sha256", .str (openArtifact H).contentSha256)]

theorem fromDict_openPayload (H : Host) : fromDict (openPayload H) = .ok (openArtifact H) := by
  rw [fromDict_eq_ok]
  refine ⟨rfl, rfl, rfl, rfl, ⟨_, rfl, .cons ?_ .nil⟩, rfl, rfl, rfl, rfl, rfl, rfl⟩
  rfl

end ReviewArtifact

end Polymorph
