import Polymorph.Quality.Cleaning

/-!
# Passes of a cleaning plan

A plan changes each field on its own: what is left in a field is the value after the actions that
the plan's rules name for it, in their order (`entries_applyRecord`). A second pass changes nothing
exactly when no text of white space stands in a field that the plan strips after it has looked for
empty texts: the first pass leaves such a field empty, and the second one finds it so.
-/

set_option autoImplicit false

namespace Polymorph

variable {N : Normalizer}

/-! ## Texts -/

/-- The text that an action leaves, if it leaves one. -/
def CleaningAction.text (N : Normalizer) : CleaningAction → PyText → PyText
  | .normalizeUnicodeNfc, text => N.nfc text
  | .trimWhitespace, text => text.strip
  | .emptyToNull, text => text

/-- The text after some actions. -/
def textAfter (N : Normalizer) (actions : List CleaningAction) (text : PyText) : PyText :=
  actions.foldl (fun text action => action.text N text) text

/-- What one action does to a text commutes with what another one does. -/
theorem CleaningAction.text_comm (a b : CleaningAction) (text : PyText) :
    a.text N (b.text N text) = b.text N (a.text N text) := by
  cases a with
  | normalizeUnicodeNfc =>
      cases b with
      | normalizeUnicodeNfc => rfl
      | trimWhitespace => exact N.nfc_strip text
      | emptyToNull => rfl
  | trimWhitespace =>
      cases b with
      | normalizeUnicodeNfc => exact (N.nfc_strip text).symm
      | trimWhitespace => rfl
      | emptyToNull => rfl
  | emptyToNull => rfl

/-- An action finds nothing to do in a text that it has left. -/
theorem CleaningAction.text_text (a : CleaningAction) (text : PyText) :
    a.text N (a.text N text) = a.text N text := by
  cases a with
  | normalizeUnicodeNfc => exact N.nfc_nfc text
  | trimWhitespace => exact text.strip_strip
  | emptyToNull => rfl

theorem textAfter_comm (a : CleaningAction) (actions : List CleaningAction) (text : PyText) :
    a.text N (textAfter N actions text) = textAfter N actions (a.text N text) := by
  induction actions generalizing text with
  | nil => rfl
  | cons b actions ih =>
      calc a.text N (textAfter N (b :: actions) text)
          = textAfter N actions (a.text N (b.text N text)) := ih (b.text N text)
        _ = textAfter N (b :: actions) (a.text N text) := by rw [a.text_comm b]; rfl

/-- None of some actions finds anything to do in the text that they have left. -/
theorem text_textAfter {a : CleaningAction} {actions : List CleaningAction} (h : a ∈ actions)
    (text : PyText) : a.text N (textAfter N actions text) = textAfter N actions text := by
  induction actions generalizing text with
  | nil => cases h
  | cons b actions ih =>
      cases List.mem_cons.mp h with
      | inl hfirst =>
          subst hfirst
          rw [textAfter_comm]
          change textAfter N actions (a.text N (a.text N text)) = _
          rw [a.text_text]
          rfl
      | inr hlater => exact ih hlater (b.text N text)

/-- Actions leave the empty text of the empty text, and of white space that they strip. -/
theorem textAfter_eq_nil_iff {actions : List CleaningAction} {text : PyText} :
    textAfter N actions text = [] ↔
      text = [] ∨ CleaningAction.trimWhitespace ∈ actions ∧ text.strip = [] := by
  induction actions generalizing text with
  | nil =>
      constructor
      · exact .inl
      · rintro (h | ⟨h, -⟩)
        · exact h
        · cases h
  | cons a actions ih =>
      refine ih.trans ?_
      cases a with
      | normalizeUnicodeNfc =>
          have hstrip : (N.nfc text).strip = [] ↔ text.strip = [] := by
            rw [← N.nfc_strip, N.nfc_eq_nil_iff]
          simp [CleaningAction.text, N.nfc_eq_nil_iff, hstrip]
      | trimWhitespace =>
          have hempty : text = [] → text.strip = [] := fun h => h ▸ PyText.strip_nil
          simp only [CleaningAction.text, PyText.strip_strip, List.mem_cons, true_or, true_and]
          tauto
      | emptyToNull => simp [CleaningAction.text]

/-! ## Values -/

/-- The value after some actions. -/
def valueAfter (N : Normalizer) (actions : List CleaningAction) (value : PyValue) : PyValue :=
  actions.foldl (fun value action => action.cleaned N value) value

theorem valueAfter_append (before after : List CleaningAction) (value : PyValue) :
    valueAfter N (before ++ after) value = valueAfter N after (valueAfter N before value) :=
  List.foldl_append

/-- A value that is no text. -/
def PyValue.Textless (value : PyValue) : Prop := ∀ text, value ≠ .str text

theorem CleaningAction.cleaned_textless (a : CleaningAction) {value : PyValue}
    (h : value.Textless) : a.cleaned N value = value := by
  cases value with
  | str text => exact absurd rfl (h text)
  | _ => cases a <;> rfl

theorem valueAfter_textless (actions : List CleaningAction) {value : PyValue}
    (h : value.Textless) : valueAfter N actions value = value := by
  induction actions with
  | nil => rfl
  | cons a actions ih =>
      change valueAfter N actions (a.cleaned N value) = value
      rw [a.cleaned_textless h, ih]

theorem textless_none : PyValue.none.Textless := fun _ h => nomatch h

/-- Without the action that makes nulls, a text stays a text. -/
theorem valueAfter_str {actions : List CleaningAction}
    (h : CleaningAction.emptyToNull ∉ actions) (text : PyText) :
    valueAfter N actions (.str text) = .str (textAfter N actions text) := by
  induction actions generalizing text with
  | nil => rfl
  | cons a actions ih =>
      have hrest := ih (fun hmem => h (List.mem_cons_of_mem _ hmem))
      cases a with
      | normalizeUnicodeNfc => exact hrest (N.nfc text)
      | trimWhitespace => exact hrest text.strip
      | emptyToNull => exact absurd List.mem_cons_self h

/-- Actions leave a null or the text after them. -/
theorem valueAfter_str_cases (actions : List CleaningAction) (text : PyText) :
    valueAfter N actions (.str text) = .none ∨
      valueAfter N actions (.str text) = .str (textAfter N actions text) := by
  induction actions generalizing text with
  | nil => exact .inr rfl
  | cons a actions ih =>
      cases a with
      | normalizeUnicodeNfc => exact ih (N.nfc text)
      | trimWhitespace => exact ih text.strip
      | emptyToNull =>
          cases text with
          | nil => exact .inl (valueAfter_textless actions textless_none)
          | cons c rest => exact ih (c :: rest)

/-- The actions that trim after they have looked for empty texts. -/
def NullsThenTrims (actions : List CleaningAction) : Prop :=
  [CleaningAction.emptyToNull, .trimWhitespace].Sublist actions

/-- Actions with an empty-to-null leave the empty text only of white space that they strip too
late. -/
theorem valueAfter_eq_empty_iff {actions : List CleaningAction} (hnodup : actions.Nodup)
    (hnull : CleaningAction.emptyToNull ∈ actions) (text : PyText) :
    valueAfter N actions (.str text) = .str [] ↔
      NullsThenTrims actions ∧ text ≠ [] ∧ text.strip = [] := by
  obtain ⟨before, after, rfl⟩ := List.append_of_mem hnull
  obtain ⟨hbefore, hafter⟩ : CleaningAction.emptyToNull ∉ before ∧
      CleaningAction.emptyToNull ∉ after := by
    rw [List.nodup_append, List.nodup_cons] at hnodup
    exact ⟨fun h => hnodup.2.2 _ h _ List.mem_cons_self rfl, hnodup.2.1.1⟩
  have hsplit : NullsThenTrims (before ++ .emptyToNull :: after) ↔
      CleaningAction.trimWhitespace ∈ after := by
    constructor
    · intro h
      have hboth : [CleaningAction.emptyToNull, .trimWhitespace].Sublist
          (.emptyToNull :: after) := by
        obtain ⟨l, l', hl, hfirst, hsecond⟩ := List.sublist_append_iff.mp h
        cases l with
        | nil => exact (List.nil_append l' ▸ hl) ▸ hsecond
        | cons a l =>
            obtain rfl : CleaningAction.emptyToNull = a := (List.cons_eq_cons.mp hl).1
            exact absurd (hfirst.subset List.mem_cons_self) hbefore
      exact List.singleton_sublist.mp (List.cons_sublist_cons.mp hboth)
    · intro h
      exact ((List.singleton_sublist.mpr h).cons_cons _).trans (List.sublist_append_right _ _)
  have htrims : CleaningAction.trimWhitespace ∈ after → CleaningAction.trimWhitespace ∉ before := by
    intro h hmem
    rw [List.nodup_append] at hnodup
    exact hnodup.2.2 _ hmem _ (List.mem_cons_of_mem _ h) rfl
  rw [valueAfter_append, valueAfter_str hbefore, hsplit]
  by_cases hearly : textAfter N before text = []
  · -- the text is empty when the plan looks for empty texts, so a null replaces it
    have hnone : valueAfter N (.emptyToNull :: after) (.str (textAfter N before text)) = .none := by
      rw [hearly]
      exact valueAfter_textless after textless_none
    rw [hnone]
    rw [textAfter_eq_nil_iff] at hearly
    refine ⟨fun h => (nomatch h), fun ⟨hlate, hne, _⟩ => ?_⟩
    cases hearly with
    | inl hempty => exact absurd hempty hne
    | inr hstripped => exact absurd hstripped.1 (htrims hlate)
  · have hkept : valueAfter N (.emptyToNull :: after) (.str (textAfter N before text)) =
        .str (textAfter N after (textAfter N before text)) := by
      rw [← valueAfter_str hafter]
      cases hrest : textAfter N before text with
      | nil => exact absurd hrest hearly
      | cons c rest => rfl
    rw [hkept, PyValue.str.injEq]
    have hboth : textAfter N after (textAfter N before text) = textAfter N (before ++ after) text :=
      List.foldl_append.symm
    rw [textAfter_eq_nil_iff] at hearly
    rw [hboth, textAfter_eq_nil_iff, List.mem_append]
    tauto

theorem emptyToNull_mem {actions : List CleaningAction} (h : NullsThenTrims actions) :
    CleaningAction.emptyToNull ∈ actions := h.subset List.mem_cons_self

theorem valueAfter_fixed {actions : List CleaningAction} {value : PyValue}
    (h : ∀ a ∈ actions, a.cleaned N value = value) : valueAfter N actions value = value := by
  induction actions with
  | nil => rfl
  | cons a actions ih =>
      change valueAfter N actions (a.cleaned N value) = value
      rw [h a List.mem_cons_self]
      exact ih fun b hb => h b (List.mem_cons_of_mem a hb)

/-- The value that some actions have left is one that each of them leaves alone, unless it is an
empty text that one of them nulls. -/
theorem cleaned_valueAfter {actions : List CleaningAction} {value : PyValue}
    (h : CleaningAction.emptyToNull ∈ actions → valueAfter N actions value ≠ .str [])
    {a : CleaningAction} (ha : a ∈ actions) :
    a.cleaned N (valueAfter N actions value) = valueAfter N actions value := by
  by_cases htextless : value.Textless
  · rw [valueAfter_textless actions htextless, a.cleaned_textless htextless]
  · obtain ⟨text, rfl⟩ : ∃ text, value = .str text := by
      simpa only [PyValue.Textless, not_forall, not_not] using htextless
    cases valueAfter_str_cases (N := N) actions text with
    | inl hnone => rw [hnone, a.cleaned_textless textless_none]
    | inr hstr =>
        rw [hstr] at h ⊢
        have hsame := text_textAfter (N := N) ha text
        cases a with
        | normalizeUnicodeNfc => exact congrArg PyValue.str hsame
        | trimWhitespace => exact congrArg PyValue.str hsame
        | emptyToNull =>
            cases hempty : textAfter N actions text with
            | nil => exact absurd (congrArg PyValue.str hempty) (h ha)
            | cons c rest => rfl

/-- A second pass of some actions over a value, and each of them alone, changes what the first pass
has left exactly when the value is white space that they strip after they have looked for empty
texts. -/
theorem valueAfter_stable {actions : List CleaningAction} (hnodup : actions.Nodup)
    (value : PyValue) :
    (valueAfter N actions (valueAfter N actions value) = valueAfter N actions value ↔
      ∀ text, value = .str text → text ≠ [] → text.strip = [] → ¬NullsThenTrims actions) ∧
    ((∀ a ∈ actions, a.cleaned N (valueAfter N actions value) = valueAfter N actions value) ↔
      ∀ text, value = .str text → text ≠ [] → text.strip = [] → ¬NullsThenTrims actions) := by
  have hsecond : valueAfter N actions (valueAfter N actions value) = valueAfter N actions value →
      ∀ text, value = .str text → text ≠ [] → text.strip = [] → ¬NullsThenTrims actions := by
    rintro hsame text rfl hne hstrip horder
    have hnull := emptyToNull_mem horder
    have hempty := (valueAfter_eq_empty_iff (N := N) hnodup hnull text).mpr ⟨horder, hne, hstrip⟩
    rw [hempty] at hsame
    exact ((valueAfter_eq_empty_iff hnodup hnull []).mp hsame).2.1 rfl
  have heach : (∀ text, value = .str text → text ≠ [] → text.strip = [] →
      ¬NullsThenTrims actions) →
      ∀ a ∈ actions, a.cleaned N (valueAfter N actions value) = valueAfter N actions value := by
    intro h a ha
    refine cleaned_valueAfter (fun hnull hempty => ?_) ha
    by_cases htextless : value.Textless
    · rw [valueAfter_textless actions htextless] at hempty
      exact htextless [] hempty
    · obtain ⟨text, rfl⟩ : ∃ text, value = .str text := by
        simpa only [PyValue.Textless, not_forall, not_not] using htextless
      obtain ⟨horder, hne, hstrip⟩ := (valueAfter_eq_empty_iff hnodup hnull text).mp hempty
      exact h text rfl hne hstrip horder
  exact ⟨⟨hsecond, fun h => valueAfter_fixed (heach h)⟩,
    ⟨fun h => hsecond (valueAfter_fixed h), heach⟩⟩

/-! ## Records -/

namespace QualityRecord

theorem ext {r s : QualityRecord} (h : r.entries = s.entries) : r = s := by
  cases r
  cases s
  cases h
  rfl

theorem mem_of_get? {record : QualityRecord} {field : PyText} {value : PyValue}
    (h : record.get? field = some value) : (field, value) ∈ record.entries := by
  obtain ⟨entry, hfind, rfl⟩ := Option.map_eq_some_iff.mp h
  have hfield := List.find?_some hfind
  obtain rfl := of_decide_eq_true hfield
  exact List.mem_of_find?_eq_some hfind

/-- A field of a record has one value. -/
theorem value_unique {record : QualityRecord} {field : PyText} {value other : PyValue}
    (h : (field, value) ∈ record.entries) (h' : (field, other) ∈ record.entries) :
    value = other := by
  have hsame := List.inj_on_of_nodup_map record.nodup h h' rfl
  exact (Prod.mk.inj hsame).2

theorem get?_of_mem {record : QualityRecord} {field : PyText} {value : PyValue}
    (h : (field, value) ∈ record.entries) : record.get? field = some value := by
  cases hget : record.get? field with
  | none =>
      have hnone := List.find?_eq_none.mp (Option.map_eq_none_iff.mp hget)
      exact absurd (decide_eq_true rfl) (hnone _ h)
  | some other => rw [value_unique h (mem_of_get? hget)]

end QualityRecord

/-- The entry after one action on a field. -/
def cleanedEntry (N : Normalizer) (rule : CleaningRule) (entry : PyText × PyValue) :
    PyText × PyValue :=
  if entry.1 = rule.field then (entry.1, rule.action.cleaned N entry.2) else entry

/-- A rule changes the value of its field and nothing else. -/
theorem CleaningRule.entries_apply (rule : CleaningRule) (record : QualityRecord) :
    (rule.apply N record).entries = record.entries.map (cleanedEntry N rule) := by
  rw [CleaningRule.apply]
  cases hget : record.get? rule.field with
  | none =>
      have hsame : ∀ entry ∈ record.entries, cleanedEntry N rule entry = entry := by
        intro entry hentry
        refine if_neg fun hfield => ?_
        rw [← hfield, QualityRecord.get?_of_mem hentry] at hget
        cases hget
      exact ((List.map_congr_left hsame).trans (List.map_id' _)).symm
  | some value =>
      apply List.map_congr_left
      intro entry hentry
      rw [cleanedEntry]
      by_cases hfield : entry.1 = rule.field
      · have hvalue : value = entry.2 :=
          QualityRecord.value_unique (QualityRecord.mem_of_get? hget) (hfield ▸ hentry)
        rw [if_pos hfield, if_pos hfield, hfield, hvalue]
      · rw [if_neg hfield, if_neg hfield]

/-- The actions that some rules name for a field, in their order. -/
def actionsOf (rules : List CleaningRule) (field : PyText) : List CleaningAction :=
  (rules.filter fun rule => rule.field = field).map CleaningRule.action

/-- The record after some rules. -/
def applyRules (N : Normalizer) (rules : List CleaningRule) (record : QualityRecord) :
    QualityRecord :=
  rules.foldl (fun cleaned rule => rule.apply N cleaned) record

/-- Rules leave in each field the value after the actions that they name for it. -/
theorem entries_applyRules (rules : List CleaningRule) (record : QualityRecord) :
    (applyRules N rules record).entries =
      record.entries.map fun entry => (entry.1, valueAfter N (actionsOf rules entry.1) entry.2) := by
  induction rules generalizing record with
  | nil => exact (List.map_id _).symm
  | cons rule rules ih =>
      change (applyRules N rules (rule.apply N record)).entries = _
      rw [ih, rule.entries_apply, List.map_map]
      apply List.map_congr_left
      intro entry _
      by_cases hfield : entry.1 = rule.field
      · simp [cleanedEntry, actionsOf, hfield, valueAfter]
      · simp [cleanedEntry, actionsOf, hfield, Ne.symm hfield, valueAfter]

theorem applyRules_stable (rules : List CleaningRule) (record : QualityRecord) :
    applyRules N rules (applyRules N rules record) = applyRules N rules record ↔
      ∀ entry ∈ record.entries,
        valueAfter N (actionsOf rules entry.1) (valueAfter N (actionsOf rules entry.1) entry.2) =
          valueAfter N (actionsOf rules entry.1) entry.2 := by
  constructor
  · intro h entry hentry
    have hentries := congrArg QualityRecord.entries h
    rw [entries_applyRules, entries_applyRules, List.map_map] at hentries
    have hsame := List.map_inj_left.mp hentries entry hentry
    exact (Prod.mk.inj hsame).2
  · intro h
    apply QualityRecord.ext
    rw [entries_applyRules, entries_applyRules, List.map_map]
    apply List.map_congr_left
    intro entry hentry
    exact congrArg (Prod.mk entry.1) (h entry hentry)

theorem apply_applyRules {rules : List CleaningRule} {rule : CleaningRule}
    (record : QualityRecord) :
    rule.apply N (applyRules N rules record) = applyRules N rules record ↔
      ∀ entry ∈ record.entries, entry.1 = rule.field →
        rule.action.cleaned N (valueAfter N (actionsOf rules entry.1) entry.2) =
          valueAfter N (actionsOf rules entry.1) entry.2 := by
  constructor
  · intro h entry hentry hfield
    have hentries := congrArg QualityRecord.entries h
    rw [rule.entries_apply, entries_applyRules, List.map_map] at hentries
    have hsame := List.map_inj_left.mp hentries entry hentry
    rw [Function.comp_apply, cleanedEntry, if_pos hfield] at hsame
    exact (Prod.mk.inj hsame).2
  · intro h
    apply QualityRecord.ext
    rw [rule.entries_apply, entries_applyRules, List.map_map]
    apply List.map_congr_left
    intro entry hentry
    by_cases hfield : entry.1 = rule.field
    · rw [Function.comp_apply, cleanedEntry, if_pos hfield]
      exact congrArg (Prod.mk entry.1) (h entry hentry hfield)
    · rw [Function.comp_apply, cleanedEntry, if_neg hfield]

/-! ## Plans -/

namespace CleaningPlan

/-- The rules of a plan are distinct, so no action is named twice for a field. -/
theorem nodup_actionsOf (plan : CleaningPlan) (field : PyText) :
    (actionsOf plan.rules field).Nodup := by
  have hrules : (plan.rules.map fun rule => (rule.field, rule.action)).Nodup := by
    have hvalid := plan.valid
    unfold checkCleaningPlan at hvalid
    split_ifs at hvalid with h₁ h₂ h₃ h₄
    exact h₄
  rw [actionsOf]
  refine (List.nodup_map_iff_inj_on ?_).mpr ?_
  · exact (List.Nodup.of_map _ hrules).filter _
  · intro rule hrule other hother haction
    refine List.inj_on_of_nodup_map hrules (List.mem_of_mem_filter hrule)
      (List.mem_of_mem_filter hother) ?_
    have hfield := of_decide_eq_true (List.mem_filter.mp hrule).2
    have hfield' := of_decide_eq_true (List.mem_filter.mp hother).2
    rw [hfield, hfield', haction]

/-- No field that the plan trims after it has nulled empty texts holds white space only. -/
def TrimsInTime (plan : CleaningPlan) (record : QualityRecord) : Prop :=
  ∀ field text, record.get? field = some (.str text) → text ≠ [] → text.strip = [] →
    ¬NullsThenTrims (actionsOf plan.rules field)

theorem trimsInTime_iff (plan : CleaningPlan) (record : QualityRecord) :
    plan.TrimsInTime record ↔ ∀ entry ∈ record.entries, ∀ text, entry.2 = .str text → text ≠ [] →
      text.strip = [] → ¬NullsThenTrims (actionsOf plan.rules entry.1) := by
  constructor
  · intro h entry hentry text htext
    have hget := QualityRecord.get?_of_mem hentry
    exact h entry.1 text (hget.trans (congrArg some htext))
  · intro h field text hget
    exact h (field, .str text) (QualityRecord.mem_of_get? hget) text rfl

/-- A second pass of a plan leaves a record as the first one has left it, and no rule of the plan
would change it, exactly when the plan trims in time the texts that are white space only. -/
theorem applyRecord_stable_iff (N : Normalizer) (plan : CleaningPlan) (record : QualityRecord) :
    (plan.applyRecord N (plan.applyRecord N record) = plan.applyRecord N record ↔
      plan.TrimsInTime record) ∧
    ((∀ rule ∈ plan.rules, rule.apply N (plan.applyRecord N record) = plan.applyRecord N record) ↔
      plan.TrimsInTime record) := by
  rw [trimsInTime_iff]
  refine ⟨?_, ?_⟩
  · refine (applyRules_stable plan.rules record).trans (forall₂_congr fun entry _ => ?_)
    exact (valueAfter_stable (plan.nodup_actionsOf entry.1) entry.2).1
  · have hrules : (∀ rule ∈ plan.rules,
        rule.apply N (plan.applyRecord N record) = plan.applyRecord N record) ↔
        ∀ entry ∈ record.entries, ∀ a ∈ actionsOf plan.rules entry.1,
          a.cleaned N (valueAfter N (actionsOf plan.rules entry.1) entry.2) =
            valueAfter N (actionsOf plan.rules entry.1) entry.2 := by
      constructor
      · intro h entry hentry a ha
        obtain ⟨rule, hrule, rfl⟩ := List.mem_map.mp ha
        obtain ⟨hmem, hfield⟩ := List.mem_filter.mp hrule
        exact (apply_applyRules record).mp (h rule hmem) entry hentry
          (of_decide_eq_true hfield).symm
      · intro h rule hrule
        refine (apply_applyRules record).mpr fun entry hentry hfield => ?_
        refine h entry hentry rule.action (List.mem_map.mpr ⟨rule, ?_, rfl⟩)
        exact List.mem_filter.mpr ⟨hrule, decide_eq_true hfield.symm⟩
    rw [hrules]
    exact forall₂_congr fun entry _ =>
      (valueAfter_stable (plan.nodup_actionsOf entry.1) entry.2).2

/-- A plan that looks for empty texts before it trims. -/
def nullsThenTrims : CleaningPlan where
  schemaFingerprint := List.replicate 64 (.scalar '0')
  reviewedBy := PyText.ofString "reviewer"
  rules := [⟨PyText.ofString "name", .emptyToNull, by decide⟩,
    ⟨PyText.ofString "name", .trimWhitespace, by decide⟩]
  valid := by decide

/-- Texts that are normalised already. -/
def normalized : Normalizer where
  nfc := id
  nfc_nfc _ := rfl
  nfc_strip _ := rfl
  nfc_eq_nil_iff _ := Iff.rfl

/-- A name that is a blank: the first pass strips it, the second one makes it a null. -/
theorem applyRecord_blank :
    nullsThenTrims.applyRecord normalized (nullsThenTrims.applyRecord normalized
      ⟨[(PyText.ofString "name", .str (PyText.ofString " "))], by decide⟩) ≠
    nullsThenTrims.applyRecord normalized
      ⟨[(PyText.ofString "name", .str (PyText.ofString " "))], by decide⟩ := by
  intro h
  have hentries := congrArg QualityRecord.entries h
  cases hentries

end CleaningPlan

end Polymorph
