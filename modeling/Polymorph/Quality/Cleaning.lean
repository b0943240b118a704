import Polymorph.Errors
import Polymorph.Model.Whitespace

/-!
# Cleaning plans

A cleaning plan is a list of reviewed rules. Each rule names a field and what is done to the text
in it: it is normalised, stripped, or replaced by a null when it is empty. A plan goes over a
record once, rule by rule, so a rule sees what the rules before it have left.
-/

set_option autoImplicit false

namespace Polymorph

/-- `unicodedata.normalize("NFC", ·)`. Normalising twice is normalising once, white space at the
ends of a text takes no part in it, and no character of a text normalises to nothing. -/
structure Normalizer where
  nfc : PyText → PyText
  nfc_nfc : ∀ text, nfc (nfc text) = nfc text
  nfc_strip : ∀ text : PyText, nfc text.strip = (nfc text).strip
  nfc_eq_nil_iff : ∀ text, nfc text = [] ↔ text = []

/-- `CleaningAction` -/
inductive CleaningAction where
  | normalizeUnicodeNfc
  | trimWhitespace
  | emptyToNull
deriving DecidableEq, Repr

/-- The constructor's check of a `CleaningRule`. -/
def checkCleaningRule (field : PyText) : Except Exn Unit :=
  if field.isEmpty = true ∨ 256 < field.length then
    .error (.polymorphError "cleaning rule field must contain 1..256 characters")
  else .ok ()

/-- `CleaningRule` -/
structure CleaningRule where
  field : PyText
  action : CleaningAction
  valid : checkCleaningRule field = .ok ()
deriving DecidableEq

/-- The constructor's checks of a `CleaningPlan`, in their order. -/
def checkCleaningPlan (schemaFingerprint reviewedBy : PyText) (rules : List CleaningRule) :
    Except Exn Unit :=
  if schemaFingerprint.length ≠ 64 then
    .error (.polymorphError "cleaning plan requires a SHA-256 schema fingerprint")
  else if reviewedBy.isEmpty = true ∨ 256 < reviewedBy.length then
    .error (.polymorphError "cleaning plan requires a bounded reviewer label")
  else if rules.isEmpty = true ∨ 4096 < rules.length then
    .error (.polymorphError "cleaning plan must contain 1..4,096 rules")
  else if ¬(rules.map fun rule => (rule.field, rule.action)).Nodup then
    .error (.polymorphError "cleaning plan contains a duplicate rule")
  else .ok ()

/-- `CleaningPlan` -/
structure CleaningPlan where
  schemaFingerprint : PyText
  reviewedBy : PyText
  rules : List CleaningRule
  valid : checkCleaningPlan schemaFingerprint reviewedBy rules = .ok ()

/-- A record: its fields in their order, each of them once. -/
structure QualityRecord where
  entries : List (PyText × PyValue)
  nodup : (entries.map Prod.fst).Nodup

namespace QualityRecord

/-- `record[field]` of a field that is in the record. -/
def get? (record : QualityRecord) (field : PyText) : Option PyValue :=
  (record.entries.find? fun entry => entry.1 = field).map Prod.snd

/-- Entries after `cleaned[field] = value` of a field that is among them. -/
def assigned (field : PyText) (value : PyValue) (entries : List (PyText × PyValue)) :
    List (PyText × PyValue) :=
  entries.map fun entry => if entry.1 = field then (field, value) else entry

theorem keys_assigned (field : PyText) (value : PyValue) (entries : List (PyText × PyValue)) :
    (assigned field value entries).map Prod.fst = entries.map Prod.fst := by
  rw [assigned, List.map_map]
  apply List.map_congr_left
  intro entry _
  by_cases h : entry.1 = field
  · simp [h]
  · simp [h]

/-- `cleaned[field] = value` of a field that is in the record. -/
def assign (record : QualityRecord) (field : PyText) (value : PyValue) : QualityRecord where
  entries := assigned field value record.entries
  nodup := (keys_assigned field value record.entries).symm ▸ record.nodup

end QualityRecord

variable (N : Normalizer)

/-- The value that an action leaves in a field. -/
def CleaningAction.cleaned : CleaningAction → PyValue → PyValue
  | .normalizeUnicodeNfc, .str text => .str (N.nfc text)
  | .trimWhitespace, .str text => .str text.strip
  | .emptyToNull, .str [] => .none
  | _, value => value

/-- One turn of the loop over the rules. -/
def CleaningRule.apply (rule : CleaningRule) (record : QualityRecord) : QualityRecord :=
  match record.get? rule.field with
  | none => record
  | some value => record.assign rule.field (rule.action.cleaned N value)

/-- `apply_record` -/
def CleaningPlan.applyRecord (plan : CleaningPlan) (record : QualityRecord) : QualityRecord :=
  plan.rules.foldl (fun cleaned rule => rule.apply N cleaned) record

/-- `apply` -/
def CleaningPlan.apply (plan : CleaningPlan) (records : List QualityRecord) :
    List QualityRecord :=
  records.map (plan.applyRecord N)

end Polymorph
