import Polymorph.Errors
import Polymorph.Host
import Polymorph.Model.Values
import Polymorph.Storage.Table

/-!
# Schemas and mapping plans

Field, relation and schema descriptors with the structural checks of their constructors, and
mapping plans. The fingerprint of a schema and the digest of a plan hash their canonical JSON.
-/

set_option autoImplicit false

namespace Polymorph

open JsonText Utc

/-- Field classifications, from least to most sensitive. -/
inductive Sensitivity where
  | publicData
  | internal
  | personal
  | confidential
  | secret
  | opaqueData
deriving DecidableEq, Repr

/-- `_SENSITIVITY_RANK` -/
def Sensitivity.rank : Sensitivity → Nat
  | .publicData => 0
  | .internal => 1
  | .personal => 2
  | .confidential => 3
  | .secret => 4
  | .opaqueData => 5

/-- The stored name of a classification. -/
def Sensitivity.value : Sensitivity → String
  | .publicData => "public"
  | .internal => "internal"
  | .personal => "personal"
  | .confidential => "confidential"
  | .secret => "secret"
  | .opaqueData => "opaque"

/-- `sensitivity_route_safe` -/
def sensitivityRouteSafe (source target : Sensitivity) : Bool := source.rank ≤ target.rank

/-- SECRET and OPAQUE values stay unread. -/
def Sensitivity.isSealed : Sensitivity → Bool
  | .secret | .opaqueData => true
  | _ => false

/-- Field roles. -/
inductive FieldRole where
  | value
  | primaryKey
  | foreignKey
  | naturalKey
  | credential
deriving DecidableEq, Repr

/-- The stored name of a role. -/
def FieldRole.text : FieldRole → String
  | .value => "value"
  | .primaryKey => "primary_key"
  | .foreignKey => "foreign_key"
  | .naturalKey => "natural_key"
  | .credential => "credential"

/-- The stored name of a data type. -/
def DataType.value : DataType → String
  | .unknown => "unknown"
  | .string => "string"
  | .integer => "integer"
  | .decimal => "decimal"
  | .boolean => "boolean"
  | .date => "date"
  | .datetime => "datetime"
  | .uuid => "uuid"
  | .binary => "binary"
  | .json => "json"

/-- A field of a schema. -/
structure FieldDescriptor where
  id : String
  name : String
  dataType : DataType := .unknown
  nullable : Bool := true
  sensitivity : Sensitivity := .internal
  role : FieldRole := .value
  description : Option String := none
  aliases : List String := []
  container : Option String := none
  destinationGenerated : Bool := false
deriving DecidableEq

/-- An optional text. -/
def optionalText : Option String → Json
  | none => .null
  | some s => .str s

/-- `FieldDescriptor.canonical_dict` -/
def FieldDescriptor.canonicalDict (f : FieldDescriptor) : Json :=
  .obj ([("id", .str f.id), ("name", .str f.name), ("data_type", .str f.dataType.value),
    ("nullable", .bool f.nullable), ("sensitivity", .str f.sensitivity.value),
    ("role", .str f.role.text), ("description", optionalText f.description),
    ("aliases", .arr (f.aliases.map .str)), ("container", optionalText f.container)] ++
    if f.destinationGenerated then [("destination_generated", .bool true)] else [])

/-- A column by which a relation's target may be looked up. -/
structure LookupKeyDescriptor where
  name : String
  dataType : DataType := .unknown
deriving DecidableEq

/-- `LookupKeyDescriptor.canonical_dict` -/
def LookupKeyDescriptor.canonicalDict (k : LookupKeyDescriptor) : Json :=
  .obj [("name", .str k.name), ("data_type", .str k.dataType.value)]

/-- A foreign-key relation of one field, with distinct lookup keys. -/
structure RelationDescriptor where
  sourceFieldId : String
  targetContainer : String
  targetField : String
  name : Option String := none
  targetSchema : Option String := none
  lookupKeys : List LookupKeyDescriptor := []
  lookupKeyNames : (lookupKeys.map LookupKeyDescriptor.name).Nodup := by decide
deriving DecidableEq

/-- `RelationDescriptor.lookup_key` -/
def RelationDescriptor.lookupKey (r : RelationDescriptor) (name : String) :
    Option LookupKeyDescriptor :=
  r.lookupKeys.find? fun item => item.name = name

/-- A declared lookup key is the one found under its name. -/
theorem RelationDescriptor.lookupKey_name {r : RelationDescriptor} {key : LookupKeyDescriptor}
    (h : key ∈ r.lookupKeys) : r.lookupKey key.name = some key :=
  (Table.UniqueBy.selectBy_eq_some r.lookupKeyNames).2 ⟨h, rfl⟩

/-- `RelationDescriptor.canonical_dict` -/
def RelationDescriptor.canonicalDict (r : RelationDescriptor) : Json :=
  .obj [("source_field_id", .str r.sourceFieldId), ("target_container", .str r.targetContainer),
    ("target_field", .str r.targetField), ("name", optionalText r.name),
    ("target_schema", optionalText r.targetSchema),
    ("lookup_keys", .arr (r.lookupKeys.map LookupKeyDescriptor.canonicalDict))]

/-- A schema: distinct field ids, and at most one relation for each of its fields. -/
structure SchemaDescriptor where
  id : String
  fields : List FieldDescriptor
  relations : List RelationDescriptor := []
  metadata : List (String × String) := []
  fieldIds : (fields.map FieldDescriptor.id).Nodup := by decide
  relationFields : (relations.map RelationDescriptor.sourceFieldId).Nodup ∧
    ∀ r ∈ relations, r.sourceFieldId ∈ fields.map FieldDescriptor.id := by decide

namespace SchemaDescriptor

/-- `by_id().get(field_id)` -/
def fieldById? (s : SchemaDescriptor) (fieldId : String) : Option FieldDescriptor :=
  s.fields.find? fun item => item.id = fieldId

/-- `relation_for_source_field` -/
def relationForSourceField (s : SchemaDescriptor) (fieldId : String) :
    Option RelationDescriptor :=
  s.relations.find? fun item => item.sourceFieldId = fieldId

/-- `canonical_dict` -/
def canonicalDict (s : SchemaDescriptor) : Json :=
  .obj [("fields", .arr (s.fields.map FieldDescriptor.canonicalDict)),
    ("relations", .arr (s.relations.map RelationDescriptor.canonicalDict)),
    ("id", .str s.id), ("metadata", .obj (s.metadata.map fun p => (p.1, .str p.2)))]

/-- `fingerprint` -/
def fingerprint (H : Host) (s : SchemaDescriptor) : String :=
  H.sha256Hex (canonical s.canonicalDict)

theorem fieldById?_of_mem {s : SchemaDescriptor} {f : FieldDescriptor} (h : f ∈ s.fields) :
    s.fieldById? f.id = some f :=
  (Table.UniqueBy.selectBy_eq_some s.fieldIds).2 ⟨h, rfl⟩

theorem fieldById?_eq_some {s : SchemaDescriptor} {fieldId : String} {f : FieldDescriptor}
    (h : s.fieldById? fieldId = some f) : f ∈ s.fields ∧ f.id = fieldId :=
  ⟨List.mem_of_find?_eq_some h, by simpa using List.find?_some h⟩

end SchemaDescriptor

/-- A rule of a plan. -/
structure MappingRule where
  sourceFieldId : String
  targetFieldId : String
  transform : String := "copy"
  parameters : List (String × String) := []
deriving DecidableEq

/-- `rule.parameters.get(name)` -/
def MappingRule.parameter (r : MappingRule) (name : String) : Option String :=
  dictGet name r.parameters

/-- `MappingRule.canonical_dict` -/
def MappingRule.canonicalDict (r : MappingRule) : Json :=
  .obj [("source_field_id", .str r.sourceFieldId), ("target_field_id", .str r.targetFieldId),
    ("transform", .str r.transform),
    ("parameters", .obj (r.parameters.map fun p => (p.1, .str p.2)))]

/-- A mapping plan. -/
structure MappingPlan where
  id : String
  sourceSchemaId : String
  targetSchemaId : String
  sourceFingerprint : String
  targetFingerprint : String
  rules : List MappingRule
  version : Nat := 1
  createdAt : Instant

/-- `MappingPlan.canonical_dict` -/
def MappingPlan.canonicalDict (p : MappingPlan) : Json :=
  .obj [("id", .str p.id), ("source_schema_id", .str p.sourceSchemaId),
    ("target_schema_id", .str p.targetSchemaId), ("source_fingerprint", .str p.sourceFingerprint),
    ("target_fingerprint", .str p.targetFingerprint),
    ("rules", .arr (p.rules.map MappingRule.canonicalDict)), ("version", .int p.version),
    ("created_at", .str p.createdAt.isoformat)]

/-- `MappingPlan.digest` -/
def MappingPlan.digest (H : Host) (p : MappingPlan) : String :=
  H.sha256Hex (canonical p.canonicalDict)

end Polymorph
