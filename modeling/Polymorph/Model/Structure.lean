import Polymorph.Model.Schema
import Polymorph.Text.SortedKeys
import Polymorph.Text.WireObjects

/-!
# The structure of a schema

`structural_fingerprint` hashes the fields and the relations of a schema and leaves its id and its
metadata out. The hashed text determines both lists (`fields_eq_of_structuralText`).
-/

set_option autoImplicit false

namespace Polymorph

open JsonText

/-! ## The structural fingerprint -/

namespace SchemaDescriptor

/-- The members of `canonical_dict(structural=True)`. -/
def structuralMembers (s : SchemaDescriptor) : List (String × Json) :=
  [("fields", .arr (s.fields.map FieldDescriptor.canonicalDict)),
    ("relations", .arr (s.relations.map RelationDescriptor.canonicalDict))]

/-- The text that `structural_fingerprint` hashes. -/
def structuralText (s : SchemaDescriptor) : String := canonical (.obj s.structuralMembers)

/-- `structural_fingerprint` -/
def structuralFingerprint (H : Host) (s : SchemaDescriptor) : String :=
  H.sha256Hex s.structuralText

/-- The schemas have the same fields and the same relations. -/
def SameStructure (s t : SchemaDescriptor) : Prop :=
  s.fields = t.fields ∧ s.relations = t.relations

end SchemaDescriptor

/-! ## Stored names -/

/-- A function that some reader inverts is injective. -/
theorem injective_of_read {α β : Type} {f : α → β} {read : β → Option α}
    (h : ∀ a, read (f a) = some a) : Function.Injective f := by
  intro a b hab
  have hread := h a
  rw [hab, h b] at hread
  exact (Option.some.inj hread).symm

theorem DataType.value_injective : Function.Injective DataType.value := by
  let all : List DataType :=
    [.unknown, .string, .integer, .decimal, .boolean, .date, .datetime, .uuid, .binary, .json]
  apply @injective_of_read _ _ _ fun text => all.find? fun type => type.value = text
  intro type
  cases type <;> rfl

theorem Sensitivity.value_injective : Function.Injective Sensitivity.value := by
  let all : List Sensitivity :=
    [.publicData, .internal, .personal, .confidential, .secret, .opaqueData]
  apply @injective_of_read _ _ _ fun text => all.find? fun sensitivity => sensitivity.value = text
  intro sensitivity
  cases sensitivity <;> rfl

theorem FieldRole.text_injective : Function.Injective FieldRole.text := by
  let all : List FieldRole := [.value, .primaryKey, .foreignKey, .naturalKey, .credential]
  apply @injective_of_read _ _ _ fun text => all.find? fun role => role.text = text
  intro role
  cases role <;> rfl

theorem sortKeys_optionalText (text : Option String) :
    sortKeys (optionalText text) = optionalText text := by
  cases text with
  | none => rfl
  | some s => rfl

theorem optionalText_injective : Function.Injective optionalText := by
  intro a b h
  cases a with
  | none =>
      cases b with
      | none => rfl
      | some t => cases h
  | some s =>
      cases b with
      | none => cases h
      | some t => rw [Json.str.inj h]

theorem isWire_optionalText (text : Option String) : IsWire (optionalText text) := by
  cases text with
  | none => exact ⟨rfl, rfl⟩
  | some s => exact isWire_str s

theorem isWire_bool (b : Bool) : IsWire (.bool b) := ⟨rfl, rfl⟩

/-- Arrays that differ only in the order of keys come from the same list, when the items do. -/
theorem items_eq_of_sortKeys {α : Type} {wire : α → Json}
    (hinjective : Function.Injective fun a => sortKeys (wire a)) {as bs : List α}
    (h : sortKeys (.arr (as.map wire)) = sortKeys (.arr (bs.map wire))) : as = bs := by
  apply List.map_injective_iff.2 hinjective
  have hitems := Json.arr.inj h
  rw [sortItems_eq_map, sortItems_eq_map, List.map_map, List.map_map] at hitems
  exact hitems

theorem isWire_items {α : Type} {wire : α → Json} (h : ∀ a, IsWire (wire a)) (as : List α) :
    IsWire (.arr (as.map wire)) := by
  apply isWire_arr
  intro j hj
  obtain ⟨a, -, rfl⟩ := List.mem_map.1 hj
  exact h a

/-! ## Fields -/

namespace FieldDescriptor

/-- The members of `canonical_dict`. -/
def members (f : FieldDescriptor) : List (String × Json) :=
  [("id", .str f.id), ("name", .str f.name), ("data_type", .str f.dataType.value),
    ("nullable", .bool f.nullable), ("sensitivity", .str f.sensitivity.value),
    ("role", .str f.role.text), ("description", optionalText f.description),
    ("aliases", .arr (f.aliases.map .str)), ("container", optionalText f.container)] ++
    if f.destinationGenerated then [("destination_generated", .bool true)] else []

theorem canonicalDict_eq (f : FieldDescriptor) : f.canonicalDict = .obj f.members := rfl

theorem members_nodup (f : FieldDescriptor) : (f.members.map Prod.fst).Nodup := by
  unfold members
  split
  · simp
  · simp

theorem isWire_canonicalDict (f : FieldDescriptor) : IsWire f.canonicalDict := by
  apply isWire_obj f.members_nodup
  intro p hp
  rcases List.mem_append.1 hp with hp | hp
  · simp only [List.mem_cons, List.not_mem_nil, or_false] at hp
    rcases hp with rfl | rfl | rfl | rfl | rfl | rfl | rfl | rfl | rfl
    · exact isWire_str _
    · exact isWire_str _
    · exact isWire_str _
    · exact isWire_bool _
    · exact isWire_str _
    · exact isWire_str _
    · exact isWire_optionalText _
    · exact isWire_items isWire_str _
    · exact isWire_optionalText _
  · split at hp
    · rw [List.mem_singleton.1 hp]
      exact isWire_bool true
    · cases hp

/-- The optional member tells the generated fields from the others. -/
theorem lookup_destinationGenerated (f : FieldDescriptor) :
    dictGet "destination_generated" f.members =
      if f.destinationGenerated then some (.bool true) else none := by
  unfold members
  split
  · simp [dictGet]
  · simp [dictGet]

/-- A field is determined by its canonical dictionary, up to the order of keys. -/
theorem eq_of_sortKeys {f g : FieldDescriptor}
    (h : sortKeys f.canonicalDict = sortKeys g.canonicalDict) : f = g := by
  have hf := f.members_nodup
  have hg := g.members_nodup
  have hid : f.id = g.id :=
    @text_eq _ _ hf hg h "id" _ _ (by simp [members]) (by simp [members])
  have hname : f.name = g.name :=
    @text_eq _ _ hf hg h "name" _ _ (by simp [members]) (by simp [members])
  have htype : f.dataType.value = g.dataType.value :=
    @text_eq _ _ hf hg h "data_type" _ _ (by simp [members]) (by simp [members])
  have hnullable : sortKeys (.bool f.nullable) = sortKeys (.bool g.nullable) :=
    @member_eq _ _ hf hg h "nullable" _ _ (by simp [members]) (by simp [members])
  have hsensitivity : f.sensitivity.value = g.sensitivity.value :=
    @text_eq _ _ hf hg h "sensitivity" _ _ (by simp [members]) (by simp [members])
  have hrole : f.role.text = g.role.text :=
    @text_eq _ _ hf hg h "role" _ _ (by simp [members]) (by simp [members])
  have hdescription : sortKeys (optionalText f.description) = sortKeys (optionalText g.description) :=
    @member_eq _ _ hf hg h "description" _ _ (by simp [members]) (by simp [members])
  have haliases : sortKeys (.arr (f.aliases.map .str)) = sortKeys (.arr (g.aliases.map .str)) :=
    @member_eq _ _ hf hg h "aliases" _ _ (by simp [members]) (by simp [members])
  have hcontainer : sortKeys (optionalText f.container) = sortKeys (optionalText g.container) :=
    @member_eq _ _ hf hg h "container" _ _ (by simp [members]) (by simp [members])
  have hgenerated := lookup_eq hf hg h "destination_generated"
  have hstr : Function.Injective fun name : String => sortKeys (.str name) :=
    fun _ _ heq => Json.str.inj heq
  have hnames := items_eq_of_sortKeys hstr haliases
  rw [sortKeys_optionalText, sortKeys_optionalText] at hdescription hcontainer
  rw [lookup_destinationGenerated, lookup_destinationGenerated] at hgenerated
  have hflag : f.destinationGenerated = g.destinationGenerated := by
    cases hfirst : f.destinationGenerated <;> cases hsecond : g.destinationGenerated <;>
      simp [hfirst, hsecond] at hgenerated ⊢
  cases f
  cases g
  simp only [FieldDescriptor.mk.injEq]
  exact ⟨hid, hname, DataType.value_injective htype, Json.bool.inj hnullable,
    Sensitivity.value_injective hsensitivity, FieldRole.text_injective hrole,
    optionalText_injective hdescription, hnames, optionalText_injective hcontainer, hflag⟩

end FieldDescriptor

/-! ## Relations -/

theorem LookupKeyDescriptor.isWire_canonicalDict (k : LookupKeyDescriptor) :
    IsWire k.canonicalDict := by
  apply isWire_obj (by simp)
  intro p hp
  simp only [List.mem_cons, List.not_mem_nil, or_false] at hp
  rcases hp with rfl | rfl
  · exact isWire_str _
  · exact isWire_str _

theorem LookupKeyDescriptor.eq_of_sortKeys {k l : LookupKeyDescriptor}
    (h : sortKeys k.canonicalDict = sortKeys l.canonicalDict) : k = l := by
  have hname : k.name = l.name :=
    @text_eq _ _ (by simp) (by simp) h "name" _ _ (by simp) (by simp)
  have htype : k.dataType.value = l.dataType.value :=
    @text_eq _ _ (by simp) (by simp) h "data_type" _ _ (by simp) (by simp)
  cases k
  cases l
  simp only [LookupKeyDescriptor.mk.injEq]
  exact ⟨hname, DataType.value_injective htype⟩

namespace RelationDescriptor

/-- The members of `canonical_dict`. -/
def members (r : RelationDescriptor) : List (String × Json) :=
  [("source_field_id", .str r.sourceFieldId), ("target_container", .str r.targetContainer),
    ("target_field", .str r.targetField), ("name", optionalText r.name),
    ("target_schema", optionalText r.targetSchema),
    ("lookup_keys", .arr (r.lookupKeys.map LookupKeyDescriptor.canonicalDict))]

theorem canonicalDict_eq (r : RelationDescriptor) : r.canonicalDict = .obj r.members := rfl

theorem members_nodup (r : RelationDescriptor) : (r.members.map Prod.fst).Nodup := by
  simp [members]

theorem isWire_canonicalDict (r : RelationDescriptor) : IsWire r.canonicalDict := by
  apply isWire_obj r.members_nodup
  intro p hp
  simp only [members, List.mem_cons, List.not_mem_nil, or_false] at hp
  rcases hp with rfl | rfl | rfl | rfl | rfl | rfl
  · exact isWire_str _
  · exact isWire_str _
  · exact isWire_str _
  · exact isWire_optionalText _
  · exact isWire_optionalText _
  · exact isWire_items LookupKeyDescriptor.isWire_canonicalDict _

/-- A relation is determined by its canonical dictionary, up to the order of keys. -/
theorem eq_of_sortKeys {r q : RelationDescriptor}
    (h : sortKeys r.canonicalDict = sortKeys q.canonicalDict) : r = q := by
  have hr := r.members_nodup
  have hq := q.members_nodup
  have hsource : r.sourceFieldId = q.sourceFieldId :=
    @text_eq _ _ hr hq h "source_field_id" _ _ (by simp [members]) (by simp [members])
  have hcontainer : r.targetContainer = q.targetContainer :=
    @text_eq _ _ hr hq h "target_container" _ _ (by simp [members]) (by simp [members])
  have hfield : r.targetField = q.targetField :=
    @text_eq _ _ hr hq h "target_field" _ _ (by simp [members]) (by simp [members])
  have hname : sortKeys (optionalText r.name) = sortKeys (optionalText q.name) :=
    @member_eq _ _ hr hq h "name" _ _ (by simp [members]) (by simp [members])
  have hschema : sortKeys (optionalText r.targetSchema) = sortKeys (optionalText q.targetSchema) :=
    @member_eq _ _ hr hq h "target_schema" _ _ (by simp [members]) (by simp [members])
  have hkeys : sortKeys (.arr (r.lookupKeys.map LookupKeyDescriptor.canonicalDict)) =
      sortKeys (.arr (q.lookupKeys.map LookupKeyDescriptor.canonicalDict)) :=
    @member_eq _ _ hr hq h "lookup_keys" _ _ (by simp [members]) (by simp [members])
  have hlookup := items_eq_of_sortKeys (fun _ _ heq => LookupKeyDescriptor.eq_of_sortKeys heq) hkeys
  rw [sortKeys_optionalText, sortKeys_optionalText] at hname hschema
  cases r
  cases q
  simp only [RelationDescriptor.mk.injEq]
  exact ⟨hsource, hcontainer, hfield, optionalText_injective hname,
    optionalText_injective hschema, hlookup⟩

end RelationDescriptor

/-! ## Schemas -/

namespace SchemaDescriptor

theorem structuralMembers_nodup (s : SchemaDescriptor) :
    (s.structuralMembers.map Prod.fst).Nodup := by
  simp [structuralMembers]

theorem isWire_structuralMembers (s : SchemaDescriptor) : IsWire (.obj s.structuralMembers) := by
  apply isWire_obj s.structuralMembers_nodup
  intro p hp
  simp only [structuralMembers, List.mem_cons, List.not_mem_nil, or_false] at hp
  rcases hp with rfl | rfl
  · exact isWire_items FieldDescriptor.isWire_canonicalDict _
  · exact isWire_items RelationDescriptor.isWire_canonicalDict _

/-- The hashed text determines the fields and the relations. -/
theorem sameStructure_of_structuralText {s t : SchemaDescriptor}
    (h : s.structuralText = t.structuralText) : s.SameStructure t := by
  have hsorted := sortKeys_eq_of_canonical_eq s.isWire_structuralMembers.1
    t.isWire_structuralMembers.1 h
  have hfields : sortKeys (.arr (s.fields.map FieldDescriptor.canonicalDict)) =
      sortKeys (.arr (t.fields.map FieldDescriptor.canonicalDict)) :=
    @member_eq _ _ s.structuralMembers_nodup t.structuralMembers_nodup hsorted
    "fields" _ _ (by simp [structuralMembers]) (by simp [structuralMembers])
  have hrelations : sortKeys (.arr (s.relations.map RelationDescriptor.canonicalDict)) =
      sortKeys (.arr (t.relations.map RelationDescriptor.canonicalDict)) :=
    @member_eq _ _ s.structuralMembers_nodup t.structuralMembers_nodup hsorted
    "relations" _ _ (by simp [structuralMembers]) (by simp [structuralMembers])
  refine ⟨?_, ?_⟩
  · exact items_eq_of_sortKeys (fun _ _ heq => FieldDescriptor.eq_of_sortKeys heq) hfields
  · exact items_eq_of_sortKeys (fun _ _ heq => RelationDescriptor.eq_of_sortKeys heq) hrelations

theorem structuralText_of_sameStructure {s t : SchemaDescriptor} (h : s.SameStructure t) :
    s.structuralText = t.structuralText := by
  rw [structuralText, structuralText, structuralMembers, structuralMembers, h.1, h.2]

/-- Structural fingerprints tell structures apart, as far as the hash tells their texts apart. -/
theorem structuralFingerprint_eq_iff {H : Host} {T : Set String}
    (hT : Set.InjOn H.sha256Hex T) {s t : SchemaDescriptor} (hs : s.structuralText ∈ T)
    (ht : t.structuralText ∈ T) :
    s.structuralFingerprint H = t.structuralFingerprint H ↔ s.SameStructure t := by
  refine ⟨?_, ?_⟩
  · intro h
    exact sameStructure_of_structuralText (hT hs ht h)
  · intro h
    rw [structuralFingerprint, structuralFingerprint, structuralText_of_sameStructure h]

end SchemaDescriptor

end Polymorph
