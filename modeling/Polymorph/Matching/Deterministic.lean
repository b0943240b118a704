import Polymorph.Matching.Names

/-!
# Deterministic evidence

The score of a pair of fields from names, types and roles, and the contract that an automatic
mapping decision needs: equal sensitivity, no null into a required field, and either a lookup
through a declared unique key or a type-safe copy between compatible roles.
-/

set_option autoImplicit false

namespace Polymorph

open ScoreArith

/-- `automatic_copy_type_safe` -/
def automaticCopyTypeSafe (source target : DataType) : Bool :=
  source ≠ .unknown && runtimeTypeSatisfies source target

/-- `type_compatibility` -/
def typeCompatibility {S : Type} [ScoreArith S] (source target : DataType) : S :=
  if source = .unknown ∨ target = .unknown then lit 0.55
  else if source = target then lit 1
  else if source ∈ [DataType.integer, .decimal] ∧ target ∈ [DataType.integer, .decimal] then
    lit 0.85
  else if source ∈ [DataType.date, .datetime] ∧ target ∈ [DataType.date, .datetime] then lit 0.75
  else if source = .string then lit 0.45
  else lit 0

/-- `role_compatible_for_automatic` -/
def roleCompatibleForAutomatic (source target : FieldRole) : Bool :=
  source = target ||
    ((source = .value || target = .value) && source ≠ .credential && target ≠ .credential)

section Lookup

variable (S : Type) [ScoreArith S] (T : TextHost)

/-- The lookup key has an acceptable type: known and safe when automatic, else not known to be
unsafe. -/
def lookupTypeAccepted (automatic : Bool) (source : FieldDescriptor)
    (key : LookupKeyDescriptor) : Bool :=
  let declaredTypesKnown := source.dataType ≠ .unknown && key.dataType ≠ .unknown
  let typesCompatible := declaredTypesKnown && automaticCopyTypeSafe source.dataType key.dataType
  if automatic then typesCompatible else !declaredTypesKnown || typesCompatible

/-- The field a lookup key is scored as. -/
def lookupCandidate (key : LookupKeyDescriptor) : FieldDescriptor :=
  { id := key.name, name := key.name, dataType := key.dataType, role := .naturalKey }

/-- Tuples compare by score and, between equal scores, by name. -/
def scoredLess (p q : S × String) : Bool :=
  if eq p.1 q.1 then decide (p.2 < q.2) else lt p.1 q.1

/-- `_foreign_key_lookup_key` -/
def foreignKeyLookupKeyWith (automatic : Bool) (source target : FieldDescriptor)
    (targetSchema : SchemaDescriptor) : Option String :=
  if source.sensitivity.isSealed then none
  else if source.role ≠ .naturalKey ∨ target.role ≠ .foreignKey then none
  else
    match targetSchema.relationForSourceField target.id with
    | none => none
    | some relation =>
        let scored := (relation.lookupKeys.filter (lookupTypeAccepted automatic source)).map
          fun key => ((nameSimilarity T source (lookupCandidate key)).1, key.name)
        match sortedReverse (S := S) (scoredLess S) scored with
        | [] => none
        | best :: _ => if lt best.1 (lit 0.42) then none else some best.2

/-- `foreign_key_lookup_key` -/
def foreignKeyLookupKey (source target : FieldDescriptor) (targetSchema : SchemaDescriptor) :
    Option String :=
  foreignKeyLookupKeyWith S T true source target targetSchema

/-- `reviewable_foreign_key_lookup_key` -/
def reviewableForeignKeyLookupKey (source target : FieldDescriptor)
    (targetSchema : SchemaDescriptor) : Option String :=
  foreignKeyLookupKeyWith S T false source target targetSchema

/-- `automatic_mapping_contract_safe` -/
def automaticMappingContractSafe (source target : FieldDescriptor)
    (targetSchema : SchemaDescriptor) : Bool :=
  if source.sensitivity ≠ target.sensitivity then false
  else if source.nullable && !target.nullable then false
  else if (foreignKeyLookupKey S T source target targetSchema).isSome then true
  else automaticCopyTypeSafe source.dataType target.dataType &&
    roleCompatibleForAutomatic source.role target.role

/-- `deterministic_score` against a field of a schema. -/
def deterministicScore (source target : FieldDescriptor) (targetSchema : SchemaDescriptor) :
    S × List String :=
  if !sensitivityRouteSafe source.sensitivity target.sensitivity then
    (lit 0, ["sensitivity incompatible"])
  else
    let (nameScore, reasons) := nameSimilarity (S := S) T source target
    let relationLookup := (foreignKeyLookupKey S T source target targetSchema).isSome
    let declaredType : S := typeCompatibility source.dataType target.dataType
    let declaredRole : S := if source.role = target.role then lit 1 else lit 0.55
    -- A business key differs in type from the internal key that the lookup resolves it to.
    let typeScore := if relationLookup then pyMax declaredType (lit 0.85) else declaredType
    let roleScore := if relationLookup then pyMax declaredRole (lit 0.85) else declaredRole
    let weighted := add (add (mul (lit 0.68) nameScore) (mul (lit 0.22) typeScore))
      (mul (lit 0.10) roleScore)
    let score := if relationLookup then pyMin (lit 1) (add weighted (lit 0.12)) else weighted
    (pyMin score (lit 1),
      reasons ++ (if relationLookup then ["verified foreign-key lookup path"] else []) ++
        (if eq typeScore (lit 1) then ["type match"] else []) ++
        if source.role = target.role then ["role match"] else [])

end Lookup

/-! ## What a lookup key and a safe contract say -/

section Facts

variable {S : Type} [ScoreArith S] {T : TextHost} {automatic : Bool}
  {source target : FieldDescriptor} {targetSchema : SchemaDescriptor} {name : String}

/-- A lookup key is declared by the target's relation with an acceptable type. -/
theorem foreignKeyLookupKeyWith_eq_some
    (h : foreignKeyLookupKeyWith S T automatic source target targetSchema = some name) :
    source.sensitivity.isSealed = false ∧ source.role = .naturalKey ∧ target.role = .foreignKey ∧
      ∃ relation key, targetSchema.relationForSourceField target.id = some relation ∧
        key ∈ relation.lookupKeys ∧ key.name = name ∧
        lookupTypeAccepted automatic source key = true := by
  unfold foreignKeyLookupKeyWith at h
  by_cases hsealed : source.sensitivity.isSealed = true
  · rw [if_pos hsealed] at h
    cases h
  rw [if_neg hsealed] at h
  by_cases hroles : source.role ≠ .naturalKey ∨ target.role ≠ .foreignKey
  · rw [if_pos hroles] at h
    cases h
  rw [if_neg hroles] at h
  push Not at hroles
  cases hrelation : targetSchema.relationForSourceField target.id with
  | none =>
      rw [hrelation] at h
      cases h
  | some relation =>
      rw [hrelation] at h
      dsimp only at h
      refine ⟨by simpa using hsealed, hroles.1, hroles.2, relation, ?_⟩
      split at h
      · cases h
      · rename_i best rest hsorted
        have hbest := (sortedReverse_perm (S := S) (scoredLess S) _).mem_iff.1
          (hsorted ▸ List.mem_cons_self : best ∈ _)
        obtain ⟨key, hkey, rfl⟩ := List.mem_map.1 hbest
        obtain ⟨hmem, htype⟩ := List.mem_filter.1 hkey
        split at h
        · cases h
        · exact ⟨key, rfl, hmem, Option.some.inj h, htype⟩

theorem automaticMappingContractSafe_iff :
    automaticMappingContractSafe S T source target targetSchema = true ↔
      source.sensitivity = target.sensitivity ∧ (source.nullable = true → target.nullable = true) ∧
        ((foreignKeyLookupKey S T source target targetSchema).isSome = true ∨
          automaticCopyTypeSafe source.dataType target.dataType = true ∧
            roleCompatibleForAutomatic source.role target.role = true) := by
  unfold automaticMappingContractSafe
  by_cases hsensitivity : source.sensitivity = target.sensitivity
  · cases hsource : source.nullable <;> cases htarget : target.nullable <;>
      cases hlookup : (foreignKeyLookupKey S T source target targetSchema).isSome <;>
      simp [hsensitivity]
  · simp [hsensitivity]

end Facts

end Polymorph
