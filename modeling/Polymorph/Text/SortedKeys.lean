import Polymorph.Text.JsonNumbers
import Polymorph.Text.Loading

/-!
# Sorted keys

`sort_keys` reorders the members of every object. It keeps every predicate that looks only at the
leaves of a value, and sorting a second time changes nothing.
-/

set_option autoImplicit false

namespace JsonText

/-! ## Predicates on the leaves -/

/-- The predicate holds of a container when it holds of every value in it. -/
structure Leafwise (p : Json → Bool) : Prop where
  arr : ∀ items, p (.arr items) = items.all p
  obj : ∀ members, p (.obj members) = members.all fun m => p m.2

mutual

theorem Leafwise.sortKeys {p : Json → Bool} (h : Leafwise p) : ∀ j : Json, p (sortKeys j) = p j
  | .null => rfl
  | .bool _ => rfl
  | .int _ => rfl
  | .real _ => rfl
  | .constant _ => rfl
  | .str _ => rfl
  | .arr items => by
      rw [JsonText.sortKeys, h.arr, h.arr]
      exact h.sortItems items
  | .obj members => by
      rw [JsonText.sortKeys, h.obj, h.obj, all_perm (sortMembers_perm _)]
      exact h.sortValues members

theorem Leafwise.sortItems {p : Json → Bool} (h : Leafwise p) : ∀ items : List Json,
    (sortItems items).all p = items.all p
  | [] => rfl
  | x :: xs => by
      rw [JsonText.sortItems, List.all_cons, List.all_cons, h.sortKeys x,
        h.sortItems xs]

theorem Leafwise.sortValues {p : Json → Bool} (h : Leafwise p) : ∀ ms : List (String × Json),
    ((sortValues ms).all fun m => p m.2) = ms.all fun m => p m.2
  | [] => rfl
  | (_, v) :: ms => by
      rw [JsonText.sortValues, List.all_cons, List.all_cons, h.sortKeys v,
        h.sortValues ms]

end

theorem leafwise_readable : Leafwise readable where
  arr items := by
    rw [readable]
    induction items with
    | nil => rfl
    | cons x xs ih => rw [readableItems, ih, List.all_cons]
  obj members := by
    rw [readable]
    induction members with
    | nil => rfl
    | cons m ms ih => rw [readableMembers, ih, List.all_cons]

theorem leafwise_shortIntegers : Leafwise shortIntegers where
  arr items := by
    rw [shortIntegers]
    induction items with
    | nil => rfl
    | cons x xs ih => rw [shortItems, ih, List.all_cons]
  obj members := by
    rw [shortIntegers]
    induction members with
    | nil => rfl
    | cons m ms ih => rw [shortMembers, ih, List.all_cons]

/-! ## Sorting twice -/

theorem sortValues_eq_map (ms : List (String × Json)) :
    sortValues ms = ms.map fun m => (m.1, sortKeys m.2) := by
  induction ms with
  | nil => rfl
  | cons m ms ih => rw [sortValues, ih, List.map_cons]

theorem sortItems_eq_map (items : List Json) : sortItems items = items.map sortKeys := by
  induction items with
  | nil => rfl
  | cons x xs ih => rw [sortItems, ih, List.map_cons]

/-- Sorting looks at the keys only. -/
theorem sortValues_sortMembers (ms : List (String × Json)) :
    sortValues (sortMembers ms) = sortMembers (sortValues ms) := by
  rw [sortValues_eq_map, sortValues_eq_map]
  exact List.map_insertionSort _ _ _ _ fun _ _ _ _ => Iff.rfl

theorem sortMembers_sortMembers (ms : List (String × Json)) :
    sortMembers (sortMembers ms) = sortMembers ms :=
  (List.pairwise_insertionSort _ ms).insertionSort_eq

mutual

theorem sortKeys_sortKeys : ∀ j : Json, sortKeys (sortKeys j) = sortKeys j
  | .null => rfl
  | .bool _ => rfl
  | .int _ => rfl
  | .real _ => rfl
  | .constant _ => rfl
  | .str _ => rfl
  | .arr items => by rw [sortKeys, sortKeys, sortItems_sortItems items]
  | .obj members => by
      rw [sortKeys, sortKeys, sortValues_sortMembers, sortMembers_sortMembers,
        sortValues_sortValues members]

theorem sortItems_sortItems : ∀ items : List Json, sortItems (sortItems items) = sortItems items
  | [] => rfl
  | x :: xs => by rw [sortItems, sortItems, sortKeys_sortKeys x, sortItems_sortItems xs]

theorem sortValues_sortValues : ∀ ms : List (String × Json),
    sortValues (sortValues ms) = sortValues ms
  | [] => rfl
  | (_, v) :: ms => by
      rw [sortValues, sortValues, sortKeys_sortKeys v, sortValues_sortValues ms]

end

end JsonText
