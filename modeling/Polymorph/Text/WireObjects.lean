import Polymorph.Text.JsonRoundTrip

/-!
# Objects on the wire

Wire forms are objects without repeated keys and without real numbers. Their canonical text
determines them up to the order of keys, and so determines the value under each key.
-/

set_option autoImplicit false

namespace Polymorph

open JsonText

/-- A wire value both loaders accept. -/
def IsWire (j : Json) : Prop := integral j = true ∧ strict j = true

theorem isWire_str (s : String) : IsWire (.str s) := ⟨rfl, rfl⟩

theorem isWire_int (z : Int) : IsWire (.int z) := ⟨rfl, rfl⟩

theorem isWire_arr {items : List Json} (h : ∀ j ∈ items, IsWire j) : IsWire (.arr items) := by
  induction items with
  | nil => exact ⟨rfl, rfl⟩
  | cons x xs ih =>
      obtain ⟨hx, hx'⟩ := h x List.mem_cons_self
      obtain ⟨hxs, hxs'⟩ := ih fun j hj => h j (List.mem_cons_of_mem _ hj)
      refine ⟨?_, ?_⟩
      · rw [integral, integralItems, hx]
        exact hxs
      · rw [strict, strictItems, hx']
        exact hxs'

theorem isWire_obj {members : List (String × Json)} (hkeys : (members.map Prod.fst).Nodup)
    (h : ∀ p ∈ members, IsWire p.2) : IsWire (.obj members) := by
  refine ⟨?_, ?_⟩
  · rw [integral, integralMembers_eq_all, List.all_eq_true]
    exact fun p hp => (h p hp).1
  · rw [strict, strictMembers_eq_all, Bool.and_eq_true, List.all_eq_true]
    exact ⟨decide_eq_true hkeys, fun p hp => (h p hp).2⟩

/-! ## What the canonical text determines -/

/-- Two objects that differ only in the order of keys give the same value for a key. -/
theorem lookup_eq {ms ms' : List (String × Json)} (h : (ms.map Prod.fst).Nodup)
    (h' : (ms'.map Prod.fst).Nodup) (heq : sortKeys (.obj ms) = sortKeys (.obj ms'))
    (key : String) : (dictGet key ms).map sortKeys = (dictGet key ms').map sortKeys := by
  rw [sortKeys, sortKeys] at heq
  have hget := dictGet_sortMembers (decide_eq_true h) key
  have hget' := dictGet_sortMembers (decide_eq_true h') key
  rw [← hget, ← hget', Json.obj.inj heq]

/-- A member of two objects that differ only in the order of keys. -/
theorem member_eq {ms ms' : List (String × Json)} (h : (ms.map Prod.fst).Nodup)
    (h' : (ms'.map Prod.fst).Nodup) (heq : sortKeys (.obj ms) = sortKeys (.obj ms'))
    {key : String} {v v' : Json} (hv : (key, v) ∈ ms) (hv' : (key, v') ∈ ms') :
    sortKeys v = sortKeys v' := by
  have hget := lookup_eq h h' heq key
  rw [(dictGet_eq_some h).2 hv, (dictGet_eq_some h').2 hv'] at hget
  exact Option.some.inj hget

theorem text_eq {ms ms' : List (String × Json)} (h : (ms.map Prod.fst).Nodup)
    (h' : (ms'.map Prod.fst).Nodup) (heq : sortKeys (.obj ms) = sortKeys (.obj ms'))
    {key s s' : String} (hs : (key, .str s) ∈ ms) (hs' : (key, .str s') ∈ ms') : s = s' :=
  Json.str.inj (member_eq h h' heq hs hs')

end Polymorph
