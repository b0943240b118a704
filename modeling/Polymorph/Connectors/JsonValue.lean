import Polymorph.Text.JsonDocument
import Polymorph.Transport.PayloadRoundTrip

/-!
# Values of a JSON file

`_validate_value` goes over a value with a stack of its own. It accepts the values that JSON can
represent whose containers are within the limits. A list stands for a tuple when a value is read
back (`asLists`).
-/

set_option autoImplicit false

namespace Polymorph

open JsonText PayloadCodec

/-- The members of a dictionary. -/
abbrev Members := List (PyValue × PyValue)

namespace JsonFileConnector

/-! ## Shapes -/

mutual

/-- The containers of a value. -/
def containers : PyValue → Shape
  | .list items => .node (itemContainers items)
  | .tuple items => .node (itemContainers items)
  | .dict members => .node (memberContainers members)
  | _ => .leaf

def itemContainers : List PyValue → List Shape
  | [] => []
  | x :: xs => containers x :: itemContainers xs

def memberContainers : Members → List Shape
  | [] => []
  | (_, v) :: rest => containers v :: memberContainers rest

end

theorem itemContainers_eq_map (xs : List PyValue) : itemContainers xs = xs.map containers := by
  induction xs with
  | nil => rfl
  | cons x xs ih => rw [itemContainers, ih, List.map_cons]

theorem memberContainers_eq_map (ms : Members) :
    memberContainers ms = (ms.map Prod.snd).map containers := by
  induction ms with
  | nil => rfl
  | cons m ms ih =>
      obtain ⟨k, v⟩ := m
      rw [memberContainers, ih, List.map_cons, List.map_cons]

/-! ## The validator -/

/-- A key that is a text. -/
def textKey? : PyValue → Option PyText
  | .str t => some t
  | _ => none

/-- `all(isinstance(key, str) for key in current)` -/
def hasTextKeys (members : Members) : Bool := members.all fun m => (textKey? m.1).isSome

/-- The checks that `_validate_value` makes of a value before its limits, and the children of a
container. -/
def childrenOf : PyValue → Except Exn (Option (List PyValue))
  | .none => .ok none
  | .bool _ => .ok none
  | .int _ => .ok none
  | .str _ => .ok none
  | .float x =>
      if x.isFinite = true then .ok none
      else .error (.valueError "JSON value contains a non-finite number")
  | .list items => .ok (some items)
  | .tuple items => .ok (some items)
  | .dict members =>
      if hasTextKeys members = true then .ok (some (members.map Prod.snd))
      else .error (.valueError "JSON object keys must be strings")
  | _ => .error (.valueError "JSON value contains a type that JSON cannot represent")

/-- The children of a container have its shape. -/
theorem containers_of_childrenOf {v : PyValue} {children : List PyValue}
    (h : childrenOf v = .ok (some children)) : containers v = .node (children.map containers) := by
  cases v with
  | list items =>
      cases h
      rw [containers, itemContainers_eq_map]
  | tuple items =>
      cases h
      rw [containers, itemContainers_eq_map]
  | dict members =>
      rw [childrenOf] at h
      split at h
      · cases h
        rw [containers, memberContainers_eq_map]
      · cases h
  | float x =>
      rw [childrenOf] at h
      split at h <;> cases h
  | _ => cases h

/-- The other values are leaves. -/
theorem containers_of_leaf {v : PyValue} (h : childrenOf v = .ok none) : containers v = .leaf := by
  cases v with
  | list items => cases h
  | tuple items => cases h
  | dict members =>
      rw [childrenOf] at h
      split at h <;> cases h
  | _ => rfl

theorem itemCountAll_eq_sum (ts : List Shape) :
    Shape.itemCountAll ts = (ts.map fun t => t.itemCount + 1).sum := by
  induction ts with
  | nil => rfl
  | cons t ts ih =>
      rw [Shape.itemCountAll, ih, List.map_cons, List.sum_cons]
      omega

/-- The items below the values on a stack, with the values themselves. -/
def stackItems (stack : List (PyValue × Nat)) : Nat :=
  (stack.map fun p => (containers p.1).itemCount + 1).sum

/-- The stack after a container has been taken from it. -/
def pushChildren (children : List PyValue) (depth : Nat) (stack : List (PyValue × Nat)) :
    List (PyValue × Nat) :=
  (children.map fun child => (child, depth)).reverse ++ stack

theorem stackItems_pushChildren (children : List PyValue) (depth : Nat)
    (stack : List (PyValue × Nat)) : stackItems (pushChildren children depth stack) =
      Shape.itemCountAll (children.map containers) + stackItems stack := by
  rw [stackItems, pushChildren, List.map_append, List.sum_append, List.map_reverse,
    List.sum_reverse, itemCountAll_eq_sum, List.map_map, List.map_map]
  rfl

/-- A nesting beyond the limit. -/
def tooDeep (maxDepth : Nat) : Exn :=
  .valueError ("JSON source exceeds the configured nesting depth of " ++ toString maxDepth)

/-- More items than the limit. -/
def tooManyItems (maxItems : Nat) : Exn :=
  .valueError ("JSON source exceeds the configured item limit of " ++ toString maxItems ++
    " members and array items")

/-- The loop of `_validate_value`. The values are trees, so no container is active twice, and the
marks for leaving a container do nothing. -/
def validateStack (maxDepth maxItems : Nat) (stack : List (PyValue × Nat)) (itemCount : Nat) :
    Except Exn Unit :=
  match stack with
  | [] => .ok ()
  | (current, parentDepth) :: stack =>
      match _hchildren : childrenOf current with
      | .error e => .error e
      | .ok none => validateStack maxDepth maxItems stack itemCount
      | .ok (some children) =>
          if maxDepth < parentDepth + 1 then .error (tooDeep maxDepth)
          else if maxItems < itemCount + children.length then .error (tooManyItems maxItems)
          else validateStack maxDepth maxItems (pushChildren children (parentDepth + 1) stack)
            (itemCount + children.length)
termination_by stackItems stack
decreasing_by
  · rw [stackItems, stackItems, List.map_cons, List.sum_cons]
    omega
  · rw [stackItems_pushChildren, stackItems, stackItems, List.map_cons, List.sum_cons,
      containers_of_childrenOf _hchildren, Shape.itemCount]
    omega

/-- `_validate_value` -/
def validateValue (maxDepth maxItems : Nat) (value : PyValue) : Except Exn Unit :=
  validateStack maxDepth maxItems [(value, 0)] 0

/-! ## What the validator accepts -/

mutual

/-- JSON can represent the value. -/
def representable : PyValue → Bool
  | .none => true
  | .bool _ => true
  | .int _ => true
  | .str _ => true
  | .float x => x.isFinite
  | .list items => representableItems items
  | .tuple items => representableItems items
  | .dict members => hasTextKeys members && representableMembers members
  | _ => false

def representableItems : List PyValue → Bool
  | [] => true
  | x :: xs => representable x && representableItems xs

def representableMembers : Members → Bool
  | [] => true
  | (_, v) :: rest => representable v && representableMembers rest

end

theorem representableItems_iff (xs : List PyValue) :
    representableItems xs = true ↔ ∀ x ∈ xs, representable x = true := by
  induction xs with
  | nil => simp [representableItems]
  | cons x xs ih => rw [representableItems, Bool.and_eq_true, ih, List.forall_mem_cons]

theorem representableMembers_iff (ms : Members) :
    representableMembers ms = true ↔ ∀ v ∈ ms.map Prod.snd, representable v = true := by
  induction ms with
  | nil => simp [representableMembers]
  | cons m ms ih =>
      obtain ⟨k, v⟩ := m
      rw [representableMembers, Bool.and_eq_true, ih, List.map_cons, List.forall_mem_cons]

/-- A value is representable when it passes the checks and its children are. -/
theorem representable_iff (v : PyValue) : representable v = true ↔
    ∃ children, childrenOf v = .ok children ∧
      ∀ child ∈ children.getD [], representable child = true := by
  cases v with
  | none => exact iff_of_true rfl ⟨_, rfl, fun _ h => nomatch h⟩
  | bool b => exact iff_of_true rfl ⟨_, rfl, fun _ h => nomatch h⟩
  | int z => exact iff_of_true rfl ⟨_, rfl, fun _ h => nomatch h⟩
  | str t => exact iff_of_true rfl ⟨_, rfl, fun _ h => nomatch h⟩
  | float x =>
      rw [representable, childrenOf]
      split
      case isTrue hfinite => exact iff_of_true hfinite ⟨_, rfl, fun _ h => nomatch h⟩
      case isFalse hinfinite => exact iff_of_false hinfinite fun ⟨_, h, _⟩ => nomatch h
  | list items =>
      rw [representable, representableItems_iff]
      exact ⟨fun h => ⟨_, rfl, h⟩, fun ⟨_, h, hall⟩ => by cases h; exact hall⟩
  | tuple items =>
      rw [representable, representableItems_iff]
      exact ⟨fun h => ⟨_, rfl, h⟩, fun ⟨_, h, hall⟩ => by cases h; exact hall⟩
  | dict members =>
      rw [representable, childrenOf, Bool.and_eq_true, representableMembers_iff]
      split
      case isTrue hkeys =>
        exact ⟨fun h => ⟨_, rfl, h.2⟩, fun ⟨_, h, hall⟩ => by cases h; exact ⟨hkeys, hall⟩⟩
      case isFalse hkeys =>
        exact iff_of_false (fun h => hkeys h.1) fun ⟨_, h, _⟩ => nomatch h
  | decimal d => exact iff_of_false Bool.false_ne_true fun ⟨_, h, _⟩ => nomatch h
  | bytes bs => exact iff_of_false Bool.false_ne_true fun ⟨_, h, _⟩ => nomatch h
  | date d => exact iff_of_false Bool.false_ne_true fun ⟨_, h, _⟩ => nomatch h
  | datetime d => exact iff_of_false Bool.false_ne_true fun ⟨_, h, _⟩ => nomatch h
  | uuid n => exact iff_of_false Bool.false_ne_true fun ⟨_, h, _⟩ => nomatch h
  | object description => exact iff_of_false Bool.false_ne_true fun ⟨_, h, _⟩ => nomatch h

theorem nestingAll_le_iff (ts : List Shape) (n : Nat) :
    Shape.nestingAll ts ≤ n ↔ ∀ t ∈ ts, t.nesting ≤ n := by
  induction ts with
  | nil => simp [Shape.nestingAll]
  | cons t ts ih => rw [Shape.nestingAll, max_le_iff, ih, List.forall_mem_cons]

/-- The values on a stack can be represented, below their depths. -/
def StackFits (maxDepth : Nat) (stack : List (PyValue × Nat)) : Prop :=
  ∀ p ∈ stack, representable p.1 = true ∧ p.2 + (containers p.1).nesting ≤ maxDepth

theorem stackFits_pushChildren {maxDepth depth : Nat} {children : List PyValue}
    {stack : List (PyValue × Nat)} (hdepth : depth ≤ maxDepth) :
    StackFits maxDepth (pushChildren children depth stack) ↔
      ((∀ child ∈ children, representable child = true) ∧
        depth + Shape.nestingAll (children.map containers) ≤ maxDepth) ∧
      StackFits maxDepth stack := by
  have hnesting := nestingAll_le_iff (children.map containers) (maxDepth - depth)
  rw [List.forall_mem_map] at hnesting
  rw [StackFits, pushChildren, List.forall_mem_append]
  refine and_congr_left' ?_
  constructor
  · intro h
    have h := fun child hchild => h (child, depth)
      (List.mem_reverse.mpr (List.mem_map_of_mem hchild))
    refine ⟨fun child hchild => (h child hchild).1, ?_⟩
    have hall := hnesting.mpr fun child hchild => by
      have hfits : depth + (containers child).nesting ≤ maxDepth := (h child hchild).2
      omega
    omega
  · rintro ⟨hchildren, hle⟩ p hp
    obtain ⟨child, hchild, rfl⟩ := List.mem_map.mp (List.mem_reverse.mp hp)
    have hfits := hnesting.mp (by omega) child hchild
    refine ⟨hchildren child hchild, ?_⟩
    change depth + (containers child).nesting ≤ maxDepth
    omega

/-- The items in the containers on a stack. -/
def stackCount (stack : List (PyValue × Nat)) : Nat :=
  (stack.map fun p => (containers p.1).itemCount).sum

theorem stackCount_cons (v : PyValue) (depth : Nat) (stack : List (PyValue × Nat)) :
    stackCount ((v, depth) :: stack) = (containers v).itemCount + stackCount stack := by
  rw [stackCount, List.map_cons, List.sum_cons, stackCount]

theorem stackCount_pushChildren (children : List PyValue) (depth : Nat)
    (stack : List (PyValue × Nat)) :
    children.length + stackCount (pushChildren children depth stack) =
      Shape.itemCountAll (children.map containers) + stackCount stack := by
  have hsum : ∀ children : List PyValue, (children.map fun v => (containers v).itemCount + 1).sum =
      children.length + (children.map fun v => (containers v).itemCount).sum := by
    intro children
    induction children with
    | nil => rfl
    | cons v children ih =>
        rw [List.map_cons, List.sum_cons, ih, List.map_cons, List.sum_cons, List.length_cons]
        omega
  rw [stackCount, pushChildren, List.map_append, List.sum_append, List.map_reverse,
    List.sum_reverse, itemCountAll_eq_sum, List.map_map, List.map_map]
  change children.length + ((children.map fun v => (containers v).itemCount).sum + _) =
    (children.map fun v => (containers v).itemCount + 1).sum + _
  rw [hsum, stackCount]
  omega

/-- The loop accepts a stack whose values can be represented within the limits. -/
theorem validateStack_eq_ok_iff (maxDepth maxItems : Nat) (stack : List (PyValue × Nat))
    (itemCount : Nat) (hdepth : ∀ p ∈ stack, p.2 ≤ maxDepth) (hcount : itemCount ≤ maxItems) :
    validateStack maxDepth maxItems stack itemCount = .ok () ↔
      StackFits maxDepth stack ∧ itemCount + stackCount stack ≤ maxItems := by
  fun_induction validateStack maxDepth maxItems stack itemCount with
  | case1 itemCount =>
      exact iff_of_true rfl ⟨fun _ h => (nomatch h), hcount⟩
  | case2 itemCount current parentDepth stack e herror =>
      refine iff_of_false (fun h => nomatch h) ?_
      rintro ⟨hfits, -⟩
      obtain ⟨children, hchildren, -⟩ :=
        (representable_iff current).mp (hfits _ List.mem_cons_self).1
      rw [herror] at hchildren
      exact nomatch hchildren
  | case3 itemCount current parentDepth stack hleaf ih =>
      have hrest := List.forall_mem_cons.mp hdepth
      have hshape := containers_of_leaf hleaf
      have hcurrent : representable current = true :=
        (representable_iff current).mpr ⟨_, hleaf, fun _ h => nomatch h⟩
      rw [ih hrest.2 hcount, stackCount_cons, StackFits, StackFits, List.forall_mem_cons, hshape,
        Shape.itemCount, Nat.zero_add]
      refine and_congr_left fun _ => ?_
      exact (and_iff_right ⟨hcurrent, hrest.1⟩).symm
  | case4 itemCount current parentDepth stack children hchildren hexceeded =>
      refine iff_of_false (fun h => nomatch h) ?_
      rintro ⟨hfits, -⟩
      have hnesting := (hfits _ List.mem_cons_self).2
      rw [containers_of_childrenOf hchildren, Shape.nesting] at hnesting
      omega
  | case5 itemCount current parentDepth stack children hchildren hdepthOk hexceeded =>
      refine iff_of_false (fun h => nomatch h) ?_
      rintro ⟨-, hitems⟩
      have hpush := stackCount_pushChildren children (parentDepth + 1) stack
      rw [stackCount_cons, containers_of_childrenOf hchildren, Shape.itemCount] at hitems
      omega
  | case6 itemCount current parentDepth stack children hchildren hdepthOk hitemsOk ih =>
      have hrest := List.forall_mem_cons.mp hdepth
      have hshape := containers_of_childrenOf hchildren
      have hpush := stackCount_pushChildren children (parentDepth + 1) stack
      have hdepths : ∀ p ∈ pushChildren children (parentDepth + 1) stack, p.2 ≤ maxDepth := by
        rw [pushChildren, List.forall_mem_append]
        refine ⟨?_, hrest.2⟩
        intro p hp
        obtain ⟨child, -, rfl⟩ := List.mem_map.mp (List.mem_reverse.mp hp)
        exact Nat.le_of_not_lt hdepthOk
      have hcurrent : representable current = true ↔
          ∀ child ∈ children, representable child = true := by
        rw [representable_iff, hchildren]
        exact ⟨fun ⟨_, h, hall⟩ => by cases h; exact hall, fun h => ⟨_, rfl, h⟩⟩
      rw [ih hdepths (Nat.le_of_not_lt hitemsOk),
        stackFits_pushChildren (Nat.le_of_not_lt hdepthOk), StackFits, StackFits, List.forall_mem_cons, stackCount_cons, hcurrent, hshape,
        Shape.nesting, Shape.itemCount]
      refine and_congr (and_congr_left' (and_congr_right fun _ => ?_)) ?_
      · omega
      · omega

/-- **The validator** accepts exactly the values that JSON can represent whose containers are
within the limits. -/
theorem validateValue_eq_ok_iff (maxDepth maxItems : Nat) (value : PyValue) :
    validateValue maxDepth maxItems value = .ok () ↔ representable value = true ∧
      (containers value).nesting ≤ maxDepth ∧ (containers value).itemCount ≤ maxItems := by
  rw [validateValue, validateStack_eq_ok_iff maxDepth maxItems _ _ (by simp) (Nat.zero_le _)]
  simp only [StackFits, stackCount, List.forall_mem_singleton, List.map_cons, List.map_nil,
    List.sum_singleton, Nat.zero_add, and_assoc]

/-! ## Tuples as lists -/

mutual

/-- The value with a list for every tuple. -/
def asLists : PyValue → PyValue
  | .list items => .list (itemsAsLists items)
  | .tuple items => .list (itemsAsLists items)
  | .dict members => .dict (membersAsLists members)
  | v => v

def itemsAsLists : List PyValue → List PyValue
  | [] => []
  | x :: xs => asLists x :: itemsAsLists xs

def membersAsLists : Members → Members
  | [] => []
  | (k, v) :: rest => (k, asLists v) :: membersAsLists rest

end

mutual

/-- No dictionary has a text twice among its keys, as no dictionary can. -/
def distinctTexts : PyValue → Bool
  | .list items => distinctItems items
  | .tuple items => distinctItems items
  | .dict members =>
      decide (members.filterMap fun m => textKey? m.1).Nodup && distinctMembers members
  | _ => true

def distinctItems : List PyValue → Bool
  | [] => true
  | x :: xs => distinctTexts x && distinctItems xs

def distinctMembers : Members → Bool
  | [] => true
  | (_, v) :: rest => distinctTexts v && distinctMembers rest

end

theorem itemsAsLists_eq_map (xs : List PyValue) : itemsAsLists xs = xs.map asLists := by
  induction xs with
  | nil => rfl
  | cons x xs ih => rw [itemsAsLists, ih, List.map_cons]

mutual

/-- A list is written like a tuple. -/
theorem jsonOf_asLists (H : Host) : ∀ v : PyValue, jsonOf H (asLists v) = jsonOf H v
  | .list items => by rw [asLists, jsonOf, jsonOf, itemsOf_asLists H items]
  | .tuple items => by rw [asLists, jsonOf, jsonOf, itemsOf_asLists H items]
  | .dict members => by rw [asLists, jsonOf, jsonOf, membersOf_asLists H members]
  | .none => rfl
  | .bool _ => rfl
  | .int _ => rfl
  | .float _ => rfl
  | .decimal _ => rfl
  | .str _ => rfl
  | .bytes _ => rfl
  | .date _ => rfl
  | .datetime _ => rfl
  | .uuid _ => rfl
  | .object _ => rfl

theorem itemsOf_asLists (H : Host) : ∀ xs : List PyValue, itemsOf H (itemsAsLists xs) = itemsOf H xs
  | [] => rfl
  | x :: xs => by
      rw [itemsAsLists, itemsOf, itemsOf, jsonOf_asLists H x, itemsOf_asLists H xs]

theorem membersOf_asLists (H : Host) : ∀ ms : Members,
    membersOf H (membersAsLists ms) = membersOf H ms
  | [] => rfl
  | (k, v) :: ms => by
      rw [membersAsLists, membersOf, membersOf, jsonOf_asLists H v, membersOf_asLists H ms]

end

mutual

theorem encodable_asLists : ∀ v : PyValue, encodable (asLists v) = encodable v
  | .list items => by rw [asLists, encodable, encodable, encodableItems_asLists items]
  | .tuple items => by rw [asLists, encodable, encodable, encodableItems_asLists items]
  | .dict members => by rw [asLists, encodable, encodable, encodableMembers_asLists members]
  | .none => rfl
  | .bool _ => rfl
  | .int _ => rfl
  | .float _ => rfl
  | .decimal _ => rfl
  | .str _ => rfl
  | .bytes _ => rfl
  | .date _ => rfl
  | .datetime _ => rfl
  | .uuid _ => rfl
  | .object _ => rfl

theorem encodableItems_asLists : ∀ xs : List PyValue,
    encodableItems (itemsAsLists xs) = encodableItems xs
  | [] => rfl
  | x :: xs => by
      rw [itemsAsLists, encodableItems, encodableItems, encodable_asLists x,
        encodableItems_asLists xs]

theorem encodableMembers_asLists : ∀ ms : Members,
    encodableMembers (membersAsLists ms) = encodableMembers ms
  | [] => rfl
  | (k, v) :: ms => by
      rw [membersAsLists, encodableMembers, encodableMembers, encodable_asLists v,
        encodableMembers_asLists ms]

end

mutual

theorem containers_asLists : ∀ v : PyValue, containers (asLists v) = containers v
  | .list items => by rw [asLists, containers, containers, itemContainers_asLists items]
  | .tuple items => by rw [asLists, containers, containers, itemContainers_asLists items]
  | .dict members => by rw [asLists, containers, containers, memberContainers_asLists members]
  | .none => rfl
  | .bool _ => rfl
  | .int _ => rfl
  | .float _ => rfl
  | .decimal _ => rfl
  | .str _ => rfl
  | .bytes _ => rfl
  | .date _ => rfl
  | .datetime _ => rfl
  | .uuid _ => rfl
  | .object _ => rfl

theorem itemContainers_asLists : ∀ xs : List PyValue,
    itemContainers (itemsAsLists xs) = itemContainers xs
  | [] => rfl
  | x :: xs => by
      rw [itemsAsLists, itemContainers, itemContainers, containers_asLists x,
        itemContainers_asLists xs]

theorem memberContainers_asLists : ∀ ms : Members,
    memberContainers (membersAsLists ms) = memberContainers ms
  | [] => rfl
  | (k, v) :: ms => by
      rw [membersAsLists, memberContainers, memberContainers, containers_asLists v,
        memberContainers_asLists ms]

end

theorem keys_asLists (ms : Members) : (membersAsLists ms).map Prod.fst = ms.map Prod.fst := by
  induction ms with
  | nil => rfl
  | cons m ms ih =>
      obtain ⟨k, v⟩ := m
      rw [membersAsLists, List.map_cons, List.map_cons, ih]

theorem hasTextKeys_eq (ms : Members) :
    hasTextKeys ms = (ms.map Prod.fst).all fun k => (textKey? k).isSome := by
  rw [hasTextKeys, List.all_map]
  rfl

mutual

theorem representable_asLists : ∀ v : PyValue, representable (asLists v) = representable v
  | .list items => by rw [asLists, representable, representable, representableItems_asLists items]
  | .tuple items => by rw [asLists, representable, representable, representableItems_asLists items]
  | .dict members => by
      rw [asLists, representable, representable, representableMembers_asLists members,
        hasTextKeys_eq, hasTextKeys_eq, keys_asLists]
  | .none => rfl
  | .bool _ => rfl
  | .int _ => rfl
  | .float _ => rfl
  | .decimal _ => rfl
  | .str _ => rfl
  | .bytes _ => rfl
  | .date _ => rfl
  | .datetime _ => rfl
  | .uuid _ => rfl
  | .object _ => rfl

theorem representableItems_asLists : ∀ xs : List PyValue,
    representableItems (itemsAsLists xs) = representableItems xs
  | [] => rfl
  | x :: xs => by
      rw [itemsAsLists, representableItems, representableItems, representable_asLists x,
        representableItems_asLists xs]

theorem representableMembers_asLists : ∀ ms : Members,
    representableMembers (membersAsLists ms) = representableMembers ms
  | [] => rfl
  | (k, v) :: ms => by
      rw [membersAsLists, representableMembers, representableMembers, representable_asLists v,
        representableMembers_asLists ms]

end

/-- With texts as keys, all keys are texts. -/
theorem textKeys_of_hasTextKeys {ms : Members} (h : hasTextKeys ms = true) :
    textKeys ms = some (ms.filterMap fun m => textKey? m.1) := by
  induction ms with
  | nil => rfl
  | cons m ms ih =>
      obtain ⟨k, v⟩ := m
      rw [hasTextKeys, List.all_cons, Bool.and_eq_true] at h
      cases k with
      | str t =>
          rw [textKeys, ih h.2]
          rfl
      | _ => exact absurd h.1 Bool.false_ne_true

mutual

/-- With lists for its tuples, a value that can be represented has the shape of JSON. -/
theorem jsonShaped_asLists : ∀ v : PyValue, representable v = true → distinctTexts v = true →
    jsonShaped (asLists v) = true
  | .list items, h, hdistinct => shapedItems_asLists items h hdistinct
  | .tuple items, h, hdistinct => shapedItems_asLists items h hdistinct
  | .dict members, h, hdistinct => by
      rw [representable, Bool.and_eq_true] at h
      rw [distinctTexts, Bool.and_eq_true, decide_eq_true_eq] at hdistinct
      have hkeys : hasTextKeys (membersAsLists members) = true := by
        rw [hasTextKeys_eq, keys_asLists, ← hasTextKeys_eq]
        exact h.1
      have hnodup : ((membersAsLists members).filterMap fun m => textKey? m.1).Nodup := by
        have hcomp : ∀ ms : Members, (ms.filterMap fun m => textKey? m.1) =
            (ms.map Prod.fst).filterMap textKey? := fun ms => by rw [List.filterMap_map]; rfl
        rw [hcomp, keys_asLists, ← hcomp]
        exact hdistinct.1
      rw [asLists, jsonShaped, textKeys_of_hasTextKeys hkeys, shapedMembers_asLists members h.2
        hdistinct.2, Bool.and_true]
      exact decide_eq_true hnodup
  | .none, _, _ => rfl
  | .bool _, _, _ => rfl
  | .int _, _, _ => rfl
  | .float _, _, _ => rfl
  | .str _, _, _ => rfl
  | .decimal _, h, _ => nomatch h
  | .bytes _, h, _ => nomatch h
  | .date _, h, _ => nomatch h
  | .datetime _, h, _ => nomatch h
  | .uuid _, h, _ => nomatch h
  | .object _, h, _ => nomatch h

theorem shapedItems_asLists : ∀ xs : List PyValue, representableItems xs = true →
    distinctItems xs = true → shapedItems (itemsAsLists xs) = true
  | [], _, _ => rfl
  | x :: xs, h, hdistinct => by
      rw [representableItems, Bool.and_eq_true] at h
      rw [distinctItems, Bool.and_eq_true] at hdistinct
      rw [itemsAsLists, shapedItems, jsonShaped_asLists x h.1 hdistinct.1,
        shapedItems_asLists xs h.2 hdistinct.2]
      rfl

theorem shapedMembers_asLists : ∀ ms : Members, representableMembers ms = true →
    distinctMembers ms = true → shapedMembers (membersAsLists ms) = true
  | [], _, _ => rfl
  | (k, v) :: ms, h, hdistinct => by
      rw [representableMembers, Bool.and_eq_true] at h
      rw [distinctMembers, Bool.and_eq_true] at hdistinct
      rw [membersAsLists, shapedMembers, jsonShaped_asLists v h.1 hdistinct.1,
        shapedMembers_asLists ms h.2 hdistinct.2]
      rfl

end

mutual

/-- A value that has the shape of JSON has no tuples. -/
theorem asLists_of_shaped : ∀ v : PyValue, jsonShaped v = true → asLists v = v
  | .list items, h => by rw [asLists, itemsAsLists_of_shaped items h]
  | .dict members, h => by
      rw [jsonShaped, Bool.and_eq_true] at h
      rw [asLists, membersAsLists_of_shaped members h.2]
  | .tuple _, h => nomatch h
  | .none, _ => rfl
  | .bool _, _ => rfl
  | .int _, _ => rfl
  | .float _, _ => rfl
  | .decimal _, _ => rfl
  | .str _, _ => rfl
  | .bytes _, _ => rfl
  | .date _, _ => rfl
  | .datetime _, _ => rfl
  | .uuid _, _ => rfl
  | .object _, _ => rfl

theorem itemsAsLists_of_shaped : ∀ xs : List PyValue, shapedItems xs = true → itemsAsLists xs = xs
  | [], _ => rfl
  | x :: xs, h => by
      rw [shapedItems, Bool.and_eq_true] at h
      rw [itemsAsLists, asLists_of_shaped x h.1, itemsAsLists_of_shaped xs h.2]

theorem membersAsLists_of_shaped : ∀ ms : Members, shapedMembers ms = true →
    membersAsLists ms = ms
  | [], _ => rfl
  | (k, v) :: ms, h => by
      rw [shapedMembers, Bool.and_eq_true] at h
      rw [membersAsLists, asLists_of_shaped v h.1, membersAsLists_of_shaped ms h.2]

end

theorem filterMap_textKey? : ∀ {ms : Members} {keys : List PyText}, textKeys ms = some keys →
    (ms.filterMap fun m => textKey? m.1) = keys
  | [], _, h => by
      cases h
      rfl
  | (_, _) :: _, _, h => by
      obtain ⟨t, rest, rfl, hrest⟩ := textKeys_cons h
      rw [textKeys, hrest] at h
      cases h
      exact congrArg (t :: ·) (filterMap_textKey? hrest)

mutual

/-- What has the shape of JSON has distinct keys. -/
theorem distinctTexts_of_shaped : ∀ v : PyValue, jsonShaped v = true → distinctTexts v = true
  | .list items, h => distinctItems_of_shaped items h
  | .dict members, h => by
      rw [jsonShaped, Bool.and_eq_true] at h
      rw [distinctTexts, distinctMembers_of_shaped members h.2, Bool.and_true]
      cases htexts : textKeys members with
      | none =>
          rw [htexts] at h
          exact absurd h.1 Bool.false_ne_true
      | some keys =>
          rw [htexts] at h
          rw [filterMap_textKey? htexts]
          exact h.1
  | .tuple _, h => nomatch h
  | .none, _ => rfl
  | .bool _, _ => rfl
  | .int _, _ => rfl
  | .float _, _ => rfl
  | .decimal _, _ => rfl
  | .str _, _ => rfl
  | .bytes _, _ => rfl
  | .date _, _ => rfl
  | .datetime _, _ => rfl
  | .uuid _, _ => rfl
  | .object _, _ => rfl

theorem distinctItems_of_shaped : ∀ xs : List PyValue, shapedItems xs = true →
    distinctItems xs = true
  | [], _ => rfl
  | x :: xs, h => by
      rw [shapedItems, Bool.and_eq_true] at h
      rw [distinctItems, distinctTexts_of_shaped x h.1, distinctItems_of_shaped xs h.2]
      rfl

theorem distinctMembers_of_shaped : ∀ ms : Members, shapedMembers ms = true →
    distinctMembers ms = true
  | [], _ => rfl
  | (k, v) :: ms, h => by
      rw [shapedMembers, Bool.and_eq_true] at h
      rw [distinctMembers, distinctTexts_of_shaped v h.1, distinctMembers_of_shaped ms h.2]
      rfl

end

/-! ## The JSON value of a value -/

mutual

/-- The JSON value has the containers of the value, no constants, and no longer integers than the
interpreter writes. -/
theorem shapeOf_jsonOf {H : Host} : ∀ (v : PyValue) (j : Json), jsonOf H v = .ok j →
    shapeOf j = containers v ∧ constantFree j = true ∧ shortIntegers j = true
  | .none => by
      intro j h
      cases h
      exact ⟨rfl, rfl, rfl⟩
  | .bool _ => by
      intro j h
      cases h
      exact ⟨rfl, rfl, rfl⟩
  | .int z => by
      intro j h
      obtain ⟨hz, rfl⟩ := jsonOf_int h
      rw [intJson] at hz
      split at hz
      case isTrue hshort =>
        refine ⟨rfl, rfl, ?_⟩
        rw [shortIntegers, decide_eq_true_eq]
        exact hshort
      case isFalse => cases hz
  | .float x => by
      intro j h
      obtain ⟨_, rfl⟩ := jsonOf_float h
      exact ⟨rfl, rfl, rfl⟩
  | .str _ => by
      intro j h
      cases h
      exact ⟨rfl, rfl, rfl⟩
  | .list items => by
      intro j h
      rw [jsonOf] at h
      obtain ⟨js, hjs, h⟩ := bind_eq_ok h
      cases h
      obtain ⟨hshapes, hfree, hshort⟩ := itemShapes_itemsOf items js hjs
      rw [shapeOf, hshapes, containers]
      exact ⟨rfl, hfree, hshort⟩
  | .tuple items => by
      intro j h
      rw [jsonOf] at h
      obtain ⟨js, hjs, h⟩ := bind_eq_ok h
      cases h
      obtain ⟨hshapes, hfree, hshort⟩ := itemShapes_itemsOf items js hjs
      rw [shapeOf, hshapes, containers]
      exact ⟨rfl, hfree, hshort⟩
  | .dict members => by
      intro j h
      rw [jsonOf] at h
      obtain ⟨js, hjs, h⟩ := bind_eq_ok h
      cases h
      obtain ⟨hshapes, hfree, hshort⟩ := memberShapes_membersOf members js hjs
      rw [shapeOf, hshapes, containers]
      exact ⟨rfl, hfree, hshort⟩
  | .decimal _ => fun _ h => nomatch h
  | .bytes _ => fun _ h => nomatch h
  | .date _ => fun _ h => nomatch h
  | .datetime _ => fun _ h => nomatch h
  | .uuid _ => fun _ h => nomatch h
  | .object _ => fun _ h => nomatch h

theorem itemShapes_itemsOf {H : Host} : ∀ (xs : List PyValue) (js : List Json),
    itemsOf H xs = .ok js → itemShapes js = itemContainers xs ∧ constantFreeItems js = true ∧
      shortItems js = true
  | [] => by
      intro js h
      cases h
      exact ⟨rfl, rfl, rfl⟩
  | x :: xs => by
      intro js h
      rw [itemsOf] at h
      obtain ⟨j, hj, h⟩ := bind_eq_ok h
      obtain ⟨js, hjs, h⟩ := bind_eq_ok h
      cases h
      obtain ⟨hshape, hfree, hshort⟩ := shapeOf_jsonOf x j hj
      obtain ⟨hshapes, hfrees, hshorts⟩ := itemShapes_itemsOf xs js hjs
      rw [itemShapes, hshape, hshapes, itemContainers, constantFreeItems, hfree, hfrees,
        shortItems, hshort, hshorts]
      exact ⟨rfl, rfl, rfl⟩

theorem memberShapes_membersOf {H : Host} : ∀ (ms : Members) (js : List (String × Json)),
    membersOf H ms = .ok js → memberShapes js = memberContainers ms ∧
      constantFreeMembers js = true ∧ shortMembers js = true
  | [] => by
      intro js h
      cases h
      exact ⟨rfl, rfl, rfl⟩
  | (k, v) :: ms => by
      intro js h
      rw [membersOf] at h
      obtain ⟨key, -, h⟩ := bind_eq_ok h
      obtain ⟨j, hj, h⟩ := bind_eq_ok h
      obtain ⟨js, hjs, h⟩ := bind_eq_ok h
      cases h
      obtain ⟨hshape, hfree, hshort⟩ := shapeOf_jsonOf v j hj
      obtain ⟨hshapes, hfrees, hshorts⟩ := memberShapes_membersOf ms js hjs
      rw [memberShapes, hshape, hshapes, memberContainers, constantFreeMembers, hfree,
        hfrees, shortMembers, hshort, hshorts]
      exact ⟨rfl, rfl, rfl⟩

end

end JsonFileConnector

end Polymorph
