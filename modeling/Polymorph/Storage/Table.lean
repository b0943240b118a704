import Mathlib.Algebra.GroupWithZero.Nat
import Mathlib.Data.List.Sort
import Mathlib.Data.List.Nodup

/-!
# Tables with unique columns

A table is the list of its rows. A unique index `f` keeps the values `f row` pairwise distinct; a
lookup by the index finds at most one row. Ordered reads go through a total order on the rows.
-/

set_option autoImplicit false

namespace Table

variable {Row κ : Type} {f : Row → κ} {t t' : List Row} {k : κ} {row : Row}

/-- The rows have pairwise distinct values of `f`. -/
def UniqueBy (f : Row → κ) (t : List Row) : Prop := (t.map f).Nodup

theorem UniqueBy.nil : UniqueBy f ([] : List Row) := List.nodup_nil

theorem UniqueBy.eq_of_mem (h : UniqueBy f t) {a b : Row} (ha : a ∈ t) (hb : b ∈ t)
    (hab : f a = f b) : a = b :=
  List.inj_on_of_nodup_map h ha hb hab

theorem UniqueBy.sublist (h : UniqueBy f t) (hsub : t'.Sublist t) : UniqueBy f t' :=
  List.Nodup.sublist (hsub.map f) h

theorem UniqueBy.perm (h : UniqueBy f t) (hperm : t.Perm t') : UniqueBy f t' :=
  (hperm.map f).nodup_iff.1 h

/-- A selection by one value of a unique column finds at most one row. -/
theorem UniqueBy.length_filter_le_one (h : UniqueBy f t) {p : Row → Bool}
    (hp : ∀ row ∈ t, p row = true → f row = k) : (t.filter p).length ≤ 1 := by
  have hunique : UniqueBy f (t.filter p) := h.sublist List.filter_sublist
  have hall : ∀ row ∈ t.filter p, f row = k := by
    intro row hrow
    obtain ⟨hmem, htest⟩ := List.mem_filter.1 hrow
    exact hp row hmem htest
  match hfilter : t.filter p with
  | [] => exact Nat.zero_le _
  | [_] => exact le_rfl
  | a :: b :: rest =>
      rw [hfilter] at hunique hall
      have hab : f a = f b := (hall a List.mem_cons_self).trans
        (hall b (List.mem_cons_of_mem _ List.mem_cons_self)).symm
      rw [UniqueBy, List.map_cons, List.map_cons, hab, List.nodup_cons] at hunique
      exact absurd List.mem_cons_self hunique.1

/-! ## Lookups -/

variable [DecidableEq κ]

/-- `SELECT … WHERE f = k`, the first row found. -/
def selectBy (f : Row → κ) (k : κ) (t : List Row) : Option Row :=
  t.find? fun row => decide (f row = k)

theorem selectBy_eq_none : selectBy f k t = none ↔ ∀ row ∈ t, f row ≠ k := by
  simp [selectBy]

theorem mem_of_selectBy (h : selectBy f k t = some row) : row ∈ t ∧ f row = k :=
  ⟨List.mem_of_find?_eq_some h, by simpa using List.find?_some h⟩

theorem selectBy_map {Row' : Type} (g : Row' → Row) (f : Row → κ) (k : κ) (t : List Row') :
    selectBy f k (t.map g) = (selectBy (f ∘ g) k t).map g := List.find?_map

theorem UniqueBy.selectBy_eq_some (h : UniqueBy f t) :
    selectBy f k t = some row ↔ row ∈ t ∧ f row = k := by
  constructor
  · exact mem_of_selectBy
  · rintro ⟨hrow, rfl⟩
    cases hselect : selectBy f (f row) t with
    | none => exact absurd rfl (selectBy_eq_none.1 hselect row hrow)
    | some other =>
        obtain ⟨hother, hkey⟩ := mem_of_selectBy hselect
        rw [h.eq_of_mem hother hrow hkey]

theorem UniqueBy.insert (h : UniqueBy f t) (hnew : selectBy f (f row) t = none) :
    UniqueBy f (t ++ [row]) := by
  rw [UniqueBy, List.map_append, List.nodup_append]
  refine ⟨h, List.nodup_singleton _, ?_⟩
  intro a ha b hb hab
  obtain ⟨other, hother, rfl⟩ := List.mem_map.1 ha
  rw [List.map_singleton, List.mem_singleton] at hb
  exact selectBy_eq_none.1 hnew other hother (hab.trans hb)

/-! ## Bounded reads -/

/-- The longest prefix whose sizes sum to at most the budget. -/
def boundedPrefix (size : Row → Nat) : Nat → List Row → List Row
  | _, [] => []
  | budget, row :: rest =>
      if size row ≤ budget then row :: boundedPrefix size (budget - size row) rest else []

theorem boundedPrefix_isPrefix (size : Row → Nat) (budget : Nat) (t : List Row) :
    boundedPrefix size budget t <+: t := by
  induction t generalizing budget with
  | nil => exact List.prefix_rfl
  | cons row rest ih =>
      unfold boundedPrefix
      split
      · exact (List.prefix_cons_inj row).2 (ih _)
      · exact List.nil_prefix

theorem sum_boundedPrefix_le (size : Row → Nat) (budget : Nat) (t : List Row) :
    ((boundedPrefix size budget t).map size).sum ≤ budget := by
  induction t generalizing budget with
  | nil => exact Nat.zero_le _
  | cons row rest ih =>
      unfold boundedPrefix
      split
      · have h := ih (budget - size row)
        simp only [List.map_cons, List.sum_cons]
        omega
      · exact Nat.zero_le _

/-- Every prefix within the budget is a prefix of the longest one. -/
theorem isPrefix_boundedPrefix (size : Row → Nat) {budget : Nat} {t p : List Row} (hp : p <+: t)
    (hsum : (p.map size).sum ≤ budget) : p <+: boundedPrefix size budget t := by
  induction t generalizing budget p with
  | nil =>
      rw [List.prefix_nil.1 hp]
      exact List.nil_prefix
  | cons row rest ih =>
      cases p with
      | nil => exact List.nil_prefix
      | cons a p =>
          obtain ⟨rfl, htail⟩ := List.cons_prefix_cons.1 hp
          simp only [List.map_cons, List.sum_cons] at hsum
          unfold boundedPrefix
          rw [if_pos (by omega)]
          exact (List.prefix_cons_inj a).2 (ih htail (by omega))

theorem boundedPrefix_map {Row' : Type} (g : Row' → Row) (size : Row → Nat) (budget : Nat)
    (t : List Row') :
    boundedPrefix size budget (t.map g) = (boundedPrefix (size ∘ g) budget t).map g := by
  induction t generalizing budget with
  | nil => rfl
  | cons row rest ih =>
      simp only [List.map_cons, boundedPrefix, Function.comp_apply]
      split
      · rw [List.map_cons, ih]
      · rfl

/-! ## `ORDER BY` two columns -/

section OrderBy

variable {R A B : Type} [LinearOrder A] [LinearOrder B] (f : R → A) (g : R → B)

/-- `ORDER BY f ASC, g ASC` -/
def OrderBy (a b : R) : Prop := f a < f b ∨ f a = f b ∧ g a ≤ g b

theorem orderBy_total (a b : R) : OrderBy f g a b ∨ OrderBy f g b a := by
  rcases lt_trichotomy (f a) (f b) with h | h | h
  · exact .inl (.inl h)
  · rcases le_total (g a) (g b) with hd | hd
    · exact .inl (.inr ⟨h, hd⟩)
    · exact .inr (.inr ⟨h.symm, hd⟩)
  · exact .inr (.inl h)

variable {f g}

theorem orderBy_trans {a b c : R} (hab : OrderBy f g a b) (hbc : OrderBy f g b c) :
    OrderBy f g a c := by
  rcases hab with hab | ⟨hab, hd⟩
  · rcases hbc with hbc | ⟨hbc, -⟩
    · exact .inl (lt_trans hab hbc)
    · exact .inl (hbc ▸ hab)
  · rcases hbc with hbc | ⟨hbc, hd'⟩
    · exact .inl (hab ▸ hbc)
    · exact .inr ⟨hab.trans hbc, le_trans hd hd'⟩

/-- The first column of ordered rows. -/
theorem OrderBy.le {a b : R} (h : OrderBy f g a b) : f a ≤ f b := by
  cases h with
  | inl hlt => exact le_of_lt hlt
  | inr hsame => exact le_of_eq hsame.1

/-- Rows sorted by two columns are in their order. -/
theorem pairwise_orderBy {r : R → R → Prop} [DecidableRel r]
    (hr : ∀ a b, r a b ↔ OrderBy f g a b) (rows : List R) : (rows.insertionSort r).Pairwise r := by
  have : Std.Total r := ⟨fun a b => (orderBy_total f g a b).imp (hr a b).mpr (hr b a).mpr⟩
  have : IsTrans R r :=
    ⟨fun a b c hab hbc => (hr a c).mpr (orderBy_trans ((hr a b).mp hab) ((hr b c).mp hbc))⟩
  exact List.pairwise_insertionSort r rows

end OrderBy

end Table
