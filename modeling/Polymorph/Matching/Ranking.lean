import Polymorph.Matching.Hybrid
import Mathlib.Tactic.Linarith

/-!
# Exact rankings

Descending rankings by a rational key: their order, their head, and when the head is separated from
everything that follows.
-/

set_option autoImplicit false

namespace Polymorph

open ScoreArith

variable {α β : Type} {key : α → Rat}

/-- The order in which a descending ranking by `key` lists its items. -/
abbrev Outranks (key : α → Rat) (a b : α) : Prop := key b ≤ key a

instance outranksTotal : Std.Total (Outranks key) := ⟨fun a b => le_total (key b) (key a)⟩

instance outranksTrans : IsTrans α (Outranks key) := ⟨fun _ _ _ hab hbc => le_trans hbc hab⟩

theorem sortedByReverse_eq (items : List α) :
    sortedByReverse key items = items.insertionSort (Outranks key) := by
  show items.insertionSort (fun a b => decide (key a < key b) = false) = _
  congr 1
  funext a b
  exact propext (by simp [Outranks])

theorem pairwise_sortedByReverse (items : List α) :
    (sortedByReverse key items).Pairwise (Outranks key) := by
  rw [sortedByReverse_eq]
  exact List.pairwise_insertionSort _ items

/-- A ranking is left as it is. -/
theorem sortedByReverse_of_pairwise {items : List α} (h : items.Pairwise (Outranks key)) :
    sortedByReverse key items = items := by
  rw [sortedByReverse_eq]
  exact h.insertionSort_eq

/-- Ranking items by a key and ranking their images by it agree. -/
theorem map_sortedByReverse (f : α → β) {key' : β → Rat} {items : List α}
    (h : ∀ a ∈ items, key' (f a) = key a) :
    (sortedByReverse key items).map f = sortedByReverse key' (items.map f) := by
  rw [sortedByReverse_eq, sortedByReverse_eq]
  refine List.map_insertionSort (Outranks key) (Outranks key') f items ?_
  intro a ha b hb
  rw [Outranks, Outranks, h a ha, h b hb]

/-! ## The head of a ranking -/

theorem betterBy_assoc (a b c : α) :
    betterBy key (betterBy key a b) c = betterBy key a (betterBy key b c) := by
  unfold betterBy
  simp only [lt, decide_eq_true_eq]
  by_cases hab : key a < key b <;> by_cases hbc : key b < key c <;>
    by_cases hac : key a < key c <;> simp [hab, hbc, hac] <;> linarith

theorem foldl_betterBy (a : α) (items : List α) :
    items.foldl (betterBy key) a = ((firstMaxBy key items).map (betterBy key a)).getD a := by
  cases items with
  | nil => rfl
  | cons b rest =>
      show rest.foldl (betterBy key) (betterBy key a b) = betterBy key a (rest.foldl _ b)
      induction rest generalizing b with
      | nil => rfl
      | cons c rest ih =>
          rw [List.foldl_cons, List.foldl_cons, betterBy_assoc]
          exact ih (betterBy key b c)

/-- A ranking starts with the first of the greatest items. -/
theorem head?_sortedByReverse (items : List α) :
    (sortedByReverse key items).head? = firstMaxBy key items := by
  induction items with
  | nil => rfl
  | cons a rest ih =>
      rw [sortedByReverse_eq] at ih ⊢
      rw [List.insertionSort_cons]
      show _ = some (rest.foldl (betterBy key) a)
      rw [foldl_betterBy, ← ih]
      cases rest.insertionSort (Outranks key) with
      | nil => rfl
      | cons b sorted =>
          rw [List.orderedInsert_cons]
          by_cases hab : key a < key b
          · simp [betterBy, lt, Outranks, hab, not_le.2 hab]
          · simp [betterBy, lt, Outranks, hab, not_lt.1 hab]

theorem firstMaxBy_map (f : α → β) {key' : β → Rat} (items : List α) :
    firstMaxBy key' (items.map f) = (firstMaxBy (key' ∘ f) items).map f := by
  cases items with
  | nil => rfl
  | cons first rest =>
      show some ((rest.map f).foldl (betterBy key') (f first)) = some (f (rest.foldl _ first))
      congr 1
      induction rest generalizing first with
      | nil => rfl
      | cons second rest ih =>
          have hstep : betterBy key' (f first) (f second) = f (betterBy (key' ∘ f) first second) := by
            unfold betterBy
            exact (apply_ite f _ _ _).symm
          rw [List.map_cons, List.foldl_cons, List.foldl_cons, hstep]
          exact ih _

/-! ## Separation -/

/-- `a` leads every other item of the list by `margin`. -/
def LeadsBy (key : α → Rat) (margin : Rat) (a : α) (others : List α) : Prop :=
  ∀ b ∈ others, key b + margin ≤ key a

/-- The head of a ranking leads by the distance to the second item. -/
theorem leadsBy_iff {margin : Rat} {a b : α} {rest : List α}
    (h : (a :: b :: rest).Pairwise (Outranks key)) :
    LeadsBy key margin a (b :: rest) ↔ margin ≤ key a - key b := by
  constructor
  · intro hleads
    have hb := hleads b List.mem_cons_self
    linarith
  · intro hmargin c hc
    have hcb : key c ≤ key b := by
      rcases List.mem_cons.1 hc with rfl | hrest
      · exact le_rfl
      · exact (List.pairwise_cons.1 (List.pairwise_cons.1 h).2).1 c hrest
    linarith

end Polymorph
