import Mathlib.Data.List.Nodup
import Mathlib.Data.List.Count
import Mathlib.Data.List.Induction

/-!
# Numbering repeated names

A pass over a list of names leaves the first occurrence of a name as it is and puts `label name k`
for its `k`-th occurrence. With labels that are distinct for distinct names and numbers, the only
names that can meet in the result are a literal name and a label of another one.
-/

set_option autoImplicit false

namespace Numbering

variable {α : Type} [DecidableEq α] (label : α → Nat → α)

/-- What stands for a name that has occurred `count` times before. -/
def numbered (name : α) (count : Nat) : α := if 1 < count + 1 then label name (count + 1) else name

/-- The pass; `seen` are the names before. -/
def passFrom (seen : List α) : List α → List α
  | [] => []
  | name :: rest => numbered label name (seen.count name) :: passFrom (seen ++ [name]) rest

/-- The pass over a list of names. -/
def pass (names : List α) : List α := passFrom label [] names

/-- No name is the label of a name for a number that it reaches. -/
def Apart (names : List α) : Prop :=
  ∀ name k, 2 ≤ k → k ≤ names.count name → label name k ∉ names

theorem length_passFrom (seen names : List α) :
    (passFrom label seen names).length = names.length := by
  induction names generalizing seen with
  | nil => rfl
  | cons name rest ih => rw [passFrom, List.length_cons, List.length_cons, ih]

theorem passFrom_append (seen before after : List α) :
    passFrom label seen (before ++ after) =
      passFrom label seen before ++ passFrom label (seen ++ before) after := by
  induction before generalizing seen with
  | nil => rw [List.nil_append, List.append_nil]; rfl
  | cons name rest ih =>
      rw [List.cons_append, passFrom, passFrom, ih, List.cons_append, List.append_assoc,
        List.singleton_append]

/-- One more name. -/
theorem pass_concat (names : List α) (name : α) :
    pass label (names ++ [name]) = pass label names ++ [numbered label name (names.count name)] := by
  rw [pass, passFrom_append, List.nil_append]
  rfl

theorem numbered_of_notMem {names : List α} {name : α} (h : name ∉ names) :
    numbered label name (names.count name) = name := by
  rw [numbered, List.count_eq_zero_of_not_mem h, if_neg (Nat.lt_irrefl 1)]

theorem numbered_of_mem {names : List α} {name : α} (h : name ∈ names) :
    numbered label name (names.count name) = label name (names.count name + 1) := by
  have hcount := List.count_pos_iff.mpr h
  rw [numbered, if_pos (by omega)]

theorem count_concat (names : List α) (name other : α) :
    (names ++ [name]).count other = names.count other + if name = other then 1 else 0 := by
  rw [List.count_append, List.count_singleton]
  simp only [beq_iff_eq]

/-- The result holds the names and their labels for the numbers that they reach. -/
theorem mem_pass {names : List α} {x : α} :
    x ∈ pass label names ↔
      x ∈ names ∨ ∃ name k, 2 ≤ k ∧ k ≤ names.count name ∧ x = label name k := by
  induction names using List.reverseRecOn with
  | nil =>
      constructor
      · intro h
        cases h
      · rintro (h | ⟨name, k, hk, hcount, -⟩)
        · cases h
        · rw [List.count_nil] at hcount
          omega
  | append_singleton names name ih =>
      rw [pass_concat, List.mem_append, ih, List.mem_singleton, List.mem_append,
        List.mem_singleton]
      by_cases hmem : name ∈ names
      · rw [numbered_of_mem label hmem]
        constructor
        · rintro ((h | ⟨other, k, hk, hcount, rfl⟩) | rfl)
          · exact .inl (.inl h)
          · refine .inr ⟨other, k, hk, ?_, rfl⟩
            rw [count_concat]
            omega
          · refine .inr ⟨name, names.count name + 1, ?_, ?_, rfl⟩
            · have hcount := List.count_pos_iff.mpr hmem
              omega
            · exact Nat.le_of_eq (by rw [count_concat, if_pos rfl])
        · rintro ((h | rfl) | ⟨other, k, hk, hcount, rfl⟩)
          · exact .inl (.inl h)
          · exact .inl (.inl hmem)
          · rw [count_concat] at hcount
            by_cases hother : name = other ∧ k = names.count name + 1
            · obtain ⟨rfl, rfl⟩ := hother
              exact .inr rfl
            · refine .inl (.inr ⟨other, k, hk, ?_, rfl⟩)
              split at hcount
              · rename_i hsame
                subst hsame
                have hne : k ≠ names.count name + 1 := fun h => hother ⟨rfl, h⟩
                omega
              · exact hcount
      · rw [numbered_of_notMem label hmem]
        have hzero : names.count name = 0 := List.count_eq_zero_of_not_mem hmem
        constructor
        · rintro ((h | ⟨other, k, hk, hcount, rfl⟩) | rfl)
          · exact .inl (.inl h)
          · refine .inr ⟨other, k, hk, ?_, rfl⟩
            rw [count_concat]
            omega
          · exact .inl (.inr rfl)
        · rintro ((h | rfl) | ⟨other, k, hk, hcount, rfl⟩)
          · exact .inl (.inl h)
          · exact .inr rfl
          · rw [count_concat] at hcount
            refine .inl (.inr ⟨other, k, hk, ?_, rfl⟩)
            split at hcount
            · rename_i hsame
              subst hsame
              omega
            · exact hcount

variable {label}

theorem Apart.of_concat {names : List α} {name : α} (h : Apart label (names ++ [name])) :
    Apart label names := by
  intro other k hk hcount hmem
  refine h other k hk ?_ (List.mem_append_left _ hmem)
  rw [count_concat]
  omega

/-- The names of the result are pairwise distinct exactly when no name is the label of another one
for a number that this one reaches. -/
theorem nodup_pass_iff (hlabel : ∀ name k other l, label name k = label other l →
    name = other ∧ k = l) (names : List α) :
    (pass label names).Nodup ↔ Apart label names := by
  induction names using List.reverseRecOn with
  | nil =>
      refine ⟨fun _ name k hk hcount => ?_, fun _ => List.nodup_nil⟩
      rw [List.count_nil] at hcount
      omega
  | append_singleton names name ih =>
      have hsplit : (pass label (names ++ [name])).Nodup ↔
          Apart label names ∧ numbered label name (names.count name) ∉ pass label names := by
        rw [pass_concat, List.nodup_append_comm, List.singleton_append, List.nodup_cons, ih,
          and_comm]
      rw [hsplit, mem_pass]
      by_cases hmem : name ∈ names
      · -- a repeated name: its label is new among the labels, and must not be a literal name
        rw [numbered_of_mem label hmem]
        constructor
        · rintro ⟨hapart, hnew⟩ other k hk hcount hlit
          rw [count_concat] at hcount
          have hlit' : label other k ∈ names := by
            cases List.mem_append.mp hlit with
            | inl h => exact h
            | inr h => exact List.mem_singleton.mp h ▸ hmem
          by_cases hlast : name = other ∧ k = names.count name + 1
          · obtain ⟨rfl, rfl⟩ := hlast
            exact hnew (.inl hlit')
          · refine hapart other k hk ?_ hlit'
            split at hcount
            · rename_i hsame
              subst hsame
              have hne : k ≠ names.count name + 1 := fun h => hlast ⟨rfl, h⟩
              omega
            · exact hcount
        · intro h
          refine ⟨h.of_concat, ?_⟩
          rintro (hlit | ⟨other, k, -, hcount, hsame⟩)
          · refine h name _ ?_ ?_ (List.mem_append_left _ hlit)
            · have hcount := List.count_pos_iff.mpr hmem
              omega
            · exact Nat.le_of_eq (by rw [count_concat, if_pos rfl])
          · obtain ⟨rfl, hk⟩ := hlabel _ _ _ _ hsame
            omega
      · -- a new name: it must not be the label of an earlier one
        rw [numbered_of_notMem label hmem]
        have hzero : names.count name = 0 := List.count_eq_zero_of_not_mem hmem
        constructor
        · rintro ⟨hapart, hnew⟩ other k hk hcount hlit
          have hcount' : k ≤ names.count other := by
            rw [count_concat] at hcount
            split at hcount
            · rename_i hsame
              subst hsame
              omega
            · exact hcount
          cases List.mem_append.mp hlit with
          | inl h => exact hapart other k hk hcount' h
          | inr h => exact hnew (.inr ⟨other, k, hk, hcount', (List.mem_singleton.mp h).symm⟩)
        · intro h
          refine ⟨h.of_concat, ?_⟩
          rintro (hlit | ⟨other, k, hk, hcount, hsame⟩)
          · exact hmem hlit
          · refine h other k hk ?_ (List.mem_append_right _ (List.mem_singleton.mpr hsame.symm))
            rw [count_concat]
            omega

end Numbering
