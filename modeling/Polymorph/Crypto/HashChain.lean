import Mathlib.Data.List.Induction

/-!
# Hash chains

Every link of a chain hashes the digest before it together with an entry. The digest at the tip
commits to all entries: two chains of one length with one tip have the same entries, or two
different inputs were hashed to one digest.
-/

set_option autoImplicit false

namespace HashChain

variable {D E : Type} (link : D → E → D)

/-- The digest at the tip of a chain. -/
def tip : D → List E → D
  | start, [] => start
  | start, entry :: rest => tip (link start entry) rest

/-- What is hashed on the way. -/
def inputs : D → List E → List (D × E)
  | _, [] => []
  | start, entry :: rest => (start, entry) :: inputs (link start entry) rest

/-- An input of each list, different ones, with one digest. -/
def Collides (xs ys : List (D × E)) : Prop :=
  ∃ x ∈ xs, ∃ y ∈ ys, x ≠ y ∧ link x.1 x.2 = link y.1 y.2

variable {link} {start : D}

theorem tip_append (entries more : List E) :
    tip link start (entries ++ more) = tip link (tip link start entries) more := by
  induction entries generalizing start with
  | nil => rfl
  | cons entry rest ih => exact ih

theorem inputs_append (entries more : List E) :
    inputs link start (entries ++ more) =
      inputs link start entries ++ inputs link (tip link start entries) more := by
  induction entries generalizing start with
  | nil => rfl
  | cons entry rest ih => exact congrArg _ ih

theorem Collides.mono {xs ys xs' ys' : List (D × E)} (h : Collides link xs ys) (hx : xs ⊆ xs')
    (hy : ys ⊆ ys') : Collides link xs' ys' := by
  obtain ⟨x, hxs, y, hys, hne, hsame⟩ := h
  exact ⟨x, hx hxs, y, hy hys, hne, hsame⟩

/-- What is hashed has a property that the start has and every digest. -/
theorem inputs_all {P : D → Prop} (hstart : P start) (hlink : ∀ d e, P (link d e))
    {entries : List E} {x : D × E} (hx : x ∈ inputs link start entries) : P x.1 := by
  induction entries generalizing start with
  | nil => cases hx
  | cons entry rest ih =>
      rcases List.mem_cons.mp hx with rfl | hx
      · exact hstart
      · exact ih (hlink start entry) hx

/-- **The tip commits to the entries**, unless two inputs collide or an input is hashed to the
digest that the chains start from. -/
theorem eq_or_collides {entries entries' : List E}
    (htip : tip link start entries = tip link start entries') :
    entries = entries' ∨
      Collides link (inputs link start entries) (inputs link start entries') ∨
        ∃ x ∈ inputs link start entries ++ inputs link start entries', link x.1 x.2 = start := by
  -- The last links have one digest: the same input, or a collision.
  induction entries using List.reverseRecOn generalizing entries' with
  | nil =>
      rcases List.eq_nil_or_concat entries' with rfl | ⟨entries', entry', rfl⟩
      · exact .inl rfl
      · rw [List.concat_eq_append, tip_append] at htip
        refine .inr (.inr ⟨(tip link start entries', entry'), ?_, htip.symm⟩)
        rw [List.concat_eq_append, inputs_append]
        exact List.mem_append_right _ (List.mem_append_right _ (List.mem_singleton_self _))
  | append_singleton entries entry ih =>
      rcases List.eq_nil_or_concat entries' with rfl | ⟨entries', entry', rfl⟩
      · rw [tip_append] at htip
        refine .inr (.inr ⟨(tip link start entries, entry), ?_, htip⟩)
        rw [inputs_append]
        exact List.mem_append_left _ (List.mem_append_right _ (List.mem_singleton_self _))
      rw [List.concat_eq_append] at htip ⊢
      rw [tip_append, tip_append] at htip
      rw [inputs_append, inputs_append]
      by_cases hsame : (tip link start entries, entry) = (tip link start entries', entry')
      · obtain ⟨hbefore, hentry⟩ := Prod.ext_iff.mp hsame
        rcases ih hbefore with hentries | hcollides | ⟨x, hx, hstart⟩
        · exact .inl (congrArg₂ (fun es e => es ++ [e]) hentries hentry)
        · refine .inr (.inl ?_)
          exact hcollides.mono (List.subset_append_left _ _) (List.subset_append_left _ _)
        · refine .inr (.inr ⟨x, ?_, hstart⟩)
          rcases List.mem_append.mp hx with hx | hx
          · exact List.mem_append_left _ (List.mem_append_left _ hx)
          · exact List.mem_append_right _ (List.mem_append_left _ hx)
      · refine .inr (.inl ⟨(tip link start entries, entry), ?_, (tip link start entries', entry'),
          ?_, hsame, htip⟩)
        · exact List.mem_append_right _ (List.mem_singleton_self _)
        · exact List.mem_append_right _ (List.mem_singleton_self _)

end HashChain
