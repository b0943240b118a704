import Mathlib.Logic.Relation

/-!
# Loops

A `while` loop as its body: from a state, a turn leaves the loop with a result or goes on from
another state. The rules are the invariant rule for what a loop leaves with and for the states it
reaches, and the measure rule for termination with a bound on the turns.
-/

set_option autoImplicit false

namespace Loop

/-- What one turn does. -/
inductive Turn (ρ σ : Type) where
  | leave (result : ρ)
  | again (state : σ)
  deriving DecidableEq

variable {ρ σ : Type}

/-- At most so many turns from a state; `none` when the loop has not been left by then. -/
def run (body : σ → Turn ρ σ) : Nat → σ → Option ρ
  | 0, _ => none
  | turns + 1, s =>
      match body s with
      | .leave result => some result
      | .again s' => run body turns s'

/-- The loop is left with a result. -/
def Leaves (body : σ → Turn ρ σ) (s : σ) (result : ρ) : Prop :=
  ∃ turns, run body turns s = some result

/-- The loop comes to a state. -/
abbrev Reaches (body : σ → Turn ρ σ) : σ → σ → Prop :=
  Relation.ReflTransGen fun s s' => body s = .again s'

variable {body : σ → Turn ρ σ} {s s' : σ} {result : ρ}

theorem run_leave (turns : Nat) (h : body s = .leave result) :
    run body (turns + 1) s = some result := by
  rw [run, h]

theorem run_again (turns : Nat) (h : body s = .again s') :
    run body (turns + 1) s = run body turns s' := by
  rw [run, h]

/-- More turns than the loop takes change nothing. -/
theorem run_add (body : σ → Turn ρ σ) (more : Nat) :
    ∀ (turns : Nat) (s : σ) (result : ρ), run body turns s = some result →
      run body (turns + more) s = some result
  | 0, _, _, h => nomatch h
  | turns + 1, s, result, h => by
      rw [Nat.add_right_comm]
      cases hbody : body s with
      | leave r =>
          rw [run_leave _ hbody] at h ⊢
          exact h
      | again s' =>
          rw [run_again _ hbody] at h ⊢
          exact run_add body more turns s' result h

theorem Leaves.unique {r r' : ρ} (h : Leaves body s r) (h' : Leaves body s r') : r = r' := by
  obtain ⟨n, hn⟩ := h
  obtain ⟨n', hn'⟩ := h'
  have hr := run_add body n' n s r hn
  have hr' := run_add body n n' s r' hn'
  rw [Nat.add_comm n' n, hr] at hr'
  exact Option.some.inj hr'

theorem leaves_of_leave (h : body s = .leave result) : Leaves body s result :=
  ⟨1, run_leave 0 h⟩

/-- A loop goes on as it does from the next state. -/
theorem leaves_again_iff (h : body s = .again s') : Leaves body s result ↔ Leaves body s' result := by
  constructor
  · rintro ⟨turns, hrun⟩
    cases turns with
    | zero => exact nomatch hrun
    | succ turns => exact ⟨turns, (run_again turns h).symm.trans hrun⟩
  · rintro ⟨turns, hrun⟩
    exact ⟨turns + 1, (run_again turns h).trans hrun⟩

/-- Two states with the same turn lead to the same results. -/
theorem leaves_congr (h : body s = body s') : Leaves body s result ↔ Leaves body s' result := by
  cases hbody : body s' with
  | leave r =>
      have hs := leaves_of_leave (h.trans hbody)
      have hs' := leaves_of_leave hbody
      exact ⟨fun hr => hs.unique hr ▸ hs', fun hr => hs'.unique hr ▸ hs⟩
  | again t => rw [leaves_again_iff (h.trans hbody), leaves_again_iff hbody]

theorem leaves_iff_of_leave {r : ρ} (h : body s = .leave r) : Leaves body s result ↔ result = r :=
  ⟨fun hr => hr.unique (leaves_of_leave h), fun hr => hr ▸ leaves_of_leave h⟩

theorem leaves_of_reaches (h : Reaches body s s') (hleaves : Leaves body s' result) :
    Leaves body s result := by
  induction h using Relation.ReflTransGen.head_induction_on with
  | refl => exact hleaves
  | head hturn _ ih => exact (leaves_again_iff hturn).mpr ih

/-- A loop that is left was left from a state it reached. -/
theorem Leaves.last (h : Leaves body s result) :
    ∃ s', Reaches body s s' ∧ body s' = .leave result := by
  obtain ⟨turns, hrun⟩ := h
  induction turns generalizing s with
  | zero => exact nomatch hrun
  | succ turns ih =>
      cases hbody : body s with
      | leave r =>
          rw [run_leave _ hbody] at hrun
          cases hrun
          exact ⟨s, .refl, hbody⟩
      | again t =>
          rw [run_again _ hbody] at hrun
          obtain ⟨s', hreaches, hleave⟩ := ih hrun
          exact ⟨s', .head hbody hreaches, hleave⟩

section Invariant

variable {inv : σ → Prop} (hkeep : ∀ s s', inv s → body s = .again s' → inv s')
include hkeep

/-- The invariant rule for the states. -/
theorem Reaches.invariant (h : Reaches body s s') (hinv : inv s) : inv s' := by
  induction h with
  | refl => exact hinv
  | tail _ hturn ih => exact hkeep _ _ ih hturn

/-- The invariant rule for the result. -/
theorem Leaves.invariant (h : Leaves body s result) (hinv : inv s) :
    ∃ s', inv s' ∧ body s' = .leave result := by
  obtain ⟨s', hreaches, hleave⟩ := h.last
  exact ⟨s', hreaches.invariant hkeep hinv, hleave⟩

/-- The measure rule: a loop whose turns lower a measure is left after at most as many turns as
the measure has, and one. -/
theorem run_of_measure {measure : σ → Nat}
    (hlower : ∀ s s', inv s → body s = .again s' → measure s' < measure s) (hinv : inv s) :
    ∃ result, run body (measure s + 1) s = some result := by
  generalize hm : measure s = m
  induction m using Nat.strongRecOn generalizing s with
  | ind m ih =>
      cases hbody : body s with
      | leave r => exact ⟨r, run_leave m hbody⟩
      | again s' =>
          have hlt : measure s' < m := hm ▸ hlower s s' hinv hbody
          obtain ⟨r, hrun⟩ := ih (measure s') hlt (hkeep s s' hinv hbody) rfl
          refine ⟨r, (run_again m hbody).trans ?_⟩
          have hmore := run_add body (m - (measure s' + 1)) _ _ _ hrun
          rwa [Nat.add_sub_cancel' hlt] at hmore

theorem leaves_of_measure {measure : σ → Nat}
    (hlower : ∀ s s', inv s → body s = .again s' → measure s' < measure s) (hinv : inv s) :
    ∃ result, Leaves body s result := by
  obtain ⟨result, hrun⟩ := run_of_measure hkeep hlower hinv
  exact ⟨result, _, hrun⟩

end Invariant

end Loop
