import Mathlib.Data.List.Infix

/-!
# Validation by version

A part of a state carries a version. A step keeps the part and its version, or gives it a version
above all that were ever used. Then an observer who reads one version twice knows more than that the
two reads agree: nothing has moved in between.
-/

set_option autoImplicit false

namespace Versions

variable {σ α β : Type}

/-- A part of the state that moves with its version. `ceiling` is above the versions used so far. -/
structure Versioned (step : σ → α → σ) (Inv : σ → Prop) (part : σ → β) (version : β → Option Nat)
    (ceiling : σ → Nat) : Prop where
  inv : ∀ s a, Inv s → Inv (step s a)
  used : ∀ s, Inv s → ∀ n, version (part s) = some n → n < ceiling s
  rises : ∀ s a, Inv s → ceiling s ≤ ceiling (step s a)
  moves : ∀ s a, Inv s → part (step s a) = part s ∨
    ∃ n, version (part (step s a)) = some n ∧ ceiling s ≤ n

variable {step : σ → α → σ} {Inv : σ → Prop} {part : σ → β} {version : β → Option Nat}
  {ceiling : σ → Nat}

/-- The versions from some step on are above a number. -/
theorem Versioned.above (h : Versioned step Inv part version ceiling) {m : Nat} (actions : List α) :
    ∀ s, Inv s → m ≤ ceiling s → (∃ n, version (part s) = some n ∧ m ≤ n) →
      ∃ n, version (part (actions.foldl step s)) = some n ∧ m ≤ n := by
  induction actions with
  | nil =>
      intro s _ _ hversion
      exact hversion
  | cons a rest ih =>
      intro s hinv hceiling hversion
      apply ih (step s a) (h.inv s a hinv) (Nat.le_trans hceiling (h.rises s a hinv))
      rcases h.moves s a hinv with hkept | ⟨n, hn, hle⟩
      · rw [hkept]
        exact hversion
      · exact ⟨n, hn, Nat.le_trans hceiling hle⟩

/-- **Equal versions mean that nothing moved**: when the version after some steps is the one before
them, every state in between has the same part. -/
theorem Versioned.unmoved (h : Versioned step Inv part version ceiling) {n : Nat}
    (actions : List α) :
    ∀ s, Inv s → version (part s) = some n → version (part (actions.foldl step s)) = some n →
      ∀ between, between <+: actions → part (between.foldl step s) = part s := by
  induction actions with
  | nil =>
      intro s _ _ _ between hbetween
      rw [List.prefix_nil.mp hbetween]
      rfl
  | cons a rest ih =>
      intro s hinv hfirst hlast between hbetween
      -- A moved part would stay above the version that was read.
      have hkept : part (step s a) = part s := by
        rcases h.moves s a hinv with hkept | ⟨k, hk, hle⟩
        · exact hkept
        · obtain ⟨k', hk', hle'⟩ := h.above rest (step s a) (h.inv s a hinv)
            (h.rises s a hinv) ⟨k, hk, hle⟩
          rw [List.foldl_cons, hk'] at hlast
          have hused := h.used s hinv n hfirst
          rw [Option.some.inj hlast] at hle'
          omega
      cases between with
      | nil => rfl
      | cons b between =>
          obtain ⟨rfl, hrest⟩ := List.cons_prefix_cons.mp hbetween
          rw [List.foldl_cons, ← hkept]
          apply ih (step s b) (h.inv s b hinv) _ hlast between hrest
          rw [hkept]
          exact hfirst

end Versions
