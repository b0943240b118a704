import Mathlib.Logic.Relation

/-!
# Transactions over an explicit state

Stateful calls that may raise are computations `EStateM ε σ α`: an exception leaves the state as
far as it got. `transaction` runs a body between `BEGIN` and `COMMIT` and undoes it when it raises.
The rules below read a successful run apart (`bind_eq_ok_iff`), show that a call which validates
first and writes only inside a transaction is all-or-nothing (`Atomic`), and carry a property of the
state through a run, whether it returns or raises (`Retains`).
-/

set_option autoImplicit false

namespace Transaction

variable {ε σ α β : Type}

/-- A check without access to the state. -/
instance instMonadLiftExcept : MonadLift (Except ε) (EStateM ε σ) where
  monadLift x := fun s =>
    match x with
    | .ok a => .ok a s
    | .error e => .error e s

/-- `BEGIN`, the body, `COMMIT`; a raised exception rolls back. -/
def transaction (body : EStateM ε σ α) : EStateM ε σ α := fun s =>
  match body s with
  | .ok a s' => .ok a s'
  | .error e _ => .error e s

/-- The value or the exception of a call, and the state it leaves. -/
def outcome (call : EStateM ε σ α) (s : σ) : Except ε α × σ :=
  match call s with
  | .ok a s' => (.ok a, s')
  | .error e s' => (.error e, s')

/-! ## Evaluation -/

theorem outcome_of_ok {call : EStateM ε σ α} {s s' : σ} {a : α} (h : call s = .ok a s') :
    outcome call s = (.ok a, s') := by
  unfold outcome
  rw [h]

theorem outcome_of_error {call : EStateM ε σ α} {s s' : σ} {e : ε} (h : call s = .error e s') :
    outcome call s = (.error e, s') := by
  unfold outcome
  rw [h]

theorem bind_apply (x : EStateM ε σ α) (f : α → EStateM ε σ β) (s : σ) :
    (x >>= f) s = match x s with
      | .ok a s' => f a s'
      | .error e s' => .error e s' := rfl

theorem pure_apply (a : α) (s : σ) : (pure a : EStateM ε σ α) s = .ok a s := rfl

@[simp] theorem lift_ok (a : α) :
    (monadLift (Except.ok a : Except ε α) : EStateM ε σ α) = pure a := rfl

@[simp] theorem lift_error (e : ε) :
    (monadLift (Except.error e : Except ε α) : EStateM ε σ α) = throw e := rfl

theorem lift_apply (x : Except ε α) (s : σ) :
    (monadLift x : EStateM ε σ α) s =
      match x with
      | .ok a => .ok a s
      | .error e => .error e s := rfl

/-- Running on after a check that returned. -/
theorem lift_ok_bind {x : Except ε α} {f : α → EStateM ε σ β} {s : σ} {a : α} (h : x = .ok a) :
    ((monadLift x : EStateM ε σ α) >>= f) s = f a s := by
  rw [h]
  rfl

theorem throw_apply (e : ε) (s : σ) : (throw e : EStateM ε σ α) s = .error e s := rfl

theorem get_apply (s : σ) : (get : EStateM ε σ σ) s = .ok s s := rfl

theorem set_apply (s t : σ) : (set t : EStateM ε σ PUnit) s = .ok ⟨⟩ t := rfl

/-! ## Successful runs -/

theorem bind_eq_ok_iff {x : EStateM ε σ α} {f : α → EStateM ε σ β} {s s' : σ} {b : β} :
    (x >>= f) s = .ok b s' ↔ ∃ a s₁, x s = .ok a s₁ ∧ f a s₁ = .ok b s' := by
  change EStateM.bind x f s = _ ↔ _
  unfold EStateM.bind
  cases h : x s with
  | ok a s₁ =>
      constructor
      · intro h'
        exact ⟨a, s₁, rfl, h'⟩
      · rintro ⟨a', s', heq, h'⟩
        cases heq
        exact h'
  | error e s₁ =>
      constructor
      · intro h'
        cases h'
      · rintro ⟨a', s', heq, -⟩
        cases heq

theorem map_eq_ok_iff {x : EStateM ε σ α} {f : α → β} {s s' : σ} {b : β} :
    (f <$> x) s = .ok b s' ↔ ∃ a, x s = .ok a s' ∧ f a = b := by
  change EStateM.map f x s = _ ↔ _
  unfold EStateM.map
  cases h : x s with
  | ok a s₁ =>
      constructor
      · intro h'
        cases h'
        exact ⟨a, rfl, rfl⟩
      · rintro ⟨a', heq, rfl⟩
        cases heq
        rfl
  | error e s₁ =>
      constructor
      · intro h'
        cases h'
      · rintro ⟨a', heq, -⟩
        cases heq

@[simp] theorem pure_eq_ok_iff {a b : α} {s s' : σ} :
    (pure a : EStateM ε σ α) s = .ok b s' ↔ a = b ∧ s = s' := by
  change EStateM.Result.ok a s = _ ↔ _
  simp

@[simp] theorem throw_eq_ok_iff {e : ε} {a : α} {s s' : σ} :
    (throw e : EStateM ε σ α) s = .ok a s' ↔ False := by
  change EStateM.Result.error e s = _ ↔ _
  simp

@[simp] theorem get_eq_ok_iff {s s' t : σ} :
    (get : EStateM ε σ σ) s = .ok t s' ↔ s = t ∧ s = s' := by
  change EStateM.Result.ok s s = _ ↔ _
  simp

@[simp] theorem set_eq_ok_iff {s s' t : σ} {u : PUnit} :
    (set t : EStateM ε σ PUnit) s = .ok u s' ↔ t = s' := by
  change EStateM.Result.ok PUnit.unit t = _ ↔ _
  simp

/-- A check and its continuation both returned. -/
theorem lift_bind_eq_ok {x : Except ε α} {f : α → EStateM ε σ β} {s s' : σ} {b : β} :
    ((monadLift x : EStateM ε σ α) >>= f) s = .ok b s' ↔ ∃ a, x = .ok a ∧ f a s = .ok b s' := by
  constructor
  · intro h
    obtain ⟨a, s₁, h₁, h₂⟩ := bind_eq_ok_iff.1 h
    cases x with
    | error e => exact (throw_eq_ok_iff.1 h₁).elim
    | ok a' =>
        obtain ⟨rfl, rfl⟩ := pure_eq_ok_iff.1 h₁
        exact ⟨a', rfl, h₂⟩
  · rintro ⟨a, hx, h⟩
    rw [lift_ok_bind hx, h]

@[simp] theorem transaction_eq_ok_iff {p : EStateM ε σ α} {s s' : σ} {a : α} :
    transaction p s = .ok a s' ↔ p s = .ok a s' := by
  unfold transaction
  cases p s <;> simp

/-- A check that raises, in a call that returned. -/
theorem of_guard_eq_ok {c : Prop} [Decidable c] {e : ε} {f : β → EStateM ε σ α}
    {p : EStateM ε σ α} {s s' : σ} {a : α}
    (h : (if c then (throw e : EStateM ε σ β) >>= f else p) s = .ok a s') :
    ¬c ∧ p s = .ok a s' := by
  split at h
  · cases h
  · rename_i hc
    exact ⟨hc, h⟩

theorem transaction_of_ok {p : EStateM ε σ α} {s s' : σ} {a : α} (h : p s = .ok a s') :
    transaction p s = .ok a s' := transaction_eq_ok_iff.2 h

/-! ## All or nothing -/

/-- A call that raises leaves the state as it was. -/
def Atomic (p : EStateM ε σ α) : Prop := ∀ s e s', p s = .error e s' → s' = s

/-- A call that never changes the state. -/
def ReadOnly (p : EStateM ε σ α) : Prop :=
  (∀ s a s', p s = .ok a s' → s' = s) ∧ Atomic p

theorem atomic_transaction (p : EStateM ε σ α) : Atomic (transaction p) := by
  intro s e s' h
  unfold transaction at h
  cases hp : p s with
  | ok a s₁ =>
      rw [hp] at h
      cases h
  | error e₁ s₁ =>
      rw [hp] at h
      cases h
      rfl

theorem readOnly_lift (x : Except ε α) : ReadOnly (monadLift x : EStateM ε σ α) := by
  cases x with
  | ok a => exact ⟨fun _ _ _ h => (pure_eq_ok_iff.1 h).2.symm, fun _ _ _ h => nomatch h⟩
  | error e =>
      refine ⟨fun _ _ _ h => (throw_eq_ok_iff.1 h).elim, ?_⟩
      intro s e' s' h
      cases h
      rfl

theorem readOnly_pure (a : α) : ReadOnly (pure a : EStateM ε σ α) :=
  ⟨fun _ _ _ h => (pure_eq_ok_iff.1 h).2.symm, fun _ _ _ h => nomatch h⟩

theorem readOnly_throw (e : ε) : ReadOnly (throw e : EStateM ε σ α) := by
  refine ⟨fun _ _ _ h => (throw_eq_ok_iff.1 h).elim, ?_⟩
  intro s e' s' h
  cases h
  rfl

theorem readOnly_get : ReadOnly (get : EStateM ε σ σ) :=
  ⟨fun _ _ _ h => (get_eq_ok_iff.1 h).2.symm, fun _ _ _ h => nomatch h⟩

/-- Reading first keeps a call all-or-nothing. -/
theorem ReadOnly.bind_atomic {x : EStateM ε σ α} {f : α → EStateM ε σ β} (hx : ReadOnly x)
    (hf : ∀ a, Atomic (f a)) : Atomic (x >>= f) := by
  intro s e s' h
  change EStateM.bind x f s = _ at h
  unfold EStateM.bind at h
  cases hs : x s with
  | ok a s₁ =>
      rw [hs] at h
      have h₁ : s₁ = s := hx.1 s a s₁ hs
      exact (hf a s₁ e s' h).trans h₁
  | error e₁ s₁ =>
      rw [hs] at h
      cases h
      exact hx.2 s e s' hs

/-- Computing a pure result from the answer keeps a call all-or-nothing. -/
theorem Atomic.bind_pure {x : EStateM ε σ α} (hx : Atomic x) (f : α → β) :
    Atomic (x >>= fun a => pure (f a)) := by
  intro s e s' h
  change EStateM.bind x _ s = _ at h
  unfold EStateM.bind at h
  cases hs : x s with
  | ok a s₁ =>
      rw [hs] at h
      cases h
  | error e₁ s₁ =>
      rw [hs] at h
      cases h
      exact hx s e s' hs

theorem ReadOnly.bind {x : EStateM ε σ α} {f : α → EStateM ε σ β} (hx : ReadOnly x)
    (hf : ∀ a, ReadOnly (f a)) : ReadOnly (x >>= f) := by
  refine ⟨?_, hx.bind_atomic fun a => (hf a).2⟩
  intro s b s' h
  obtain ⟨a, s₁, h₁, h₂⟩ := bind_eq_ok_iff.1 h
  exact ((hf a).1 s₁ b s' h₂).trans (hx.1 s a s₁ h₁)

/-- A check that raises before a call that changes nothing. -/
theorem readOnly_guard {c : Prop} [Decidable c] {e : ε} {p : EStateM ε σ α} (hp : ReadOnly p) :
    ReadOnly (if c then (throw e : EStateM ε σ PUnit) >>= fun _ => p else p) := by
  split
  · exact (readOnly_throw e).bind fun _ => hp
  · exact hp

theorem ReadOnly.transaction {p : EStateM ε σ α} (hp : ReadOnly p) :
    ReadOnly (transaction p) :=
  ⟨fun s a s' h => hp.1 s a s' (transaction_eq_ok_iff.1 h), atomic_transaction p⟩

/-! ## Properties of the state -/

/-- The state that a run leaves, whether it returns or raises, has the property. -/
def Retains (P : σ → Prop) (p : EStateM ε σ α) (s : σ) : Prop := P (outcome p s).2

variable {P : σ → Prop} {s : σ}

theorem retains_pure (h : P s) (a : α) : Retains P (pure a : EStateM ε σ α) s := h

theorem retains_throw (h : P s) (e : ε) : Retains P (throw e : EStateM ε σ α) s := h

theorem retains_set {t : σ} (h : P t) : Retains P (set t : EStateM ε σ PUnit) s := h

theorem Retains.bind {x : EStateM ε σ α} {f : α → EStateM ε σ β} (hx : Retains P x s)
    (hf : ∀ a s', P s' → Retains P (f a) s') : Retains P (x >>= f) s := by
  unfold Retains outcome at hx ⊢
  rw [bind_apply]
  cases hrun : x s with
  | ok a s' =>
      rw [hrun] at hx
      exact hf a s' hx
  | error e s' =>
      rw [hrun] at hx
      exact hx

theorem retains_get_bind {f : σ → EStateM ε σ β} (h : Retains P (f s) s) :
    Retains P (get >>= f) s := h

theorem retains_lift_bind {x : Except ε α} {f : α → EStateM ε σ β} (hs : P s)
    (h : ∀ a, x = .ok a → Retains P (f a) s) :
    Retains P ((monadLift x : EStateM ε σ α) >>= f) s := by
  cases x with
  | error e => exact hs
  | ok a => exact h a rfl

theorem retains_guard {c : Prop} [Decidable c] {e : ε} {p : EStateM ε σ α} (hs : P s)
    (hp : ¬c → Retains P p s) :
    Retains P (if c then (throw e : EStateM ε σ PUnit) >>= fun _ => p else p) s := by
  split
  · exact hs
  · rename_i hc
    exact hp hc

theorem retains_transaction {p : EStateM ε σ α} (hs : P s) (hp : Retains P p s) :
    Retains P (transaction p) s := by
  unfold Retains outcome transaction at *
  cases hrun : p s with
  | ok a s' =>
      rw [hrun] at hp
      exact hp
  | error e s' => exact hs

theorem ReadOnly.retains {p : EStateM ε σ α} (hp : ReadOnly p) (hs : P s) : Retains P p s := by
  unfold Retains outcome
  cases hrun : p s with
  | ok a s' => exact hp.1 s a s' hrun ▸ hs
  | error e s' => exact hp.2 s e s' hrun ▸ hs

end Transaction
