import Mathlib.Logic.Function.Basic

/-!
# Programs over atomic operations

A program calls atomic operations of a signature `(Op, Res)`; each call answers a value or raises
an exception of type `ε`, and the program may catch it. The tree `Prog` stores the calls and all
continuations, so one definition of a program serves every semantics of the operations: the
sequential run (`Prog.run`) and any interleaving of several programs.

The weakest precondition `Prog.wp` is taken over a client-local ghost value. A `Spec` says, for
each operation, what must hold of the ghost before the call (`pre`), which answers the client may
see (`allowed`), and how the ghost changes (`next`). The rules below compute `wp` through the
program combinators.
-/

set_option autoImplicit false

namespace Concurrency

variable {Op : Type} {Res : Op → Type} {ε α β γ σ : Type}

/-- A program: a returned value or raised exception, or a call with its continuation. -/
inductive Prog (Op : Type) (Res : Op → Type) (ε α : Type) : Type where
  | ret (r : Except ε α) : Prog Op Res ε α
  | call (op : Op) (k : Except ε (Res op) → Prog Op Res ε α) : Prog Op Res ε α

namespace Prog

/-- Sequencing; an exception of the first program skips the second. -/
def bind (p : Prog Op Res ε α) (f : α → Prog Op Res ε β) : Prog Op Res ε β :=
  match p with
  | .ret (.ok a) => f a
  | .ret (.error e) => .ret (.error e)
  | .call op k => .call op fun r => bind (k r) f

/-- Run `p` and hand its outcome, value or exception, to the caller. -/
def attempt (p : Prog Op Res ε α) : Prog Op Res ε (Except ε α) :=
  match p with
  | .ret r => .ret (.ok r)
  | .call op k => .call op fun r => attempt (k r)

instance : Monad (Prog Op Res ε) where
  pure a := .ret (.ok a)
  bind := bind

/-- Raise an exception. -/
def raise (e : ε) : Prog Op Res ε α := .ret (.error e)

/-- Call one operation. -/
def perform (op : Op) : Prog Op Res ε (Res op) := .call op .ret

/-! ## Sequential runs -/

/-- Run a program against a handler that answers each call and updates a state. -/
def run (h : (op : Op) → σ → Except ε (Res op) × σ) : Prog Op Res ε α → σ → Except ε α × σ
  | .ret r, s => (r, s)
  | .call op k, s => run h (k (h op s).1) (h op s).2

section Run

variable (h : (op : Op) → σ → Except ε (Res op) × σ)

@[simp] theorem run_pure (a : α) (s : σ) :
    run h (pure a : Prog Op Res ε α) s = (.ok a, s) := rfl

@[simp] theorem run_raise (e : ε) (s : σ) :
    run h (raise e : Prog Op Res ε α) s = (.error e, s) := rfl

@[simp] theorem run_perform (op : Op) (s : σ) :
    run h (perform op : Prog Op Res ε (Res op)) s = h op s := rfl

@[simp] theorem run_attempt (p : Prog Op Res ε α) (s : σ) :
    run h (attempt p) s = (.ok (run h p s).1, (run h p s).2) := by
  induction p generalizing s with
  | ret r => rfl
  | call op k ih => exact ih _ _

theorem run_bind (p : Prog Op Res ε α) (f : α → Prog Op Res ε β) (s : σ) :
    run h (p >>= f) s =
      match run h p s with
      | (.ok a, s') => run h (f a) s'
      | (.error e, s') => (.error e, s') := by
  induction p generalizing s with
  | ret r =>
      cases r with
      | ok a => rfl
      | error e => rfl
  | call op k ih => exact ih _ _

/-- The handler takes the program and its state to a remaining program and state; every call on the
way and its answer satisfy `P`. -/
inductive Steps (P : (op : Op) → Except ε (Res op) → Prop) :
    Prog Op Res ε α → σ → Prog Op Res ε α → σ → Prop
  | refl (p : Prog Op Res ε α) (s : σ) : Steps P p s p s
  | call {op : Op} {k : Except ε (Res op) → Prog Op Res ε α} {s s' : σ} {q : Prog Op Res ε α} :
      P op (h op s).1 → Steps P (k (h op s).1) (h op s).2 q s' → Steps P (.call op k) s q s'

namespace Steps

variable {h} {P : (op : Op) → Except ε (Res op) → Prop} {p q u : Prog Op Res ε α} {s s' s'' : σ}

theorem trans (hpq : Steps h P p s q s') (hqu : Steps h P q s' u s'') : Steps h P p s u s'' := by
  induction hpq with
  | refl => exact hqu
  | call hP _ ih => exact .call hP (ih hqu)

/-- Steps do not change the outcome of the run. -/
theorem run_eq (hpq : Steps h P p s q s') : run h p s = run h q s' := by
  induction hpq with
  | refl => rfl
  | call _ _ ih => exact ih

/-- What follows a program that returned or raised. -/
def resume (f : α → Prog Op Res ε β) : Except ε α → Prog Op Res ε β
  | .ok a => f a
  | .error e => .ret (.error e)

theorem bind {r : Except ε α} (hp : Steps h P p s (.ret r) s') (f : α → Prog Op Res ε β) :
    Steps h P (p >>= f) s (resume f r) s' := by
  generalize hq : Prog.ret r = q at hp
  induction hp with
  | refl =>
      subst hq
      cases r with
      | ok a => exact .refl _ _
      | error e => exact .refl _ _
  | call hP _ ih => exact .call hP (ih hq)

/-- Steps of the first part of a sequence. -/
theorem bind_left (hp : Steps h P p s q s') (f : α → Prog Op Res ε β) :
    Steps h P (p >>= f) s (q >>= f) s' := by
  induction hp with
  | refl => exact .refl _ _
  | call hP _ ih => exact .call hP ih

theorem attempt {r : Except ε α} (hp : Steps h P p s (.ret r) s') :
    Steps h P (attempt p) s (.ret (.ok r)) s' := by
  generalize hq : Prog.ret r = q at hp
  induction hp with
  | refl =>
      subst hq
      exact .refl _ _
  | call hP _ ih => exact .call hP (ih hq)

theorem attempt_bind {r : Except ε α} (hp : Steps h P p s (.ret r) s')
    (f : Except ε α → Prog Op Res ε β) :
    Steps h P (Prog.attempt p >>= f) s (f r) s' := hp.attempt.bind f

theorem perform {op : Op} {s : σ} (hP : P op (h op s).1) :
    Steps h P (Prog.perform op) s (.ret (h op s).1) (h op s).2 := .call hP (.refl _ _)

end Steps

/-- A program runs to its end by steps. -/
theorem steps_run (p : Prog Op Res ε α) (s : σ) :
    Steps h (fun _ _ => True) p s (.ret (run h p s).1) (run h p s).2 := by
  induction p generalizing s with
  | ret r => exact .refl _ _
  | call op k ih => exact .call trivial (ih _ _)

end Run

/-! ## Weakest preconditions over client-local ghost values -/

end Prog

/-- What a client with ghost value `γ` may rely on, and must provide, at each operation. -/
structure Spec (Op : Type) (Res : Op → Type) (ε γ : Type) where
  /-- Obligation of the client when it calls `op`. -/
  pre : Op → γ → Prop
  /-- Answers the client may see. -/
  allowed : (op : Op) → γ → Except ε (Res op) → Prop
  /-- Ghost value after the answer. -/
  next : (op : Op) → γ → Except ε (Res op) → γ

namespace Prog

/-- Weakest precondition of a program for a postcondition on its outcome and final ghost. -/
def wp (S : Spec Op Res ε γ) (Q : Except ε α → γ → Prop) : Prog Op Res ε α → γ → Prop
  | .ret r, g => Q r g
  | .call op k, g => S.pre op g ∧ ∀ r, S.allowed op g r → wp S Q (k r) (S.next op g r)

variable (S : Spec Op Res ε γ)

@[simp] theorem wp_ret (Q : Except ε α → γ → Prop) (r : Except ε α) (g : γ) :
    wp S Q (.ret r : Prog Op Res ε α) g ↔ Q r g := Iff.rfl

@[simp] theorem wp_pure (Q : Except ε α → γ → Prop) (a : α) (g : γ) :
    wp S Q (pure a : Prog Op Res ε α) g ↔ Q (.ok a) g := Iff.rfl

@[simp] theorem wp_raise (Q : Except ε α → γ → Prop) (e : ε) (g : γ) :
    wp S Q (raise e : Prog Op Res ε α) g ↔ Q (.error e) g := Iff.rfl

theorem wp_perform (op : Op) (Q : Except ε (Res op) → γ → Prop) (g : γ) :
    wp S Q (perform op) g ↔ S.pre op g ∧ ∀ r, S.allowed op g r → Q r (S.next op g r) := Iff.rfl

/-- The continuation's obligation after an outcome of the first program. -/
def wpBind (Q : Except ε β → γ → Prop) (f : α → Prog Op Res ε β) : Except ε α → γ → Prop
  | .ok a, g => wp S Q (f a) g
  | .error e, g => Q (.error e) g

@[simp] theorem wpBind_ok (Q : Except ε β → γ → Prop) (f : α → Prog Op Res ε β) (a : α) (g : γ) :
    wpBind S Q f (.ok a) g ↔ wp S Q (f a) g := Iff.rfl

@[simp] theorem wpBind_error (Q : Except ε β → γ → Prop) (f : α → Prog Op Res ε β) (e : ε)
    (g : γ) : wpBind S Q f (.error e) g ↔ Q (.error e) g := Iff.rfl

theorem wp_bind (p : Prog Op Res ε α) (f : α → Prog Op Res ε β) (Q : Except ε β → γ → Prop)
    (g : γ) : wp S Q (p >>= f) g ↔ wp S (wpBind S Q f) p g := by
  induction p generalizing g with
  | ret r =>
      cases r with
      | ok a => exact Iff.rfl
      | error e => exact Iff.rfl
  | call op k ih =>
      change (S.pre op g ∧ ∀ r, S.allowed op g r → wp S Q (k r >>= f) (S.next op g r)) ↔ _
      simp only [ih, wp]

theorem wp_attempt (p : Prog Op Res ε α) (Q : Except ε (Except ε α) → γ → Prop) (g : γ) :
    wp S Q (attempt p) g ↔ wp S (fun r g' => Q (.ok r) g') p g := by
  induction p generalizing g with
  | ret r => exact Iff.rfl
  | call op k ih =>
      change (S.pre op g ∧ ∀ r, S.allowed op g r → wp S Q (attempt (k r)) (S.next op g r)) ↔ _
      simp only [ih, wp]

theorem wp_mono {Q Q' : Except ε α → γ → Prop} (hQ : ∀ r g, Q r g → Q' r g)
    (p : Prog Op Res ε α) (g : γ) (h : wp S Q p g) : wp S Q' p g := by
  induction p generalizing g with
  | ret r => exact hQ r g h
  | call op k ih => exact ⟨h.1, fun r hr => ih r _ (h.2 r hr)⟩

/-- What a program establishes when the client may see any answer holds of every run. -/
theorem run_of_wp (hallowed : ∀ op g r, S.allowed op g r) {Q : Except ε α → γ → Prop}
    (h : (op : Op) → σ → Except ε (Res op) × σ) {p : Prog Op Res ε α} {g : γ} (hp : wp S Q p g)
    (s : σ) : ∃ g', Q (run h p s).1 g' := by
  induction p generalizing g s with
  | ret r => exact ⟨g, hp⟩
  | call op k ih => exact ih _ (hp.2 _ (hallowed op g _)) _

/-- Sequencing with an intermediate assertion `R` on the ghost, whatever the first program
returned or raised. -/
theorem wp_bind_of {Q : Except ε β → γ → Prop} {R : Except ε α → γ → Prop}
    {p : Prog Op Res ε α} {f : α → Prog Op Res ε β} {g : γ} (hp : wp S R p g)
    (hf : ∀ r g', R r g' → wpBind S Q f r g') : wp S Q (p >>= f) g :=
  (wp_bind S p f Q g).2 (wp_mono S hf p g hp)

/-- The same rule for a program run under `attempt`. -/
theorem wp_attempt_of {Q : Except ε β → γ → Prop} {R : Except ε α → γ → Prop}
    {p : Prog Op Res ε α} {f : Except ε α → Prog Op Res ε β} {g : γ} (hp : wp S R p g)
    (hf : ∀ r g', R r g' → wp S Q (f r) g') : wp S Q (attempt p >>= f) g := by
  rw [wp_bind, wp_attempt]
  exact wp_mono S hf p g hp

/-- One operation followed by a continuation. -/
theorem wp_perform_bind (op : Op) (f : Res op → Prog Op Res ε β) (Q : Except ε β → γ → Prop)
    (g : γ) :
    wp S Q (perform op >>= f) g ↔
      S.pre op g ∧ ∀ r, S.allowed op g r → wpBind S Q f r (S.next op g r) := by
  rw [wp_bind, wp_perform]

/-- One operation whose exception the program handles. -/
theorem wp_attempt_perform_bind (op : Op) (f : Except ε (Res op) → Prog Op Res ε β)
    (Q : Except ε β → γ → Prop) (g : γ) :
    wp S Q (attempt (perform op) >>= f) g ↔
      S.pre op g ∧ ∀ r, S.allowed op g r → wp S Q (f r) (S.next op g r) := by
  rw [wp_bind, wp_attempt, wp_perform]
  rfl

end Prog

end Concurrency
