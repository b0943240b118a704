import Mathlib.Logic.Relation
import Polymorph.Concurrency.Program

/-!
# Interleaved workers over one shared state

Any number of workers run programs over the same atomic operations. A configuration holds the
shared state and, for each worker, the job it runs and what remains of the job's program. One step
starts a job, executes one operation of one worker, returns from a job, loses a worker to a crash,
or lets the environment act while no worker runs. A step condition `cond` restricts the operation
steps, so that a property of conditioned runs is a property of reachability under `cond`.

A `Protocol` gives every worker a ghost value and a `Spec` for it. `reaches_coherent` turns the
preservation of an invariant by each single operation, together with the weakest precondition of
each job's body, into the invariant of every reachable configuration.
-/

set_option autoImplicit false

namespace Concurrency

variable {Op : Type} {Res : Op → Type} {ε σ ι Job Out γ : Type}

/-- Workers `ι` running jobs over the operations `Op` on a shared state `σ`. -/
structure System (Op : Type) (Res : Op → Type) (ε σ ι Job Out : Type) where
  /-- The program of a job. -/
  body : ι → Job → Prog Op Res ε Out
  /-- One atomic operation on the shared state, with its answer. -/
  exec : ι → Job → (op : Op) → σ → Except ε (Res op) → σ → Prop
  /-- A step of the environment, taken only while every worker is idle. -/
  quiet : σ → σ → Prop
  /-- Whether a worker may stop between two operations. -/
  mayCrash : Prop

/-- Shared state and the running jobs. -/
structure Config (Op : Type) (Res : Op → Type) (ε σ ι Job Out : Type) where
  shared : σ
  worker : ι → Option (Job × Prog Op Res ε Out)

/-- A condition on an operation step: the configuration before it, the worker, the operation and
its answer. -/
abbrev StepCondition (Op : Type) (Res : Op → Type) (ε σ ι Job Out : Type) : Type :=
  Config Op Res ε σ ι Job Out → ι → (op : Op) → Except ε (Res op) → Prop

namespace System

variable [DecidableEq ι]

/-- One step of a system whose operation steps satisfy `cond`. -/
inductive Step (S : System Op Res ε σ ι Job Out) (cond : StepCondition Op Res ε σ ι Job Out) :
    Config Op Res ε σ ι Job Out → Config Op Res ε σ ι Job Out → Prop
  | start {c} (i : ι) (job : Job) :
      c.worker i = none →
      Step S cond c ⟨c.shared, Function.update c.worker i (some (job, S.body i job))⟩
  | call {c} (i : ι) {job : Job} {op : Op} {k : Except ε (Res op) → Prog Op Res ε Out}
      {r : Except ε (Res op)} {s' : σ} :
      c.worker i = some (job, .call op k) → cond c i op r → S.exec i job op c.shared r s' →
      Step S cond c ⟨s', Function.update c.worker i (some (job, k r))⟩
  | finish {c} (i : ι) {job : Job} {r : Except ε Out} :
      c.worker i = some (job, .ret r) →
      Step S cond c ⟨c.shared, Function.update c.worker i none⟩
  | crash {c} (i : ι) :
      S.mayCrash → Step S cond c ⟨c.shared, Function.update c.worker i none⟩
  | quiet {c} {s' : σ} :
      (∀ i, c.worker i = none) → S.quiet c.shared s' → Step S cond c ⟨s', c.worker⟩

/-- Runs of finitely many steps. -/
abbrev Reaches (S : System Op Res ε σ ι Job Out) (cond : StepCondition Op Res ε σ ι Job Out) :
    Config Op Res ε σ ι Job Out → Config Op Res ε σ ι Job Out → Prop :=
  Relation.ReflTransGen (S.Step cond)

/-- All workers idle on the shared state `s`. -/
def initial (s : σ) : Config Op Res ε σ ι Job Out := ⟨s, fun _ => none⟩

end System

/-! ## Sequential runs are runs -/

namespace System

variable [DecidableEq ι] {τ : Type} {S : System Op Res ε σ ι Job Out}
  {cond : StepCondition Op Res ε σ ι Job Out}

/-- A handler whose answers are steps of the system steps a worker's program on. -/
theorem reaches_steps {h : (op : Op) → τ → Except ε (Res op) × τ} {view : τ → σ} {ok : τ → Prop}
    {P : (op : Op) → Except ε (Res op) → Prop} {i : ι} {job : Job}
    {workers : ι → Option (Job × Prog Op Res ε Out)} (hok : ∀ op t, ok t → ok (h op t).2)
    (hexec : ∀ op t, ok t → S.exec i job op (view t) (h op t).1 (view (h op t).2))
    (hcond : ∀ c p op r, c.worker i = some (job, p) → P op r → cond c i op r)
    {p q : Prog Op Res ε Out} {t t' : τ} (ht : ok t)
    (hsteps : Prog.Steps h P p t q t') :
    S.Reaches cond ⟨view t, Function.update workers i (some (job, p))⟩
      ⟨view t', Function.update workers i (some (job, q))⟩ := by
  induction hsteps with
  | refl => exact .refl
  | @call op k t t' q hP _ ih =>
      have hstep := (@Step.call _ _ _ _ _ _ _ _ S cond) i
        (c := ⟨view t, Function.update workers i (some (job, .call op k))⟩)
        (Function.update_self i _ _) (hcond _ _ op _ (Function.update_self i _ _) hP)
        (hexec op t ht)
      rw [Function.update_idem] at hstep
      exact .head hstep (ih (hok op t ht))

/-- An idle worker runs a whole job. -/
theorem reaches_job {h : (op : Op) → τ → Except ε (Res op) × τ} {view : τ → σ} {ok : τ → Prop}
    {P : (op : Op) → Except ε (Res op) → Prop} {i : ι} {job : Job}
    {workers : ι → Option (Job × Prog Op Res ε Out)} (hidle : workers i = none)
    (hok : ∀ op t, ok t → ok (h op t).2)
    (hexec : ∀ op t, ok t → S.exec i job op (view t) (h op t).1 (view (h op t).2))
    (hcond : ∀ c p op r, c.worker i = some (job, p) → P op r → cond c i op r)
    {r : Except ε Out} {t t' : τ} (ht : ok t)
    (hsteps : Prog.Steps h P (S.body i job) t (.ret r) t') :
    S.Reaches cond ⟨view t, workers⟩ ⟨view t', workers⟩ := by
  have hstart := (@Step.start _ _ _ _ _ _ _ _ S cond ⟨view t, workers⟩) i job hidle
  have hrun := (@reaches_steps _ _ _ _ _ _ _ _ _ S _ _ _ _ _ _ _ workers) hok hexec hcond ht hsteps
  have hfinish := (@Step.finish _ _ _ _ _ _ _ _ S cond) i
    (c := ⟨view t', Function.update workers i (some (job, .ret r))⟩) (Function.update_self i _ _)
  rw [Function.update_idem, ← hidle, Function.update_eq_self] at hfinish
  exact (Relation.ReflTransGen.single hstart).trans (hrun.tail hfinish)

end System

/-- Ghost values of workers: the specification each job's program is checked against, the ghost of
an idle worker, the ghosts a job may start with, and what a returning job must have established. -/
structure Protocol (Op : Type) (Res : Op → Type) (ε Job γ : Type) where
  spec : Job → Spec Op Res ε γ
  idle : γ
  begin : Job → γ → Prop
  done : Job → γ → Prop

namespace Protocol

/-- A worker's remaining program meets its specification from its ghost value. -/
def Local (P : Protocol Op Res ε Job γ) (w : Option (Job × Prog Op Res ε Out)) (g : γ) : Prop :=
  match w with
  | none => g = P.idle
  | some (job, p) => Prog.wp (P.spec job) (fun _ => P.done job) p g

/-- The invariant holds and every worker's ghost value fits its remaining program. -/
structure Coherent (P : Protocol Op Res ε Job γ) (inv : σ → (ι → γ) → Prop)
    (c : Config Op Res ε σ ι Job Out) (g : ι → γ) : Prop where
  inv : inv c.shared g
  worker : ∀ i, P.Local (c.worker i) (g i)

variable [DecidableEq ι]

/-- Preservation of an invariant by the single steps of a system. -/
structure Preserves (P : Protocol Op Res ε Job γ) (S : System Op Res ε σ ι Job Out)
    (cond : StepCondition Op Res ε σ ι Job Out) (inv : σ → (ι → γ) → Prop) : Prop where
  body : ∀ i job x, P.begin job x → Prog.wp (P.spec job) (fun _ => P.done job) (S.body i job) x
  start : ∀ {s g} i job, inv s g → g i = P.idle →
    ∃ x, P.begin job x ∧ inv s (Function.update g i x)
  call : ∀ {c : Config Op Res ε σ ι Job Out} {g : ι → γ} {i : ι} {job : Job} {op : Op}
    {k : Except ε (Res op) → Prog Op Res ε Out} {r : Except ε (Res op)} {s' : σ},
    P.Coherent inv c g → c.worker i = some (job, .call op k) → (P.spec job).pre op (g i) →
    cond c i op r → S.exec i job op c.shared r s' →
    (P.spec job).allowed op (g i) r ∧
      inv s' (Function.update g i ((P.spec job).next op (g i) r))
  finish : ∀ {s g} i job, inv s g → P.done job (g i) → inv s (Function.update g i P.idle)
  crash : ∀ {s g} i, S.mayCrash → inv s g → inv s (Function.update g i P.idle)
  quiet : ∀ {s s'}, inv s (fun _ => P.idle) → S.quiet s s' → inv s' (fun _ => P.idle)

variable {P : Protocol Op Res ε Job γ} {S : System Op Res ε σ ι Job Out}
  {cond : StepCondition Op Res ε σ ι Job Out} {inv : σ → (ι → γ) → Prop}

/-- Updating one worker and its ghost value keeps the other workers coherent. -/
theorem local_update {c : Config Op Res ε σ ι Job Out} {g : ι → γ} (h : P.Coherent inv c g)
    (i : ι) {w : Option (Job × Prog Op Res ε Out)} {x : γ} (hx : P.Local w x) (j : ι) :
    P.Local (Function.update c.worker i w j) (Function.update g i x j) := by
  by_cases hj : j = i
  · subst hj
    simpa using hx
  · simpa [Function.update_of_ne hj] using h.worker j

/-- One step keeps a coherent configuration coherent, for some ghost values. -/
theorem step_coherent (hP : P.Preserves S cond inv) {c c' : Config Op Res ε σ ι Job Out}
    {g : ι → γ} (h : P.Coherent inv c g) (hstep : S.Step cond c c') :
    ∃ g', P.Coherent inv c' g' := by
  cases hstep with
  | start i job hidle =>
      have hg : g i = P.idle := by simpa [Local, hidle] using h.worker i
      obtain ⟨x, hx, hinv⟩ := hP.start i job h.inv hg
      exact ⟨_, hinv, local_update h i (w := some (job, _)) (hP.body i job x hx)⟩
  | @call i job op k r s' hw hcond hexec =>
      have hwp : Prog.wp (P.spec job) (fun _ => P.done job) (.call op k) (g i) := by
        simpa [Local, hw] using h.worker i
      obtain ⟨hallowed, hinv⟩ := hP.call h hw hwp.1 hcond hexec
      exact ⟨_, hinv, local_update h i (w := some (job, _)) (hwp.2 r hallowed)⟩
  | @finish i job r hw =>
      have hdone : P.done job (g i) := by simpa [Local, hw, Prog.wp] using h.worker i
      exact ⟨_, hP.finish i job h.inv hdone, local_update h i (w := none) rfl⟩
  | crash i hcrash =>
      exact ⟨_, hP.crash i hcrash h.inv, local_update h i (w := none) rfl⟩
  | quiet hidle hquiet =>
      have hg : g = fun _ => P.idle := by
        funext i
        simpa [Local, hidle i] using h.worker i
      subst hg
      exact ⟨_, hP.quiet h.inv hquiet, h.worker⟩

/-- **Every reachable configuration is coherent.** -/
theorem reaches_coherent (hP : P.Preserves S cond inv) {s : σ} (hs : inv s fun _ => P.idle)
    {c : Config Op Res ε σ ι Job Out} (hc : S.Reaches cond (System.initial s) c) :
    ∃ g, P.Coherent inv c g := by
  induction hc with
  | refl => exact ⟨fun _ => P.idle, hs, fun _ => rfl⟩
  | tail _ hstep ih =>
      obtain ⟨g, hg⟩ := ih
      exact step_coherent hP hg hstep

end Protocol

end Concurrency
