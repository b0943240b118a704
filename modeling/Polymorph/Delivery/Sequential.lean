import Polymorph.Delivery.RuntimeSystem

/-!
# One worker on its own

`Services` answers every call of the runtime by a function: the agent, the resolver and the
connector by their arguments, the stores by executing the call at the next clock reading. Running a
program against them is the sequential semantics of the entry points, and every answer is a step of
the interleaved system.
-/

set_option autoImplicit false

namespace Polymorph

open Concurrency

/-- The answers that are functions of the arguments of a call. -/
structure Agent where
  authorizeRecord : BlindTransportRecord → Except Exn PrivateKey
  authorizeCapability : CapabilityOperation → BlindTransportRecord → Except Exn Unit
  openRecord : BlindTransportRecord → PrivateKey → Except Exn Payload
  resolveForeignKey : String → String → PyValue → Except Exn PyValue

/-- What one worker meets. -/
structure Services extends Agent where
  writeRecords : BlindTransportRecord → Payload → Except Exn (Option Int)
  writeBatch : List (BlindTransportRecord × BatchWriteItem) → Except Exn (Option Int)
  /-- The clock at the `n`-th store call. -/
  clock : Nat → Utc.Instant
  /-- The claim tokens the `n`-th store call draws. -/
  claimToken : Nat → Nat → String
  /-- The batch attempt id the `n`-th store call draws. -/
  batchAttemptId : Nat → String

/-- The shared state, the number of store calls so far, and what the connector was handed. -/
structure Session where
  world : World
  storeCalls : Nat := 0
  handed : List (Payload × String) := []

/-- Answer and state of a transaction. -/
def storeAnswer {σ α : Type} : EStateM.Result Exn σ α → Except Exn α × σ
  | .ok a s => (.ok a, s)
  | .error e s => (.error e, s)

theorem storeStep_storeAnswer {σ α : Type} (fails : Prop) (p : EStateM Exn σ α) (s : σ) :
    StoreStep fails p s (storeAnswer (p s)).1 (storeAnswer (p s)).2 := by
  cases h : p s with
  | ok a s' => exact .returned h
  | error e s' => exact .raised h

namespace Services

variable (H : Host) (spool : SpoolConfig) (S : Services) (job : Job)

/-- What the `n`-th store call draws. -/
def inputs (n : Nat) : LedgerInputs :=
  { clock := .ok (.aware (S.clock n)), claimToken := S.claimToken n
    batchAttemptId := S.batchAttemptId n }

/-- A ledger call. -/
def answerLedger (c : LedgerCall) (s : Session) : Except Exn c.Answer × Session :=
  let answer := storeAnswer (c.exec H (S.inputs s.storeCalls) s.world.ledger)
  (answer.1, { s with
    world := { s.world with ledger := answer.2 }, storeCalls := s.storeCalls + 1 })

/-- A spool call, given the clock reading. -/
def answerSpool {α : Type} (p : Utc.Instant → SpoolM α) (s : Session) : Except Exn α × Session :=
  let answer := storeAnswer (p (S.clock s.storeCalls) s.world.spool)
  (answer.1, { s with
    world := { s.world with spool := answer.2 }, storeCalls := s.storeCalls + 1 })

/-- The answer to one call of a worker that runs `job`. -/
def answer : (op : Op) → Session → Except Exn op.Res × Session
  | .capabilities, s => (.ok s.world.capabilities, s)
  | .authorizeRecord record, s => (S.authorizeRecord record, s)
  | .authorizeCapability operation record, s => (S.authorizeCapability operation record, s)
  | .openRecord record privateKey, s => (S.openRecord record privateKey, s)
  | .resolveForeignKey targetFieldId matchColumn value, s =>
      (S.resolveForeignKey targetFieldId matchColumn value, s)
  | .ledger c, s => S.answerLedger H c s
  | .quarantine records reasonCode, s =>
      S.answerSpool
        (fun instant => SealedSpool.quarantineMany H spool instant records reasonCode) s
  | .spoolGet recordDigest, s =>
      S.answerSpool (fun _ => SealedSpool.getRecord H spool recordDigest) s
  | .remove recordDigests, s => S.answerSpool (fun _ => SealedSpool.removeMany recordDigests) s
  | .writeRecords record values context, s =>
      let outcome := S.writeRecords record values
      (outcome, { s with
        world := { s.world with
          attempts := ⟨job, [record], false, s.world.capabilities, outcome⟩ :: s.world.attempts }
        handed := s.handed ++ [(values, context.idempotencyKey)] })
  | .writeBatch items, s =>
      let outcome := S.writeBatch items
      (outcome, { s with
        world := { s.world with
          attempts := ⟨job, items.map Prod.fst, true, s.world.capabilities, outcome⟩ ::
            s.world.attempts }
        handed := s.handed ++ items.map fun item =>
          (item.2.values, item.2.context.idempotencyKey) })

/-- Every answer is a step of the interleaved system. -/
theorem exec_answer (E : Environment) (hspool : E.spool = spool)
    (op : Op) (s : Session) (hadvertised : E.advertised s.world s.world.capabilities) :
    World.Exec H E job op s.world (S.answer H spool job op s).1
      (S.answer H spool job op s).2.world := by
  subst hspool
  cases op with
  | capabilities => exact .capabilities fun caps h => (Except.ok.inj h) ▸ hadvertised
  | authorizeRecord record => exact .authorizeRecord record _
  | authorizeCapability operation record => exact .authorizeCapability operation record _
  | openRecord record privateKey => exact .openRecord record privateKey _
  | resolveForeignKey targetFieldId matchColumn value =>
      exact .resolveForeignKey targetFieldId matchColumn value _
  | ledger c => exact .ledger c (S.inputs s.storeCalls) (storeStep_storeAnswer _ _ _)
  | quarantine records reasonCode =>
      exact .quarantine records reasonCode (S.clock s.storeCalls) (storeStep_storeAnswer _ _ _)
  | spoolGet recordDigest => exact .spoolGet recordDigest (storeStep_storeAnswer _ _ _)
  | remove recordDigests => exact .remove recordDigests (storeStep_storeAnswer _ _ _)
  | writeRecords record values context => exact .writeRecords record values context _
  | writeBatch items => exact .writeBatch items _

/-- No answer changes what the connector advertises. -/
theorem answer_capabilities (op : Op) (s : Session) :
    (S.answer H spool job op s).2.world.capabilities = s.world.capabilities := by
  cases op <;> rfl

/-- A run against the services. -/
abbrev run {α : Type} (p : RuntimeM α) (s : Session) : Except Exn α × Session :=
  Prog.run (S.answer H spool job) p s

/-- Steps against the services. -/
abbrev Steps {α : Type} (P : (op : Op) → Except Exn op.Res → Prop) (p : RuntimeM α) (s : Session)
    (q : RuntimeM α) (s' : Session) : Prop :=
  Prog.Steps (S.answer H spool job) P p s q s'

section Reaches

variable {H spool S job} {ι : Type} [DecidableEq ι] {E : Environment} {rt : ι → DestinationRuntime}
  {allowed : Job → Prop} {P : (op : Op) → Except Exn op.Res → Prop}
  {cond : StepCondition Op Op.Res Exn World ι {job : Job // allowed job} (List DeliveryReceipt)}
  {workers : ι → Option ({job : Job // allowed job} × RuntimeM (List DeliveryReceipt))} {i : ι}
  {capabilities : ConnectorCapabilities}
  (hadvertised : ∀ w, w.capabilities = capabilities → E.advertised w capabilities)

include hadvertised

/-- Steps of one worker are steps of the interleaved system. -/
theorem reaches_steps {job : {job : Job // allowed job}}
    (hcond : ∀ c p op r, c.worker i = some (job, p) → P op r → cond c i op r) {s s' : Session}
    {p q : RuntimeM (List DeliveryReceipt)} (hs : s.world.capabilities = capabilities)
    (hsteps : S.Steps H E.spool job.1 P p s q s') :
    (runtimeSystem H E rt allowed).Reaches cond
      ⟨s.world, Function.update workers i (some (job, p))⟩
      ⟨s'.world, Function.update workers i (some (job, q))⟩ :=
  (@System.reaches_steps _ _ _ _ _ _ _ _ _ (runtimeSystem H E rt allowed) _ _ Session.world
      (fun s => s.world.capabilities = capabilities))
    (fun op s hs => (S.answer_capabilities H E.spool job.1 op s).trans hs)
    (fun op s hs => S.exec_answer H E.spool job.1 E rfl op s (hs ▸ hadvertised _ hs)) hcond hs
    hsteps

/-- A job that one worker runs alone is a run of the interleaved system. -/
theorem reaches_job (job : {job : Job // allowed job})
    (hcond : ∀ c p op r, c.worker i = some (job, p) → P op r → cond c i op r)
    (hidle : workers i = none)
    {s s' : Session} {receipts : List DeliveryReceipt}
    (hs : s.world.capabilities = capabilities)
    (hsteps : S.Steps H E.spool job.1 P (job.1.body H (rt i)) s (pure receipts) s') :
    (runtimeSystem H E rt allowed).Reaches cond ⟨s.world, workers⟩ ⟨s'.world, workers⟩ :=
  (@System.reaches_job _ _ _ _ _ _ _ _ _ (runtimeSystem H E rt allowed) _ _ Session.world
      (fun s => s.world.capabilities = capabilities)) hidle
    (fun op s hs => (S.answer_capabilities H E.spool job.1 op s).trans hs)
    (fun op s hs => S.exec_answer H E.spool job.1 E rfl op s (hs ▸ hadvertised _ hs)) hcond hs
    hsteps

end Reaches

end Services

end Polymorph
