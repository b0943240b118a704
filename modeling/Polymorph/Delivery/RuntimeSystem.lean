import Polymorph.Concurrency.Interleaving
import Polymorph.Delivery.RuntimeRules

/-!
# Runtimes sharing one ledger, one spool and one connector

`runtimeSystem` runs any number of workers, each with its own `DestinationRuntime`, on one shared
`World`. One ledger, spool or connector call is one atomic step. An `Environment` says what the
connector may advertise, whether a store call may fail (before or after its effect), whether a
worker may crash between two calls, and what may change while every worker is idle. The world keeps
the history of connector write attempts; the code never reads it.
-/

set_option autoImplicit false

namespace Polymorph

open Concurrency

/-- A call of an entry point. -/
inductive Job where
  | deliver (record : BlindTransportRecord)
  | deliverMany (records : List BlindTransportRecord)
  | replay (recordDigest : String) (forceUncertain : Bool)

/-- The program of a job. -/
def Job.body (H : Host) (rt : DestinationRuntime) : Job → RuntimeM (List DeliveryReceipt)
  | .deliver record => do
      let r ← rt.deliver H record
      pure [r]
  | .deliverMany records => rt.deliverMany H records
  | .replay recordDigest forceUncertain => do
      let r ← rt.replay H recordDigest forceUncertain
      pure [r]

/-- One call of `write_records` or `write_batch`. -/
structure WriteAttempt where
  job : Job
  records : List BlindTransportRecord
  batch : Bool
  capabilities : ConnectorCapabilities
  outcome : Except Exn (Option Int)

/-- An outcome that proves that nothing was written. -/
def provenNotCommitted : Except Exn (Option Int) → Bool
  | .ok _ => false
  | .error e => e.provesNotCommitted

/-- The attempt may have written the record of this identity. -/
def WriteAttempt.unproven (a : WriteAttempt) (key : DeliveryKey) : Bool :=
  a.records.any (fun r => r.key = key) && !provenNotCommitted a.outcome

/-- The shared state, with the write attempts, latest first. -/
structure World where
  ledger : Ledger := Ledger.empty
  spool : Spool := Spool.empty
  capabilities : ConnectorCapabilities
  attempts : List WriteAttempt := []

/-- Number of attempts that may have written the record of an identity. -/
def World.unprovenAttempts (w : World) (key : DeliveryKey) : Nat :=
  w.attempts.countP fun a => a.unproven key

/-- What surrounds the workers. -/
structure Environment where
  spool : SpoolConfig
  /-- The capabilities a read may see. -/
  advertised : World → ConnectorCapabilities → Prop
  /-- Store calls may fail. -/
  storesFail : Prop
  /-- Workers may crash. -/
  mayCrash : Prop
  /-- Changes while every worker is idle. -/
  quiet : World → World → Prop

/-- One store call: it answers, or it fails before or after its effect. A failure of the store is
not the ledger's `IntegrityError`. -/
inductive StoreStep {σ α : Type} (fails : Prop) (p : EStateM Exn σ α) (s : σ) :
    Except Exn α → σ → Prop
  | returned {a : α} {s' : σ} : p s = .ok a s' → StoreStep fails p s (.ok a) s'
  | raised {e : Exn} {s' : σ} : p s = .error e s' → StoreStep fails p s (.error e) s'
  | failed {e : Exn} : fails → e.isIntegrityError = false → StoreStep fails p s (.error e) s
  | failedAfter {a : α} {e : Exn} {s' : σ} :
      fails → e.isIntegrityError = false → p s = .ok a s' → StoreStep fails p s (.error e) s'

/-- One call of a worker on the shared state. -/
inductive World.Exec (H : Host) (E : Environment) (job : Job) :
    (op : Op) → World → Except Exn op.Res → World → Prop
  | capabilities {w : World} {r : Except Exn ConnectorCapabilities} :
      (∀ caps, r = .ok caps → E.advertised w caps) → World.Exec H E job .capabilities w r w
  | authorizeRecord {w : World} (record : BlindTransportRecord) (r : Except Exn PrivateKey) :
      World.Exec H E job (.authorizeRecord record) w r w
  | authorizeCapability {w : World} (operation : CapabilityOperation)
      (record : BlindTransportRecord) (r : Except Exn Unit) :
      World.Exec H E job (.authorizeCapability operation record) w r w
  | openRecord {w : World} (record : BlindTransportRecord) (privateKey : PrivateKey)
      (r : Except Exn Payload) : World.Exec H E job (.openRecord record privateKey) w r w
  | resolveForeignKey {w : World} (targetFieldId matchColumn : String) (value : PyValue)
      (r : Except Exn PyValue) :
      World.Exec H E job (.resolveForeignKey targetFieldId matchColumn value) w r w
  | ledger {w : World} (c : LedgerCall) (inputs : LedgerInputs) {r : Except Exn c.Answer}
      {ledger' : Ledger} :
      StoreStep E.storesFail (c.exec H inputs) w.ledger r ledger' →
      World.Exec H E job (.ledger c) w r { w with ledger := ledger' }
  | quarantine {w : World} (records : List BlindTransportRecord) (reasonCode : String)
      (instant : Utc.Instant) {r : Except Exn Unit} {spool' : Spool} :
      StoreStep E.storesFail (SealedSpool.quarantineMany H E.spool instant records reasonCode)
        w.spool r spool' →
      World.Exec H E job (.quarantine records reasonCode) w r { w with spool := spool' }
  | spoolGet {w : World} (recordDigest : String)
      {r : Except Exn (Option BlindTransportRecord)} {spool' : Spool} :
      StoreStep E.storesFail (SealedSpool.getRecord H E.spool recordDigest) w.spool r spool' →
      World.Exec H E job (.spoolGet recordDigest) w r { w with spool := spool' }
  | remove {w : World} (recordDigests : List String) {r : Except Exn Nat} {spool' : Spool} :
      StoreStep E.storesFail (SealedSpool.removeMany recordDigests) w.spool r spool' →
      World.Exec H E job (.remove recordDigests) w r { w with spool := spool' }
  | writeRecords {w : World} (record : BlindTransportRecord) (values : Payload)
      (context : DeliveryContext) (r : Except Exn (Option Int)) :
      World.Exec H E job (.writeRecords record values context) w r
        { w with attempts := ⟨job, [record], false, w.capabilities, r⟩ :: w.attempts }
  | writeBatch {w : World} (items : List (BlindTransportRecord × BatchWriteItem))
      (r : Except Exn (Option Int)) :
      World.Exec H E job (.writeBatch items) w r
        { w with
          attempts := ⟨job, items.map Prod.fst, true, w.capabilities, r⟩ :: w.attempts }

/-- Workers `ι` with their runtimes, running the jobs that satisfy `allowed`. -/
def runtimeSystem (H : Host) (E : Environment) {ι : Type} (rt : ι → DestinationRuntime)
    (allowed : Job → Prop) :
    System Op Op.Res Exn World ι {job : Job // allowed job} (List DeliveryReceipt) where
  body i job := job.1.body H (rt i)
  exec _ job op w r w' := World.Exec H E job.1 op w r w'
  quiet := E.quiet
  mayCrash := E.mayCrash

/-- Runs without a step condition. -/
def anyStep {ι : Type} {allowed : Job → Prop} :
    StepCondition Op Op.Res Exn World ι {job : Job // allowed job} (List DeliveryReceipt) :=
  fun _ _ _ _ => True

/-! ## Values per identity -/

/-- A value for every identity. -/
abbrev Phases (φ : Type) := DeliveryKey → φ

namespace Phases

variable {φ : Type} {keys : List DeliveryKey} {phase : φ} {g : Phases φ} {key : DeliveryKey}

/-- The given identities set to one value. -/
def assign (keys : List DeliveryKey) (phase : φ) (g : Phases φ) : Phases φ :=
  fun key => if key ∈ keys then phase else g key

theorem assign_mem (h : key ∈ keys) : assign keys phase g key = phase := if_pos h

theorem assign_notMem (h : key ∉ keys) : assign keys phase g key = g key := if_neg h

end Phases

/-! ## What a store step can have done -/

section StoreSteps

variable {H : Host} {fails : Prop}

/-- A ledger step moves every row as the call does, whatever it answers. -/
theorem storeStep_rowMove {c : LedgerCall} {inputs : LedgerInputs} {s s' : Ledger}
    {r : Except Exn c.Answer} (h : StoreStep fails (c.exec H inputs) s r s')
    (key : DeliveryKey) : LedgerCall.RowMove H inputs c key (s key) (s' key) := by
  cases h with
  | returned h => exact LedgerCall.exec_rowMove H h key
  | raised h =>
      rw [LedgerCall.exec_atomic H inputs c s _ _ h]
      exact .same _
  | failed => exact .same _
  | failedAfter _ _ h => exact LedgerCall.exec_rowMove H h key

/-- A ledger step that answers `IntegrityError` left the table alone. -/
theorem storeStep_integrityError {c : LedgerCall} {inputs : LedgerInputs} {s s' : Ledger}
    {message : String}
    (h : StoreStep fails (c.exec H inputs) s (.error (.integrityError message)) s') : s' = s := by
  cases h with
  | raised h => exact LedgerCall.exec_atomic H inputs c s _ _ h
  | failed => rfl
  | failedAfter _ hintegrity => cases hintegrity

/-- A ledger step that answers a value executed the call. -/
theorem storeStep_ok {σ α : Type} {p : EStateM Exn σ α} {s s' : σ} {a : α}
    (h : StoreStep fails p s (.ok a) s') : p s = .ok a s' := by
  cases h with
  | returned h => exact h

/-- A store call that only reads changes nothing, whatever it answers. -/
theorem storeStep_readOnly {σ α : Type} {p : EStateM Exn σ α} {s s' : σ} {r : Except Exn α}
    (hp : Transaction.ReadOnly p) (h : StoreStep fails p s r s') : s' = s := by
  cases h with
  | returned h => exact hp.1 _ _ _ h
  | raised h => exact hp.2 _ _ _ h
  | failed => rfl
  | failedAfter _ _ h => exact hp.1 _ _ _ h

end StoreSteps

end Polymorph
