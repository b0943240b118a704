import Polymorph.Delivery.Ledger

/-!
# Connector capabilities

What a destination connector advertises, with the checks of the constructors as fields, and the
idempotency contract a scalar or a batch write may rely on.
-/

set_option autoImplicit false

namespace Polymorph

/-- `AtomicBatchCapabilities` -/
structure AtomicBatchCapabilities where
  maxRecords : Nat
  maxWireBytes : Nat
  perItemIdempotencyAcrossBatchAndScalar : Bool := false
  positive : 0 < maxRecords ∧ 0 < maxWireBytes := by decide
deriving DecidableEq

/-- `ConnectorCapabilities`: an idempotent connector names a contract, any other names none. -/
structure ConnectorCapabilities where
  readSchema : Bool := true
  readRecords : Bool := false
  writeRecords : Bool := false
  transactionalWrite : Bool := false
  supportsIdempotency : Bool := false
  idempotencyContractId : Option String := none
  atomicBatchWrite : Option AtomicBatchCapabilities := none
  contract : supportsIdempotency = idempotencyContractId.isSome := by rfl
deriving DecidableEq

/-- `_scalar_idempotency_contract_id` -/
def scalarIdempotencyContractId (c : ConnectorCapabilities) : Option String :=
  if c.supportsIdempotency then c.idempotencyContractId else none

/-- `_batch_idempotency_contract_id` -/
def batchIdempotencyContractId (c : ConnectorCapabilities) : Option String :=
  match c.atomicBatchWrite with
  | some batch =>
      if c.supportsIdempotency && batch.perItemIdempotencyAcrossBatchAndScalar then
        c.idempotencyContractId
      else none
  | none => none

theorem batchIdempotencyContractId_eq {c : ConnectorCapabilities} {contractId : String}
    (h : batchIdempotencyContractId c = some contractId) :
    scalarIdempotencyContractId c = some contractId ∧
      ∃ batch, c.atomicBatchWrite = some batch ∧
        batch.perItemIdempotencyAcrossBatchAndScalar = true := by
  unfold batchIdempotencyContractId at h
  split at h
  · rename_i batch hbatch
    split at h
    · rename_i hboth
      rw [Bool.and_eq_true] at hboth
      refine ⟨?_, batch, hbatch, hboth.2⟩
      simp only [scalarIdempotencyContractId, hboth.1, if_true, h]
    · cases h
  · cases h

end Polymorph
