import Mathlib.Data.List.Forall2
import Mathlib.Logic.Basic

/-!
# Receipts and exceptions

The outcomes that calls of the delivery layer return or raise. Exceptions keep the message the
source gives them; an exception of a library or of a driver is `other`.
-/

set_option autoImplicit false

namespace Polymorph

/-- Durability outcome a connector attaches to a failed write. -/
inductive WriteOutcome where
  | notCommitted
  | unknown
  | partialWrite
deriving DecidableEq, Repr

/-- What a delivery receipt reports. -/
inductive DeliveryStatus where
  | delivered
  | duplicate
  | quarantined
  | ambiguous
deriving DecidableEq, Repr

/-- Evidence for one record, without what the audit and event sinks add to it. -/
structure DeliveryReceipt where
  status : DeliveryStatus
  tenant : String
  destinationConnector : String
  transferId : String
  recordId : String
  recordDigest : String
  planDigest : String
  reasonCode : Option String := none
  retrySafe : Bool := false
  batchAttemptId : Option String := none
deriving DecidableEq, Repr

/-- Raised exceptions. -/
inductive Exn where
  | polymorphError (message : String)
  | policyViolation (message : String)
  | mappingAmbiguous (message : String)
  | connectorError (message : String)
  | connectorWriteError (message : String) (outcome : WriteOutcome)
  | partialConnectorWriteError (message : String) (committedCount : Nat)
      (nextRecordOutcome : WriteOutcome)
  | integrityError (message : String)
  | protocolError (message : String)
  | replayDetected (message : String)
  | transferExpired (message : String)
  | valueError (message : String)
  | typeError (message : String)
  | keyError (message : String)
  | overflowError (message : String)
  | unicodeError (message : String)
  | recursionError
  | deliveryBatchInterrupted (completedReceipts : List DeliveryReceipt)
  | other (description : String)
deriving DecidableEq

/-- `except IntegrityError`. -/
def Exn.isIntegrityError : Exn → Bool
  | .integrityError _ => true
  | _ => false

/-- `except ConnectorWriteError` with its outcome; a partial write error carries `PARTIAL`. -/
def Exn.writeOutcome? : Exn → Option WriteOutcome
  | .connectorWriteError _ outcome => some outcome
  | .partialConnectorWriteError _ _ _ => some .partialWrite
  | _ => none

/-- The exception is a proof that nothing was written. -/
def Exn.provesNotCommitted (e : Exn) : Bool := e.writeOutcome? = some .notCommitted

/-! ## Running checks -/

theorem ok_bind {α β : Type} (a : α) (f : α → Except Exn β) : (Except.ok a >>= f) = f a := rfl

theorem bind_eq_ok {ε α β : Type} {x : Except ε α} {f : α → Except ε β} {b : β}
    (h : (x >>= f) = .ok b) : ∃ a, x = .ok a ∧ f a = .ok b := by
  cases x with
  | error e => cases h
  | ok a => exact ⟨a, rfl, h⟩

/-- A check that raises, in a program that returned. -/
theorem guard_eq_ok {ε α β : Type} {c : Prop} [Decidable c] {e : ε} {f : α → Except ε β}
    {x : Except ε β} {b : β}
    (h : (if c then (throw e : Except ε α) >>= f else x) = .ok b) : ¬c ∧ x = .ok b := by
  split at h
  · cases h
  · rename_i hc
    exact ⟨hc, h⟩

/-- An item of the left list has a partner in the right list. -/
theorem forall₂_partner {α β : Type} {R : α → β → Prop} {l : List α} {l' : List β}
    (h : List.Forall₂ R l l') {a : α} (ha : a ∈ l) : ∃ b ∈ l', R a b := by
  induction h with
  | nil => cases ha
  | cons hab _ ih =>
      rcases List.mem_cons.1 ha with rfl | ha
      · exact ⟨_, List.mem_cons_self, hab⟩
      · obtain ⟨b, hb, hr⟩ := ih ha
        exact ⟨b, List.mem_cons_of_mem _ hb, hr⟩

/-- An item of the right list has a partner in the left list. -/
theorem forall₂_partner_right {α β : Type} {R : α → β → Prop} {l : List α} {l' : List β}
    (h : List.Forall₂ R l l') {b : β} (hb : b ∈ l') : ∃ a ∈ l, R a b :=
  forall₂_partner h.flip hb

theorem exists_forall₂ {α β : Type} {R : α → β → Prop} {l : List α} (h : ∀ a ∈ l, ∃ b, R a b) :
    ∃ l', List.Forall₂ R l l' := by
  induction l with
  | nil => exact ⟨[], .nil⟩
  | cons a l ih =>
      obtain ⟨b, hb⟩ := h a List.mem_cons_self
      obtain ⟨bs, hbs⟩ := ih fun a ha => h a (List.mem_cons_of_mem _ ha)
      exact ⟨b :: bs, .cons hb hbs⟩

/-- A loop that returned has called its body on every item, in order. -/
theorem forall₂_of_mapM {α β : Type} {f : α → Except Exn β} {l : List α} {l' : List β}
    (h : l.mapM f = .ok l') : List.Forall₂ (fun a b => f a = .ok b) l l' := by
  induction l generalizing l' with
  | nil =>
      cases h
      exact .nil
  | cons a l ih =>
      rw [List.mapM_cons] at h
      obtain ⟨b, hb, h⟩ := bind_eq_ok h
      obtain ⟨bs, hbs, h⟩ := bind_eq_ok h
      cases h
      exact .cons hb (ih hbs)

theorem mapM_of_forall₂ {α β : Type} {f : α → Except Exn β} {l : List α} {l' : List β}
    (h : List.Forall₂ (fun a b => f a = .ok b) l l') : l.mapM f = .ok l' := by
  induction h with
  | nil => rfl
  | cons hb _ ih =>
      rw [List.mapM_cons, hb, ih]
      rfl

/-! ## What a program may raise -/

/-- Every exception of the program satisfies `P`. -/
def Raises {α : Type} (P : Exn → Prop) (x : Except Exn α) : Prop := ∀ e, x = .error e → P e

section Raises

variable {α β : Type} {P Q : Exn → Prop}

theorem raises_ok (a : α) : Raises P (.ok a) := nofun

theorem raises_pure (a : α) : Raises P (pure a : Except Exn α) := nofun

theorem raises_error {e : Exn} (h : P e) : Raises P (.error e : Except Exn α) := by
  rintro e' ⟨rfl⟩
  exact h

theorem raises_throw {e : Exn} (h : P e) : Raises P (throw e : Except Exn α) := raises_error h

theorem Raises.mono {x : Except Exn α} (h : Raises P x) (hPQ : ∀ e, P e → Q e) : Raises Q x :=
  fun e he => hPQ e (h e he)

theorem Raises.bind {x : Except Exn α} {f : α → Except Exn β} (hx : Raises P x)
    (hf : ∀ a, x = .ok a → Raises P (f a)) : Raises P (x >>= f) := by
  cases x with
  | error e => exact raises_error (hx e rfl)
  | ok a => exact hf a rfl

theorem Raises.map {x : Except Exn α} (f : α → β) (hx : Raises P x) : Raises P (f <$> x) := by
  cases x with
  | error e => exact raises_error (hx e rfl)
  | ok a => exact raises_ok (f a)

theorem raises_ite {c : Prop} [Decidable c] {x y : Except Exn α} (hx : c → Raises P x)
    (hy : ¬c → Raises P y) : Raises P (if c then x else y) := by
  split
  · exact hx ‹_›
  · exact hy ‹_›

/-- A check that raises, before the rest of a program. -/
theorem raises_guard {c : Prop} [Decidable c] {e : Exn} {f : α → Except Exn β}
    {x : Except Exn β} (he : P e) (hx : Raises P x) :
    Raises P (if c then (throw e : Except Exn α) >>= f else x) :=
  raises_ite (fun _ => raises_throw he) fun _ => hx

theorem raises_mapM {f : α → Except Exn β} {l : List α} (h : ∀ a ∈ l, Raises P (f a)) :
    Raises P (l.mapM f) := by
  induction l with
  | nil => exact raises_pure []
  | cons a l ih =>
      rw [List.mapM_cons]
      refine (h a List.mem_cons_self).bind fun b _ => ?_
      refine (ih fun a ha => h a (List.mem_cons_of_mem _ ha)).bind fun bs _ => ?_
      exact raises_pure _

end Raises

end Polymorph
