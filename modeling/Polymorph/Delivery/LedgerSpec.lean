import Polymorph.Delivery.Ledger

/-!
# What a ledger call does to the rows

One statement of `claim_many`, `_transition_many` and `rearm_for_retry` touches the row under one
key and depends on that row only: `claimOutcome` and `rearmOutcome` are these effects as functions
of the row.
-/

set_option autoImplicit false

namespace Polymorph

open Transaction Utc

namespace DeliveryLedger

variable (H : Host)

/-! ## Statements on one row -/

theorem selectRow_apply (key : DeliveryKey) (s : Ledger) :
    selectRow key s = .ok (s key) s := rfl

theorem insertRow_apply (key : DeliveryKey) (row : LedgerRow) (s : Ledger) :
    insertRow key row s = .ok () (Function.update s key (some row)) := rfl

theorem updateRow_apply (key : DeliveryKey) (cond : LedgerRow → Bool)
    (change : LedgerRow → LedgerRow) (s : Ledger) :
    updateRow key cond change s =
      match s key with
      | some row =>
          if cond row then .ok 1 (Function.update s key (some (change row))) else .ok 0 s
      | none => .ok 0 s := by
  unfold updateRow
  rw [bind_apply, get_apply]
  cases hrow : s key with
  | none => simp only [hrow, pure_apply]
  | some row =>
      simp only [hrow]
      split <;> rfl

/-- A fresh row of a first claim. -/
def freshRow (instant claimExpiresAt : Instant) (record : BlindTransportRecord)
    (claimToken : String) : LedgerRow :=
  { recordDigest := record.digest H, planDigest := record.planDigest, state := .claimed
    createdAt := instant, updatedAt := instant, claimToken := some claimToken
    claimExpiresAt := some claimExpiresAt }

/-- A stale claim taken over. -/
def reclaimedRow (instant claimExpiresAt : Instant) (claimToken : String) (row : LedgerRow) :
    LedgerRow :=
  { row with
    claimToken := some claimToken, claimExpiresAt := some claimExpiresAt
    updatedAt := instant, reasonCode := none }

/-- Answer and row of one record of `claim_many`, as a function of the row it finds. -/
def claimOutcome (instant claimExpiresAt : Instant) (record : BlindTransportRecord)
    (claimToken : String) : Option LedgerRow → Except Exn (ClaimResult × LedgerRow)
  | none =>
      .ok (⟨.new, .claimed, record.digest H, some claimToken, some claimExpiresAt, none⟩,
        freshRow H instant claimExpiresAt record claimToken)
  | some row =>
      if row.recordDigest ≠ record.digest H ∨ row.planDigest ≠ record.planDigest then
        .error
          (.replayDetected "transfer identity was reused with different authenticated content")
      else
        match batchAttemptFromRow row, idempotencyContractFromRow H row with
        | .error e, _ => .error e
        | .ok _, .error e => .error e
        | .ok batchAttemptId, .ok _ =>
            let ambiguous : ClaimResult :=
              ⟨.ambiguous, row.state, record.digest H, none, none, batchAttemptId⟩
            match row.state, fencing row with
            | .committed, _ =>
                .ok (⟨.alreadyCommitted, .committed, record.digest H, none, none, batchAttemptId⟩,
                  row)
            | .claimed, some (_, previousExpiry) =>
                if instant < previousExpiry then
                  .ok (⟨.inProgress, .claimed, record.digest H, none, some previousExpiry,
                    batchAttemptId⟩, row)
                else
                  .ok (⟨.recovered, .claimed, record.digest H, some claimToken,
                    some claimExpiresAt, batchAttemptId⟩,
                    reclaimedRow instant claimExpiresAt claimToken row)
            | .replayClaimed, some (_, previousExpiry) =>
                if instant < previousExpiry then
                  .ok (⟨.inProgress, .replayClaimed, record.digest H, none, some previousExpiry,
                    batchAttemptId⟩, row)
                else .ok (ambiguous, row)
            | _, _ => .ok (ambiguous, row)

theorem fencing_eq_some {row : LedgerRow} {token : String} {expires : Instant}
    (h : fencing row = some (token, expires)) :
    row.claimToken = some token ∧ row.claimExpiresAt = some expires := by
  unfold fencing at h
  split at h
  · rename_i token' expires' htoken hexpires
    split at h
    · cases h
    · cases h
      exact ⟨htoken, hexpires⟩
  · cases h

/-- One record of `claim_many` reads and writes only the row under its key. -/
theorem claimRecord_apply (instant claimExpiresAt : Instant) (record : BlindTransportRecord)
    (claimToken : String) (s : Ledger) :
    claimRecord H instant claimExpiresAt record claimToken s =
      match claimOutcome H instant claimExpiresAt record claimToken (s record.key) with
      | .ok (result, row) => .ok result (Function.update s record.key (some row))
      | .error e => .error e s := by
  unfold claimRecord
  rw [bind_apply, selectRow_apply]
  cases hrow : s record.key with
  | none => rfl
  | some row =>
      have hsame : Function.update s record.key (some row) = s := by
        rw [← hrow, Function.update_eq_self]
      simp only [claimOutcome]
      by_cases hmismatch : row.recordDigest ≠ record.digest H ∨ row.planDigest ≠ record.planDigest
      · simp only [hmismatch, if_true, bind_apply, throw_apply]
      · rw [not_or, not_not, not_not] at hmismatch
        simp only [hmismatch.1, hmismatch.2, ne_eq, not_true_eq_false, or_self, if_false,
          bind_apply, lift_apply]
        cases batchAttemptFromRow row with
        | error e => rfl
        | ok batchAttemptId =>
            cases idempotencyContractFromRow H row with
            | error e => rfl
            | ok contractId =>
                cases hstate : row.state <;> cases hfence : fencing row
                all_goals simp only [pure_apply, hsame]
                · rename_i fence
                  obtain ⟨previousToken, previousExpiry⟩ := fence
                  obtain ⟨htoken, hexpires⟩ := fencing_eq_some hfence
                  by_cases hlt : instant < previousExpiry
                  · simp only [hlt, if_true, pure_apply, hsame]
                  · simp only [hlt, if_false, bind_apply, updateRow_apply, hrow, hmismatch.1,
                      hmismatch.2, hstate, htoken, hexpires, decide_true, Bool.and_self, if_true,
                      not_true_eq_false, if_false, pure_apply, reclaimedRow]
                · rename_i fence
                  obtain ⟨previousToken, previousExpiry⟩ := fence
                  by_cases hlt : instant < previousExpiry
                  · simp only [hlt, if_true, pure_apply, hsame]
                  · simp only [hlt, if_false, pure_apply, hsame]

/-- One fenced update reads and writes only the row under its key. -/
theorem transitionRecord_apply (instant : Instant) (t : Transition) (message : String)
    (record : BlindTransportRecord) (claimToken : String) (s : Ledger) :
    transitionRecord H instant t message record claimToken s =
      match s record.key with
      | some row =>
          if t.applies H instant record claimToken row then
            .ok () (Function.update s record.key (some (t.change instant row)))
          else .error (.integrityError message) s
      | none => .error (.integrityError message) s := by
  unfold transitionRecord
  rw [bind_apply, updateRow_apply]
  cases hrow : s record.key with
  | none => rfl
  | some row =>
      by_cases happlies : t.applies H instant record claimToken row = true
      · simp only [happlies, if_true]
        rfl
      · simp only [happlies]
        rfl

/-- The row after a retry was armed. -/
def rearmedRow (instant claimExpiresAt : Instant) (claimToken : String) (row : LedgerRow) :
    LedgerRow :=
  { row with
    state := rearmTarget row.state, updatedAt := instant
    claimToken := some claimToken, claimExpiresAt := some claimExpiresAt }

/-- Answer and row of `rearm_for_retry`, as a function of the row it finds. -/
def rearmOutcome (instant claimExpiresAt : Instant) (claimToken : String)
    (record : BlindTransportRecord) (expectedState : DeliveryState) :
    Option LedgerRow → Except Exn (ClaimResult × LedgerRow)
  | none => .error (.integrityError "invalid delivery ledger retry transition")
  | some row =>
      if row.recordDigest ≠ record.digest H ∨ row.planDigest ≠ record.planDigest ∨
          row.state ≠ expectedState then
        .error (.integrityError "invalid delivery ledger retry transition")
      else if expectedState ∈ [DeliveryState.claimed, .replayClaimed] ∧
          (fencing row).any (fun fence => instant < fence.2) then
        .error (.integrityError "active delivery claim cannot be rearmed")
      else
        match batchAttemptFromRow row, idempotencyContractFromRow H row with
        | .error e, _ => .error e
        | .ok _, .error e => .error e
        | .ok batchAttemptId, .ok _ =>
            .ok (⟨.recovered, rearmTarget expectedState, record.digest H, some claimToken,
              some claimExpiresAt, batchAttemptId⟩,
              rearmedRow instant claimExpiresAt claimToken row)

theorem batchAttemptFromRow_ok {row : LedgerRow} {b : Option String}
    (h : batchAttemptFromRow row = .ok b) : b = row.currentWriteBatchAttemptId := by
  unfold batchAttemptFromRow at h
  cases hrow : row.currentWriteBatchAttemptId with
  | none =>
      rw [hrow] at h
      simp only at h
      split at h
      · cases h
      · cases h
        rfl
  | some batchAttemptId =>
      rw [hrow] at h
      simp only at h
      split at h
      · cases h
        rfl
      · cases h

/-- `rearm_for_retry` reads and writes only the row under its key. -/
theorem rearmRecord_apply (instant claimExpiresAt : Instant) (claimToken : String)
    (record : BlindTransportRecord) (expectedState : DeliveryState) (s : Ledger) :
    rearmRecord H instant claimExpiresAt claimToken record expectedState s =
      match rearmOutcome H instant claimExpiresAt claimToken record expectedState
        (s record.key) with
      | .ok (result, row) => .ok result (Function.update s record.key (some row))
      | .error e => .error e s := by
  unfold rearmRecord
  rw [bind_apply, selectRow_apply]
  cases hrow : s record.key with
  | none => rfl
  | some row =>
      simp only [rearmOutcome]
      by_cases hmismatch : row.recordDigest ≠ record.digest H ∨
          row.planDigest ≠ record.planDigest ∨ row.state ≠ expectedState
      · simp only [hmismatch, if_true, bind_apply, throw_apply]
      · rw [not_or, not_or, not_not, not_not, not_not] at hmismatch
        simp only [hmismatch.1, hmismatch.2.1, hmismatch.2.2, ne_eq, not_true_eq_false, or_self,
          if_false]
        by_cases hactive : expectedState ∈ [DeliveryState.claimed, .replayClaimed] ∧
            (fencing row).any (fun fence => instant < fence.2)
        · simp only [hactive, and_self, if_true, bind_apply, throw_apply]
        · simp only [hactive, if_false, bind_apply, lift_apply]
          cases hbatch : batchAttemptFromRow row with
          | error e => rfl
          | ok batchAttemptId =>
              cases idempotencyContractFromRow H row with
              | error e => rfl
              | ok contractId =>
                  have hattempt := batchAttemptFromRow_ok hbatch
                  simp [updateRow_apply, hrow, hmismatch, hattempt, rearmedRow, pure_apply]

/-! ## Statements on many rows -/

/-- The items of a transition each moved the row under their key; every other row is as before. -/
def Transitions (t : Transition) (instant : Instant)
    (items : List (BlindTransportRecord × String)) (s s' : Ledger) : Prop :=
  (∀ item ∈ items, ∃ row, s item.1.key = some row ∧
    t.applies H instant item.1 item.2 row = true ∧
    s' item.1.key = some (t.change instant row)) ∧
  ∀ key, (∀ item ∈ items, item.1.key ≠ key) → s' key = s key

theorem transitionRecord_ok {instant : Instant} {t : Transition} {message : String}
    {record : BlindTransportRecord} {claimToken : String} {s s' : Ledger} {u : Unit}
    (h : transitionRecord H instant t message record claimToken s = .ok u s') :
    ∃ row, s record.key = some row ∧ t.applies H instant record claimToken row = true ∧
      s' = Function.update s record.key (some (t.change instant row)) := by
  rw [transitionRecord_apply] at h
  cases hrow : s record.key with
  | none =>
      rw [hrow] at h
      cases h
  | some row =>
      rw [hrow] at h
      simp only at h
      split at h
      · rename_i happlies
        cases h
        exact ⟨row, rfl, happlies, rfl⟩
      · cases h

theorem transitions_single {instant : Instant} {t : Transition} {record : BlindTransportRecord}
    {claimToken : String} {s : Ledger} {row : LedgerRow} (hrow : s record.key = some row)
    (happlies : t.applies H instant record claimToken row = true) :
    Transitions H t instant [(record, claimToken)] s
      (Function.update s record.key (some (t.change instant row))) := by
  constructor
  · intro item hitem
    rw [List.mem_singleton] at hitem
    subst hitem
    exact ⟨row, hrow, happlies, Function.update_self ..⟩
  · intro key hkey
    have hne : record.key ≠ key := hkey _ (List.mem_singleton.2 rfl)
    exact Function.update_of_ne hne.symm ..

theorem transitionRecords_ok {instant : Instant} {t : Transition}
    {items : List (BlindTransportRecord × String)} {s s' : Ledger} {u : Unit}
    (hnodup : (items.map fun item => item.1.key).Nodup)
    (h : transitionRecords H instant t items s = .ok u s') : Transitions H t instant items s s' := by
  induction items generalizing s with
  | nil =>
      cases h
      exact ⟨fun item hitem => (List.not_mem_nil hitem).elim, fun _ _ => rfl⟩
  | cons item rest ih =>
      obtain ⟨record, claimToken⟩ := item
      obtain ⟨u₁, s₁, h₁, h₂⟩ := bind_eq_ok_iff.1 h
      obtain ⟨row, hrow, happlies, hs₁⟩ := transitionRecord_ok H h₁
      rw [List.map_cons, List.nodup_cons] at hnodup
      obtain ⟨hfirst, hrest⟩ := ih hnodup.2 h₂
      have hkey : ∀ item ∈ rest, item.1.key ≠ record.key := fun item hitem heq =>
        hnodup.1 (List.mem_map.2 ⟨item, hitem, heq⟩)
      constructor
      · intro item hitem
        rcases List.mem_cons.1 hitem with rfl | hitem
        · refine ⟨row, hrow, happlies, ?_⟩
          rw [hrest record.key hkey, hs₁, Function.update_self]
        · obtain ⟨row', hrow', happlies', hnew⟩ := hfirst item hitem
          rw [hs₁, Function.update_of_ne (hkey item hitem)] at hrow'
          exact ⟨row', hrow', happlies', hnew⟩
      · intro key hne
        have hne₁ : record.key ≠ key := hne _ List.mem_cons_self
        rw [hrest key fun item hitem => hne item (List.mem_cons_of_mem _ hitem), hs₁,
          Function.update_of_ne hne₁.symm]

/-- Each claimed record has the answer and the row of `claimOutcome`; every other row is as
before. -/
def Claims (instant claimExpiresAt : Instant) (token : Nat → String) (i : Nat)
    (records : List BlindTransportRecord) (results : List ClaimResult) (s s' : Ledger) : Prop :=
  results.length = records.length ∧
  (∀ item ∈ (records.zipIdx i).zip results, ∃ row,
    claimOutcome H instant claimExpiresAt item.1.1 (token item.1.2) (s item.1.1.key) =
      .ok (item.2, row) ∧ s' item.1.1.key = some row) ∧
  ∀ key, (∀ record ∈ records, record.key ≠ key) → s' key = s key

theorem claimRecord_ok {instant claimExpiresAt : Instant} {record : BlindTransportRecord}
    {claimToken : String} {s s' : Ledger} {result : ClaimResult}
    (h : claimRecord H instant claimExpiresAt record claimToken s = .ok result s') :
    ∃ row, claimOutcome H instant claimExpiresAt record claimToken (s record.key) =
      .ok (result, row) ∧ s' = Function.update s record.key (some row) := by
  rw [claimRecord_apply] at h
  cases houtcome : claimOutcome H instant claimExpiresAt record claimToken (s record.key) with
  | error e =>
      rw [houtcome] at h
      cases h
  | ok p =>
      rw [houtcome] at h
      cases h
      exact ⟨p.2, rfl, rfl⟩

theorem mem_zip_zipIdx {records : List BlindTransportRecord} {results : List ClaimResult}
    {i : Nat} {item : (BlindTransportRecord × Nat) × ClaimResult}
    (h : item ∈ (records.zipIdx i).zip results) : item.1.1 ∈ records := by
  have hfst : item.1 ∈ records.zipIdx i := (List.of_mem_zip h).1
  exact List.fst_mem_of_mem_zipIdx hfst

theorem claimRecords_ok {instant claimExpiresAt : Instant} {token : Nat → String} {i : Nat}
    {records : List BlindTransportRecord} {results : List ClaimResult} {s s' : Ledger}
    (hnodup : (records.map BlindTransportRecord.key).Nodup)
    (h : claimRecords H instant claimExpiresAt token i records s = .ok results s') :
    Claims H instant claimExpiresAt token i records results s s' := by
  induction records generalizing s i results with
  | nil =>
      cases h
      exact ⟨rfl, fun item hitem => (List.not_mem_nil hitem).elim, fun _ _ => rfl⟩
  | cons record rest ih =>
      obtain ⟨result, s₁, h₁, h'⟩ := bind_eq_ok_iff.1 h
      obtain ⟨restResults, s₂, h₂, h₃⟩ := bind_eq_ok_iff.1 h'
      obtain ⟨rfl, rfl⟩ := pure_eq_ok_iff.1 h₃
      obtain ⟨row, houtcome, hs₁⟩ := claimRecord_ok H h₁
      rw [List.map_cons, List.nodup_cons] at hnodup
      obtain ⟨hlength, hfirst, hrest⟩ := ih hnodup.2 h₂
      have hkey : ∀ r ∈ rest, r.key ≠ record.key := fun r hr heq =>
        hnodup.1 (List.mem_map.2 ⟨r, hr, heq⟩)
      refine ⟨by simp [hlength], ?_, ?_⟩
      · intro item hitem
        rw [List.zipIdx_cons, List.zip_cons_cons, List.mem_cons] at hitem
        rcases hitem with rfl | hitem
        · refine ⟨row, houtcome, ?_⟩
          rw [hrest record.key hkey, hs₁, Function.update_self]
        · obtain ⟨row', houtcome', hnew⟩ := hfirst item hitem
          rw [hs₁, Function.update_of_ne (hkey _ (mem_zip_zipIdx hitem))] at houtcome'
          exact ⟨row', houtcome', hnew⟩
      · intro key hne
        have hne₁ : record.key ≠ key := hne _ List.mem_cons_self
        rw [hrest key fun r hr => hne r (List.mem_cons_of_mem _ hr), hs₁,
          Function.update_of_ne hne₁.symm]

end DeliveryLedger

end Polymorph
