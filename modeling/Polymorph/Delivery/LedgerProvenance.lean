import Polymorph.Delivery.LedgerCalls

/-!
# Provenance of ledger rows

Runs of arbitrary ledger calls from the empty table. One call moves a row along `stateStep`, keeps
its identity and keeps the batch attempt id of the batch states (`after_provenance`); over a whole
run, rows are never deleted, `COMMITTED` and the replay states are never left backwards, and a row
at or past the write boundary returns to `CLAIMED` only through a quarantine that a write-started
row entered by `mark_quarantined` or `mark_quarantined_many`.
-/

set_option autoImplicit false

namespace Polymorph

open Transaction Utc DeliveryLedger LedgerCall

namespace DeliveryState

/-- The states of a replay. -/
def isReplay : DeliveryState → Bool
  | .replayClaimed | .replayWriteStarted | .replayUncertain | .replayQuarantined => true
  | _ => false

/-- The states of a first write that has started and has no recorded outcome. -/
def isWriteStarted : DeliveryState → Bool
  | .writeStarted | .batchWriteStarted => true
  | _ => false

/-- The states of a first write whose effect is not known. -/
def isAmbiguous : DeliveryState → Bool
  | .writeStarted | .batchWriteStarted | .uncertain | .batchUncertain => true
  | _ => false

/-- The moves one call can make. -/
def step : DeliveryState → DeliveryState → Bool
  | .claimed, .claimed | .claimed, .writeStarted | .claimed, .batchWriteStarted
  | .claimed, .quarantined | .claimed, .replayClaimed => true
  | .writeStarted, .committed | .writeStarted, .uncertain | .writeStarted, .quarantined
  | .writeStarted, .replayClaimed => true
  | .batchWriteStarted, .committed | .batchWriteStarted, .batchUncertain
  | .batchWriteStarted, .quarantined | .batchWriteStarted, .replayClaimed => true
  | .uncertain, .replayClaimed | .batchUncertain, .replayClaimed => true
  | .quarantined, .claimed => true
  | .replayClaimed, .replayClaimed | .replayClaimed, .replayWriteStarted
  | .replayClaimed, .replayQuarantined => true
  | .replayWriteStarted, .committed | .replayWriteStarted, .replayUncertain
  | .replayWriteStarted, .replayQuarantined | .replayWriteStarted, .replayClaimed => true
  | .replayUncertain, .replayClaimed | .replayQuarantined, .replayClaimed => true
  | _, _ => false

end DeliveryState

/-- The states of a delivery no write of which can have taken effect. -/
def DeliveryState.isUnwritten : DeliveryState → Bool
  | .claimed | .quarantined => true
  | _ => false

/-- A call of a run with what it draws from its environment. -/
structure LedgerEvent where
  inputs : LedgerInputs
  call : LedgerCall

variable (H : Host)

/-- The table after a call, returned or raised. -/
def LedgerEvent.after (e : LedgerEvent) (s : Ledger) : Ledger :=
  match e.call.exec H e.inputs s with
  | .ok _ s' => s'
  | .error _ s' => s'

/-- The table after a run of calls from the empty table. -/
def ledgerRun (events : List LedgerEvent) : Ledger :=
  events.foldl (fun s e => e.after H s) Ledger.empty

theorem ledgerRun_append (before after : List LedgerEvent) :
    ledgerRun H (before ++ after) = after.foldl (fun s e => e.after H s) (ledgerRun H before) :=
  List.foldl_append

/-! ## One call -/

theorem after_rowMove (e : LedgerEvent) (s : Ledger) (key : DeliveryKey) :
    RowMove H e.inputs e.call key (s key) (e.after H s key) := by
  unfold LedgerEvent.after
  cases h : e.call.exec H e.inputs s with
  | ok a s' => exact exec_rowMove H h key
  | error x s' =>
      rw [exec_atomic H e.inputs e.call s x s' h]
      exact .same _

/-- The states a transition of some call connects. -/
theorem transition?_states {i : LedgerInputs} {c : LedgerCall} {t : Transition}
    (h : c.transition? i = some t) : t.expected.step t.target = true := by
  cases c with
  | claimMany _ _ => cases h
  | rearmForRetry _ _ _ => cases h
  | get _ => cases h
  | markQuarantined _ reasonCode _ expectedState =>
      rw [transition?] at h
      split at h
      · cases h
        cases expectedState <;> first | rfl | (rename_i hmem; exact absurd hmem (by decide))
      · cases h
  | markQuarantinedMany _ reasonCode expectedState =>
      rw [transition?] at h
      split at h
      · cases h
        cases expectedState <;> first | rfl | (rename_i hmem; exact absurd hmem (by decide))
      · cases h
  | startWrite _ _ _ => cases h; rfl
  | startReplayWrite _ _ => cases h; rfl
  | startWriteMany _ _ => cases h; rfl
  | markCommitted _ _ => cases h; rfl
  | markReplayCommitted _ _ => cases h; rfl
  | markCommittedMany _ => cases h; rfl
  | markUncertain _ _ _ => cases h; rfl
  | markReplayUncertain _ _ _ => cases h; rfl
  | markUncertainMany _ _ => cases h; rfl

/-- A transition into a batch state stores an attempt id or finds the row in a batch state. -/
theorem transition?_batch {i : LedgerInputs} {c : LedgerCall} {t : Transition}
    (h : c.transition? i = some t) (ht : t.target ∈ batchStates) :
    t.batchAttempt = .assign (some i.batchAttemptId) ∨
      t.batchAttempt = .keep ∧ t.expected ∈ batchStates := by
  have hquarantined : DeliveryState.quarantined ∉ batchStates := by decide
  have hreplay : DeliveryState.replayQuarantined ∉ batchStates := by decide
  cases c with
  | startWriteMany _ _ => cases h; exact .inl rfl
  | markUncertainMany _ _ => cases h; exact .inr ⟨rfl, List.mem_cons_self⟩
  | claimMany _ _ => cases h
  | rearmForRetry _ _ _ => cases h
  | get _ => cases h
  | markQuarantined _ reasonCode _ expectedState =>
      rw [transition?] at h
      split at h
      · cases h
        rw [quarantinedTransition] at ht
        dsimp only at ht
        split at ht
        · exact absurd ht hreplay
        · exact absurd ht hquarantined
      · cases h
  | markQuarantinedMany _ reasonCode expectedState =>
      rw [transition?] at h
      split at h
      · cases h
        exact absurd ht hquarantined
      · cases h
  | startWrite _ _ _ => cases h; simp [startWriteTransition, batchStates] at ht
  | startReplayWrite _ _ => cases h; simp [startReplayWriteTransition, batchStates] at ht
  | markCommitted _ _ => cases h; simp [committedTransition, batchStates] at ht
  | markReplayCommitted _ _ => cases h; simp [committedTransition, batchStates] at ht
  | markCommittedMany _ => cases h; simp [committedTransition, batchStates] at ht
  | markUncertain _ _ _ => cases h; simp [uncertainTransition, batchStates] at ht
  | markReplayUncertain _ _ _ => cases h; simp [uncertainTransition, batchStates] at ht

/-- A `mark_quarantined` or `mark_quarantined_many` that names the row under `key` and expects it
in `state`. -/
def LedgerCall.Quarantines (key : DeliveryKey) (state : DeliveryState) : LedgerCall → Prop
  | .markQuarantined record _ _ expectedState => record.key = key ∧ expectedState = state
  | .markQuarantinedMany items _ expectedState =>
      (∃ item ∈ items, item.1.key = key) ∧ expectedState = state
  | _ => False

/-- Only the two quarantine calls enter `QUARANTINED`. -/
theorem transition?_quarantined {i : LedgerInputs} {c : LedgerCall} {t : Transition}
    {record : BlindTransportRecord} {claimToken : String} (h : c.transition? i = some t)
    (hitem : (record, claimToken) ∈ c.items) (ht : t.target = .quarantined) :
    c.Quarantines record.key t.expected := by
  cases c with
  | markQuarantined _ reasonCode _ expectedState =>
      rw [transition?] at h
      split at h
      · cases h
        rw [items, List.mem_singleton] at hitem
        cases hitem
        exact ⟨rfl, rfl⟩
      · cases h
  | markQuarantinedMany _ reasonCode expectedState =>
      rw [transition?] at h
      split at h
      · cases h
        exact ⟨⟨_, hitem, rfl⟩, rfl⟩
      · cases h
  | claimMany _ _ => cases h
  | rearmForRetry _ _ _ => cases h
  | get _ => cases h
  | startWrite _ _ _ => cases h; cases ht
  | startReplayWrite _ _ => cases h; cases ht
  | startWriteMany _ _ => cases h; cases ht
  | markCommitted _ _ => cases h; cases ht
  | markReplayCommitted _ _ => cases h; cases ht
  | markCommittedMany _ => cases h; cases ht
  | markUncertain _ _ _ => cases h; cases ht
  | markReplayUncertain _ _ _ => cases h; cases ht
  | markUncertainMany _ _ => cases h; cases ht

/-- What one call keeps of a row and how it moves its state. -/
structure RowStep (row row' : LedgerRow) : Prop where
  recordDigest : row'.recordDigest = row.recordDigest
  planDigest : row'.planDigest = row.planDigest
  createdAt : row'.createdAt = row.createdAt
  state : row'.state = row.state ∨ row.state.step row'.state = true

theorem applies_state {t : Transition} {instant : Instant} {record : BlindTransportRecord}
    {claimToken : String} {row : LedgerRow}
    (h : t.applies H instant record claimToken row = true) : row.state = t.expected := by
  simp only [Transition.applies, Bool.and_eq_true, decide_eq_true_eq] at h
  exact h.1.1.2

theorem rearmTarget_step {state : DeliveryState} (h : state ≠ .committed) :
    state.step (rearmTarget state) = true := by
  cases state <;> first | rfl | exact absurd rfl h

theorem rowMove_some {i : LedgerInputs} {c : LedgerCall} {key : DeliveryKey} {row : LedgerRow}
    {r' : Option LedgerRow} (h : RowMove H i c key (some row) r') :
    ∃ row', r' = some row' ∧ RowStep row row' := by
  cases h with
  | same => exact ⟨row, rfl, rfl, rfl, rfl, .inl rfl⟩
  | reclaim hmem hkey hdigest hstate => exact ⟨_, rfl, rfl, rfl, rfl, .inl rfl⟩
  | @transition t record claimToken instant _ ht hitem hkey happlies =>
      refine ⟨_, rfl, rfl, rfl, rfl, .inr ?_⟩
      rw [applies_state H happlies]
      exact transition?_states ht
  | rearm hc hkey hdigest hstate hne =>
      refine ⟨_, rfl, rfl, rfl, rfl, .inr ?_⟩
      exact rearmTarget_step (hstate ▸ hne)

/-- A row whose state belongs to a batch names its attempt. -/
def BatchNamed (row : LedgerRow) : Prop :=
  row.state ∈ batchStates → row.currentWriteBatchAttemptId ≠ none

theorem rearmTarget_notBatch (state : DeliveryState) : rearmTarget state ∉ batchStates := by
  cases state <;> decide

theorem rowMove_batchNamed {i : LedgerInputs} {c : LedgerCall} {key : DeliveryKey}
    {r : Option LedgerRow} {row' : LedgerRow} (h : RowMove H i c key r (some row'))
    (hr : ∀ row, r = some row → BatchNamed row) : BatchNamed row' := by
  intro hbatch
  cases h with
  | same => exact hr row' rfl hbatch
  | insert hmem hkey => exact absurd hbatch (by change DeliveryState.claimed ∉ _; decide)
  | reclaim hmem hkey hdigest hstate =>
      rw [reclaimedRow] at hbatch
      exact absurd hbatch (by rw [hstate]; decide)
  | @transition t record claimToken instant row ht hitem hkey happlies =>
      change t.batchAttempt.apply row.currentWriteBatchAttemptId ≠ none
      rcases transition?_batch ht hbatch with hassign | ⟨hkeep, hexpected⟩
      · rw [hassign]
        exact Option.some_ne_none _
      · rw [hkeep]
        exact hr row rfl (applies_state H happlies ▸ hexpected)
  | rearm hc hkey hdigest hstate hne => exact absurd hbatch (rearmTarget_notBatch _)

/-- A row leaves the states at or past the write boundary only into `QUARANTINED`, from a
write-started state and by a quarantine call. -/
theorem rowMove_unwritten {i : LedgerInputs} {c : LedgerCall} {key : DeliveryKey}
    {row row' : LedgerRow} (h : RowMove H i c key (some row) (some row'))
    (hrow : row.state.isUnwritten = false) (hrow' : row'.state.isUnwritten = true) :
    row.state.isWriteStarted = true ∧ row'.state = .quarantined ∧
      c.Quarantines key row.state := by
  have hstep : ∀ a b : DeliveryState, a.step b = true → a.isUnwritten = false →
      b.isUnwritten = true → a.isWriteStarted = true ∧ b = .quarantined := by
    intro a b
    cases a <;> cases b <;> decide
  cases h with
  | same => rw [hrow] at hrow'; cases hrow'
  | reclaim hmem hkey hdigest hstate => rw [hstate] at hrow; cases hrow
  | @transition t record claimToken instant _ ht hitem hkey happlies =>
      have hstate := applies_state H happlies
      rw [hstate] at hrow ⊢
      obtain ⟨hstarted, htarget⟩ := hstep t.expected t.target (transition?_states ht) hrow hrow'
      exact ⟨hstarted, htarget, hkey ▸ transition?_quarantined ht hitem htarget⟩
  | @rearm record expectedState leaseFor instant expires token _ hc hkey hdigest hstate hne =>
      have htarget : (rearmTarget row.state).isUnwritten = true := hrow'
      have hnone : ∀ a : DeliveryState, a.isUnwritten = false →
          (rearmTarget a).isUnwritten = false := by
        intro a
        cases a <;> decide
      rw [hnone row.state hrow] at htarget
      cases htarget

/-! ## Committed rows and writes in flight -/

/-- The row of an identity is committed. -/
def Ledger.Committed (rows : Ledger) (key : DeliveryKey) : Prop :=
  ∃ row, rows key = some row ∧ row.state = .committed

/-- A write of the first kind has started and its outcome is not recorded. -/
def inFlight (row : Option LedgerRow) : Prop :=
  ∃ r, row = some r ∧ r.state.isWriteStarted = true

/-- The identities a transition names. -/
def LedgerCall.keys (c : LedgerCall) : List DeliveryKey := c.items.map fun item => item.1.key

/-- The calls that record an outcome of their rows. -/
def LedgerCall.marks : LedgerCall → Bool
  | .markCommitted _ _ | .markReplayCommitted _ _ | .markCommittedMany _ | .markUncertain _ _ _
  | .markReplayUncertain _ _ _ | .markUncertainMany _ _ | .markQuarantined _ _ _ _
  | .markQuarantinedMany _ _ _ => true
  | _ => false

/-- The calls that commit their rows. -/
def LedgerCall.commits : LedgerCall → Bool
  | .markCommitted _ _ | .markReplayCommitted _ _ | .markCommittedMany _ => true
  | _ => false

theorem transition?_commits {inputs : LedgerInputs} {c : LedgerCall} (h : c.commits = true) :
    ∃ t, c.transition? inputs = some t ∧ t.target = .committed := by
  cases c with
  | markCommitted _ _ => exact ⟨_, rfl, rfl⟩
  | markReplayCommitted _ _ => exact ⟨_, rfl, rfl⟩
  | markCommittedMany _ => exact ⟨_, rfl, rfl⟩
  | _ => cases h

theorem commits_of_target {inputs : LedgerInputs} {c : LedgerCall} {t : Transition}
    (h : c.transition? inputs = some t) (ht : t.target = .committed) : c.commits = true := by
  cases c with
  | markCommitted _ _ => rfl
  | markReplayCommitted _ _ => rfl
  | markCommittedMany _ => rfl
  | claimMany _ _ => cases h
  | rearmForRetry _ _ _ => cases h
  | get _ => cases h
  | markQuarantined _ reasonCode _ expectedState =>
      rw [transition?] at h
      split at h
      · cases h
        rw [quarantinedTransition] at ht
        dsimp only at ht
        split at ht <;> cases ht
      · cases h
  | markQuarantinedMany _ reasonCode expectedState =>
      rw [transition?] at h
      split at h
      · cases h
        cases ht
      · cases h
  | startWrite _ _ _ => cases h; cases ht
  | startReplayWrite _ _ => cases h; cases ht
  | startWriteMany _ _ => cases h; cases ht
  | markUncertain _ _ _ => cases h; cases ht
  | markReplayUncertain _ _ _ => cases h; cases ht
  | markUncertainMany _ _ => cases h; cases ht

section

variable {H}

theorem applies_digest {t : Transition} {instant : Utc.Instant} {record : BlindTransportRecord}
    {claimToken : String} {row : LedgerRow}
    (h : t.applies H instant record claimToken row = true) :
    row.recordDigest = record.digest H := by
  simp only [Transition.applies, Bool.and_eq_true, decide_eq_true_eq] at h
  exact h.1.1.1.1

theorem committed_stays {rows rows' : Ledger} {inputs : LedgerInputs} {c : LedgerCall}
    (hmove : ∀ key, LedgerCall.RowMove H inputs c key (rows key) (rows' key)) {key : DeliveryKey}
    (h : rows.Committed key) : rows'.Committed key := by
  obtain ⟨row, hrow, hstate⟩ := h
  have hkey := hmove key
  rw [hrow] at hkey
  obtain ⟨row', hrow', hstep⟩ := rowMove_some H hkey
  refine ⟨row', hrow', ?_⟩
  have hnone : ∀ b : DeliveryState, DeliveryState.step .committed b = false := by
    intro b
    cases b <;> rfl
  rcases hstep.state with hsame | hmoved
  · exact hsame.trans hstate
  · rw [hstate, hnone] at hmoved
    cases hmoved

end

/-! ## Whole runs -/

/-- The rows of a run all name their batch attempts. -/
theorem ledgerRun_batchNamed (events : List LedgerEvent) (key : DeliveryKey) (row : LedgerRow)
    (h : ledgerRun H events key = some row) : BatchNamed row := by
  induction events using List.reverseRecOn generalizing row with
  | nil => cases h
  | append_singleton before e ih =>
      rw [ledgerRun_append] at h
      have hmove := after_rowMove H e (ledgerRun H before) key
      rw [show e.after H (ledgerRun H before) key = some row from h] at hmove
      exact rowMove_batchNamed H hmove ih

/-- The call `e` took the row under `key` from a write-started state into `QUARANTINED`. -/
def EntersQuarantine (e : LedgerEvent) (s : Ledger) (key : DeliveryKey) : Prop :=
  ∃ row row', s key = some row ∧ e.after H s key = some row' ∧
    row.state.isWriteStarted = true ∧ row'.state = .quarantined ∧
    e.call.Quarantines key row.state

/-- What a run keeps of a row that was there before it: its identity, `COMMITTED`, the replay
states, and the only way back to `CLAIMED` from the write boundary. -/
structure Kept (s : Ledger) (events : List LedgerEvent) (key : DeliveryKey)
    (row row' : LedgerRow) : Prop where
  recordDigest : row'.recordDigest = row.recordDigest
  planDigest : row'.planDigest = row.planDigest
  createdAt : row'.createdAt = row.createdAt
  committed : row.state = .committed → row'.state = .committed
  replay : row.state.isReplay = true → row'.state.isReplay = true ∨ row'.state = .committed
  reclaimed : row.state.isUnwritten = false → row'.state.isUnwritten = true →
    ∃ mid e rest, events = mid ++ e :: rest ∧
      EntersQuarantine H e (mid.foldl (fun s e => e.after H s) s) key

theorem kept_run (events : List LedgerEvent) (s : Ledger) (key : DeliveryKey) (row : LedgerRow)
    (h : s key = some row) :
    ∃ row', events.foldl (fun s e => e.after H s) s key = some row' ∧
      Kept H s events key row row' := by
  induction events generalizing s row with
  | nil =>
      refine ⟨row, h, rfl, rfl, rfl, id, .inl, ?_⟩
      intro hrow hrow'
      rw [hrow] at hrow'
      cases hrow'
  | cons e rest ih =>
      have hmove := after_rowMove H e s key
      rw [h] at hmove
      obtain ⟨row₁, hrow₁, hstep⟩ := rowMove_some H hmove
      rw [hrow₁] at hmove
      obtain ⟨row', hrow', hkept⟩ := ih (e.after H s) row₁ hrow₁
      have hcommitted : ∀ b : DeliveryState, DeliveryState.step .committed b = false := by
        intro b
        cases b <;> rfl
      have hreplay : ∀ a b : DeliveryState, a.step b = true → a.isReplay = true →
          b.isReplay = true ∨ b = .committed := by
        intro a b
        cases a <;> cases b <;> decide
      refine ⟨row', hrow', hkept.recordDigest.trans hstep.recordDigest,
        hkept.planDigest.trans hstep.planDigest, hkept.createdAt.trans hstep.createdAt, ?_, ?_, ?_⟩
      · intro hstate
        rcases hstep.state with hsame | hmoved
        · exact hkept.committed (hsame.trans hstate)
        · rw [hstate, hcommitted] at hmoved
          cases hmoved
      · intro hstate
        have hstate₁ : row₁.state.isReplay = true ∨ row₁.state = .committed := by
          rcases hstep.state with hsame | hmoved
          · exact .inl (hsame ▸ hstate)
          · exact hreplay _ _ hmoved hstate
        rcases hstate₁ with hstate₁ | hstate₁
        · exact hkept.replay hstate₁
        · exact .inr (hkept.committed hstate₁)
      · intro hrow hunwritten
        cases hfirst : row₁.state.isUnwritten with
        | true =>
            obtain ⟨hstarted, hquarantined, hcall⟩ := rowMove_unwritten H hmove hrow hfirst
            exact ⟨[], e, rest, rfl, row, row₁, h, hrow₁, hstarted, hquarantined, hcall⟩
        | false =>
            obtain ⟨mid, e', rest', hsplit, henters⟩ := hkept.reclaimed hfirst hunwritten
            exact ⟨e :: mid, e', rest', by rw [hsplit, List.cons_append], henters⟩

/-- **Ledger provenance.** In every run of ledger calls from the empty table: no row is deleted
and its digests and creation time never change; `COMMITTED` is absorbing; a replay state is left
only for `COMMITTED`; a row at the write boundary or uncertain is `CLAIMED` again only after a
quarantine call took it from a write-started state into `QUARANTINED`; a batch state names its
attempt; and a call that raises changes no row. -/
theorem ledger_provenance (before after : List LedgerEvent) :
    (∀ key row, ledgerRun H before key = some row →
      ∃ row', ledgerRun H (before ++ after) key = some row' ∧
        row'.recordDigest = row.recordDigest ∧ row'.planDigest = row.planDigest ∧
        row'.createdAt = row.createdAt ∧
        (row.state = .committed → row'.state = .committed) ∧
        (row.state.isReplay = true → row'.state.isReplay = true ∨ row'.state = .committed) ∧
        (row.state.isAmbiguous = true → row'.state = .claimed →
          ∃ mid e rest, after = mid ++ e :: rest ∧
            EntersQuarantine H e (ledgerRun H (before ++ mid)) key)) ∧
    (∀ key row, ledgerRun H before key = some row → row.state ∈ batchStates →
      row.currentWriteBatchAttemptId ≠ none) ∧
    ∀ (e : LedgerEvent) (x : Exn) (s : Ledger),
      e.call.exec H e.inputs (ledgerRun H before) = .error x s → s = ledgerRun H before := by
  refine ⟨?_, fun key row h => ledgerRun_batchNamed H before key row h,
    fun e x s h => exec_atomic H e.inputs e.call _ x s h⟩
  intro key row h
  obtain ⟨row', hrow', hkept⟩ := kept_run H after _ key row h
  refine ⟨row', by rw [ledgerRun_append, hrow'], hkept.recordDigest, hkept.planDigest,
    hkept.createdAt, hkept.committed, hkept.replay, ?_⟩
  intro hambiguous hclaimed
  have hwritten : ∀ a : DeliveryState, a.isAmbiguous = true → a.isUnwritten = false := by
    intro a
    cases a <;> decide
  obtain ⟨mid, e, rest, hsplit, henters⟩ := hkept.reclaimed (hwritten _ hambiguous) (by rw [hclaimed]; rfl)
  exact ⟨mid, e, rest, hsplit, by rwa [ledgerRun_append]⟩

end Polymorph
