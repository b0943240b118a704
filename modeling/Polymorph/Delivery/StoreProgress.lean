import Polymorph.Delivery.LedgerCalls
import Polymorph.Delivery.SpoolSpec
import Polymorph.Transport.RoundTrip

/-!
# When store calls return

The other half of the specifications of the ledger and the spool: under which conditions a call
returns, and the table it then leaves. `Admitted` collects what the spool asks of a record and of
the entry it may already hold for it.
-/

set_option autoImplicit false

namespace Polymorph

open Transaction JsonText Utc

namespace DeliveryLedger

variable {H : Host}

/-! ## Transitions -/

/-- A fenced transition of one row returns. -/
theorem transition_of_applies {instant : Instant} {t : Transition} {record : BlindTransportRecord}
    {claimToken : String} {s : Ledger} {row : LedgerRow}
    (htoken : validateClaimToken claimToken = .ok ())
    (hcontract : validateOptionalContractId H t.contractId = .ok ())
    (hrow : s record.key = some row) (happlies : t.applies H instant record claimToken row = true) :
    transition H (.ok (.aware instant)) t record claimToken s =
      .ok () (Function.update s record.key (some (t.change instant row))) := by
  unfold transition
  rw [lift_ok_bind htoken, lift_ok_bind hcontract,
    lift_ok_bind (show now (.ok (.aware instant)) = .ok instant from rfl)]
  refine transaction_of_ok ?_
  rw [transitionRecord_apply, hrow]
  simp only [happlies, if_true]

theorem transitionRecords_of_applies {instant : Instant} {t : Transition}
    {items : List (BlindTransportRecord × String)} {s : Ledger}
    (hnodup : (items.map fun item => item.1.key).Nodup)
    (happlies : ∀ item ∈ items, ∃ row, s item.1.key = some row ∧
      t.applies H instant item.1 item.2 row = true) :
    ∃ s', transitionRecords H instant t items s = .ok () s' := by
  induction items generalizing s with
  | nil => exact ⟨s, rfl⟩
  | cons item rest ih =>
      obtain ⟨record, claimToken⟩ := item
      rw [List.map_cons, List.nodup_cons] at hnodup
      obtain ⟨row, hrow, hfirst⟩ := happlies _ List.mem_cons_self
      obtain ⟨s', hs'⟩ := ih (s := Function.update s record.key (some (t.change instant row)))
        hnodup.2 fun item hitem => by
          have hne : item.1.key ≠ record.key := fun heq =>
            hnodup.1 (List.mem_map.2 ⟨item, hitem, heq⟩)
          rw [Function.update_of_ne hne]
          exact happlies item (List.mem_cons_of_mem _ hitem)
      refine ⟨s', ?_⟩
      unfold transitionRecords
      rw [bind_apply, transitionRecord_apply, hrow]
      simp only [hfirst, if_true]
      exact hs'

theorem validateClaimTokens_of_valid {items : List (BlindTransportRecord × String)}
    (h : ∀ item ∈ items, validateClaimToken item.2 = .ok ()) :
    validateClaimTokens items = .ok () := by
  induction items with
  | nil => rfl
  | cons item rest ih =>
      unfold validateClaimTokens
      rw [h _ List.mem_cons_self]
      exact ih fun item hitem => h item (List.mem_cons_of_mem _ hitem)

theorem validateBatch_of_nodup {keys : List DeliveryKey} (hlength : keys.length ≤ maxLedgerBatchItems)
    (hnodup : keys.Nodup) : validateBatch keys = .ok () := by
  unfold validateBatch
  rw [if_neg (Nat.not_lt.2 hlength), if_neg (not_not.2 hnodup)]
  rfl

/-- A fenced transition of many rows returns. -/
theorem transitionMany_of_applies {instant : Instant} {t : Transition}
    {items : List (BlindTransportRecord × String)} {s : Ledger}
    (hlength : items.length ≤ maxLedgerBatchItems)
    (hnodup : (items.map fun item => item.1.key).Nodup)
    (htokens : ∀ item ∈ items, validateClaimToken item.2 = .ok ())
    (hattempt : t.validateBatchAttempt = .ok ())
    (hcontract : validateOptionalContractId H t.contractId = .ok ())
    (happlies : ∀ item ∈ items, ∃ row, s item.1.key = some row ∧
      t.applies H instant item.1 item.2 row = true) :
    ∃ s', transitionMany H (.ok (.aware instant)) t items s = .ok () s' ∧
      Transitions H t instant items s s' := by
  obtain ⟨s', hs'⟩ := transitionRecords_of_applies hnodup happlies
  refine ⟨s', ?_, transitionRecords_ok H hnodup hs'⟩
  unfold transitionMany
  split
  · rename_i hnil
    subst hnil
    cases hs'
    rfl
  · rw [lift_ok_bind (validateBatch_of_nodup (by simpa using hlength) hnodup),
      lift_ok_bind (validateClaimTokens_of_valid htokens), lift_ok_bind hattempt,
      lift_ok_bind hcontract, lift_ok_bind (show now (.ok (.aware instant)) = .ok instant from rfl)]
    exact transaction_of_ok hs'

/-! ## Claims -/

theorem claimRecords_of_outcomes {instant claimExpiresAt : Instant} {token : Nat → String} {i : Nat}
    {records : List BlindTransportRecord} {s : Ledger}
    (hnodup : (records.map BlindTransportRecord.key).Nodup)
    (houtcome : ∀ r ∈ records, ∀ claimToken, ∃ p,
      claimOutcome H instant claimExpiresAt r claimToken (s r.key) = .ok p) :
    ∃ results s', claimRecords H instant claimExpiresAt token i records s = .ok results s' := by
  induction records generalizing s i with
  | nil => exact ⟨[], s, rfl⟩
  | cons record rest ih =>
      rw [List.map_cons, List.nodup_cons] at hnodup
      obtain ⟨p, hp⟩ := houtcome record List.mem_cons_self (token i)
      obtain ⟨results, s', hs'⟩ := ih (i := i + 1)
        (s := Function.update s record.key (some p.2)) hnodup.2 fun r hr => by
          have hne : r.key ≠ record.key := fun heq => hnodup.1 (List.mem_map.2 ⟨r, hr, heq⟩)
          rw [Function.update_of_ne hne]
          exact houtcome r (List.mem_cons_of_mem _ hr)
      refine ⟨p.1 :: results, s', ?_⟩
      unfold claimRecords
      rw [bind_apply, claimRecord_apply, hp]
      dsimp only
      rw [bind_apply, hs']
      rfl

/-- `claim_many` returns when every record's claim does. -/
theorem claimMany_of_outcomes {instant claimExpiresAt : Instant} {token : Nat → String}
    {records : List BlindTransportRecord} {leaseFor : Int} {s : Ledger}
    (hlease : validateLeaseDuration leaseFor = .ok ()) (hnonempty : records ≠ [])
    (hlength : records.length ≤ maxLedgerBatchItems)
    (hnodup : (records.map BlindTransportRecord.key).Nodup)
    (hexpiry : expiry instant leaseFor = .ok claimExpiresAt)
    (houtcome : ∀ r ∈ records, ∀ claimToken, ∃ p,
      claimOutcome H instant claimExpiresAt r claimToken (s r.key) = .ok p) :
    ∃ results s', claimMany H (.ok (.aware instant)) token records leaseFor s = .ok results s' ∧
      Claims H instant claimExpiresAt token 0 records results s s' := by
  obtain ⟨results, s', hs'⟩ := (@claimRecords_of_outcomes _ _ _ token 0) hnodup houtcome
  refine ⟨results, s', ?_, claimRecords_ok H hnodup hs'⟩
  unfold claimMany
  rw [lift_ok_bind hlease, if_neg hnonempty,
    lift_ok_bind (validateBatch_of_nodup (by simpa using hlength) hnodup),
    lift_ok_bind (show now (.ok (.aware instant)) = .ok instant from rfl), lift_ok_bind hexpiry]
  exact transaction_of_ok hs'

end DeliveryLedger

namespace SealedSpool

variable {H : Host} {config : SpoolConfig}

/-! ## Sealing one record -/

/-- The checks of a reason code written in ASCII. -/
theorem validateReasonCode_ascii {reasonCode : String} (hlength : reasonCode.length ≤ 96)
    (hletters : reasonCode.toList.filter (· ≠ '_') ≠ [])
    (hascii : (reasonCode.toList.filter (· ≠ '_')).all Char.isAlphanum = true) :
    validateReasonCode H reasonCode = .ok () := by
  have hempty : reasonCode ≠ "" := by
    rintro rfl
    exact hletters rfl
  have halnum : (reasonCode.toList.filter (· ≠ '_')).all H.isAlnum = true := by
    rw [List.all_eq_true] at hascii ⊢
    exact fun c hc => H.isAlnum_ascii c (hascii c hc)
  unfold validateReasonCode
  dsimp only
  rw [if_neg]
  · rfl
  · rintro (h | h | h | h)
    · exact hempty h
    · exact absurd h (Nat.not_lt.2 hlength)
    · exact hletters h
    · rw [halnum] at h
      cases h

/-- What the spool asks of a record it is to seal: its limits and policies hold, and an entry it
already has under the digest is the record's own. -/
structure Admitted (H : Host) (config : SpoolConfig) (rows : Spool)
    (record : BlindTransportRecord) : Prop where
  limits : record.WithinLimits H config.limits
  entry : ∀ row, rows (record.digest H) = some row → ∃ reasonCode instant,
    row = rowOf record reasonCode instant record.canonicalWire

/-- A record within the limits decodes to itself. -/
theorem fromWire_canonical {record : BlindTransportRecord}
    (h : record.WithinLimits H config.limits) :
    fromWire H config (sortMembers (sortValues record.wireMembers)) = .ok record :=
  record.fromWire_loaded h _ _

theorem canonicalWire_of_limits {record : BlindTransportRecord}
    (h : record.WithinLimits H config.limits) :
    canonicalWire H config record = .ok record.canonicalWire := by
  unfold canonicalWire
  dsimp only
  rw [record.plainLoads_canonicalWire]
  simp only [fromWire_canonical h]
  change (if record.digest H ≠ record.digest H ∨
    record.canonicalWire ≠ record.canonicalWire then _ else _) = _
  rw [if_neg (by simp)]
  rfl

theorem prepare_single {record : BlindTransportRecord} {reasonCode : String} {instant : Instant}
    (h : record.WithinLimits H config.limits) :
    prepare H config reasonCode instant 0 0 [record] =
      .ok [(record.digest H, rowOf record reasonCode instant record.canonicalWire)] := by
  have hbatch : record.wireBytes ≤ config.maxBatchWireBytes :=
    h.wireSize.trans config.admitsOneRecord.2
  unfold prepare
  rw [if_neg (by decide), if_neg (Nat.not_lt.2 h.wireSize),
    if_neg (by rw [Nat.zero_add]; exact Nat.not_lt.2 hbatch), canonicalWire_of_limits h]
  rfl

/-- Sealing an admitted record returns, and the spool then holds it. -/
theorem quarantineMany_single {rows : Spool} {record : BlindTransportRecord} {reasonCode : String}
    {instant : Instant} (h : Admitted H config rows record)
    (hreason : validateReasonCode H reasonCode = .ok ()) :
    quarantineMany H config instant [record] reasonCode rows =
      .ok () (Function.update rows (record.digest H)
        (some (rowOf record reasonCode instant record.canonicalWire))) := by
  unfold quarantineMany
  have hprepared := (@prepare_single _ _ _ reasonCode instant) h.limits
  rw [hreason, hprepared]
  change transaction (upsertAll _ >>= fun _ => checkPersisted _) rows = _
  refine transaction_eq_ok_iff.2 ?_
  have hupsert : upsert (record.digest H) (rowOf record reasonCode instant record.canonicalWire)
      rows = .ok () (Function.update rows (record.digest H)
        (some (rowOf record reasonCode instant record.canonicalWire))) := by
    unfold upsert
    rw [bind_apply, get_apply]
    cases hrow : rows (record.digest H) with
    | none => simp only [hrow, set_apply]
    | some row =>
        obtain ⟨reasonCode', instant', rfl⟩ := h.entry row hrow
        simp only [hrow, set_apply, rowOf]
  rw [bind_apply]
  have hall : upsertAll [(record.digest H, rowOf record reasonCode instant record.canonicalWire)]
      rows = .ok () (Function.update rows (record.digest H)
        (some (rowOf record reasonCode instant record.canonicalWire))) := by
    unfold upsertAll
    rw [bind_apply, hupsert]
    rfl
  rw [hall]
  simp only [dictOf, List.foldl_cons, List.foldl_nil, dictSet]
  unfold checkPersisted
  rw [bind_apply, get_apply]
  simp only [Function.update_self, ne_eq, not_true_eq_false, if_false]
  rfl

/-- Reading the entry of an admitted record gives the record. -/
theorem getRecord_sealed {rows : Spool} {record : BlindTransportRecord} {reasonCode : String}
    {instant : Instant} (h : record.WithinLimits H config.limits)
    (hrow : rows (record.digest H) =
      some (rowOf record reasonCode instant record.canonicalWire)) :
    getRecord H config (record.digest H) rows = .ok (some record) rows := by
  have hvalid : validateDigest (record.digest H) = .ok () := by
    unfold validateDigest BlindTransportRecord.digest
    rw [H.sha256Hex_digits]
    rfl
  refine getRecord_of_readRow hvalid hrow ?_
  have hdecode : decodeSpooledRecord H config record.canonicalWire = .ok record := by
    rw [decodeSpooledRecord, record.strictLoads_canonicalWire, record.plainLoads_canonicalWire]
    simp only [fromWire_canonical h]
  have hbytes : ¬(record.canonicalWire.utf8ByteSize = 0 ∨
      record.canonicalWire.utf8ByteSize > config.limits.maxRecordWireBytes) := by
    rw [not_or]
    refine ⟨fun hzero => record.canonicalWire_ne_empty ?_, Nat.not_lt.2 h.wireSize⟩
    exact String.utf8ByteSize_eq_zero_iff.1 hzero
  unfold readRow rowOf
  dsimp only
  rw [if_neg hbytes, hdecode]
  change (if record.digest H ≠ record.digest H then _ else _) = _
  rw [if_neg (not_not.2 rfl), if_neg (not_not.2 rfl)]
  rfl

/-! ## Removing -/

theorem validateDigests_of_hex {digests : List String} {index : Nat}
    (hhex : ∀ d ∈ digests, isLowerHex 64 d = true)
    (hlength : index + digests.length ≤ maxSpoolBatchItems) :
    validateDigests index digests = .ok () := by
  induction digests generalizing index with
  | nil => rfl
  | cons digest rest ih =>
      rw [List.length_cons] at hlength
      have hvalid : validateDigest digest = .ok () := by
        unfold validateDigest
        rw [hhex digest List.mem_cons_self]
        rfl
      unfold validateDigests
      rw [if_neg (by omega), hvalid]
      exact ih (fun d hd => hhex d (List.mem_cons_of_mem _ hd)) (by omega)

/-- Removing digests returns, and the spool then holds none of them. -/
theorem removeMany_of_hex {digests : List String} {rows : Spool}
    (hhex : ∀ d ∈ digests, isLowerHex 64 d = true) (hlength : digests.length ≤ maxSpoolBatchItems) :
    ∃ n, removeMany digests rows =
      .ok n fun digest => if digest ∈ digests then none else rows digest := by
  refine ⟨(digests.dedup.filter fun digest => (rows digest).isSome).length, ?_⟩
  unfold removeMany
  rw [validateDigests_of_hex hhex (by omega)]
  rfl

end SealedSpool

end Polymorph
