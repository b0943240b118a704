import Polymorph.Audit.Runs
import Polymorph.Text.SortedKeys

/-!
# Verifying an untouched log

While nobody changes the table from outside, it holds what the appends returned and verifies. Any
table that verifies and ends in the last returned hash holds the same events, and one that verifies
with the key of the signer holds a beginning of them.
-/

set_option autoImplicit false

namespace Polymorph

open JsonText Utc

/-! ## Payloads -/

/-- `json.loads` reads back what `json.dumps` wrote of an object of texts and nulls, with its keys
in order. -/
def EventLoads.ReadsBack (loads : EventLoads) : Prop :=
  ∀ members : List (String × Json), (members.map Prod.fst).Nodup →
    (∀ m ∈ members, m.2 = .null ∨ ∃ text, m.2 = .str text) →
      loads (canonical (.obj members)) = .value (sortKeys (.obj members))

namespace AuditEvent

theorem payload_keys (event : AuditEvent) (instant : Instant) :
    ((event.payload instant).map Prod.fst).Nodup := by
  unfold payload
  cases event.batchAttemptId with
  | none =>
      have hkeys : ["actor", "connector_id", "event_type", "plan_digest", "reason_code",
        "record_digest", "record_id", "status", "tenant", "timestamp", "transfer_id"].Nodup := by
        decide
      exact hkeys
  | some batchAttemptId =>
      have hkeys : ["actor", "connector_id", "event_type", "plan_digest", "reason_code",
        "record_digest", "record_id", "status", "tenant", "timestamp", "transfer_id",
        "batch_attempt_id"].Nodup := by
        decide
      exact hkeys

theorem optionalText_flat (text : Option String) :
    optionalText text = .null ∨ ∃ t, optionalText text = .str t := by
  cases text with
  | none => exact .inl rfl
  | some t => exact .inr ⟨t, rfl⟩

theorem payload_flat (event : AuditEvent) (instant : Instant) :
    ∀ m ∈ event.payload instant, m.2 = .null ∨ ∃ text, m.2 = .str text := by
  have hreason := optionalText_flat event.reasonCode
  unfold payload
  cases event.batchAttemptId with
  | none => simp [hreason]
  | some batchAttemptId => simp [hreason]

theorem canonicalDict_ok {H : Host} {now : Instant} {event : AuditEvent}
    {members : List (String × Json)} (h : event.canonicalDict H now = .ok members) :
    ∃ instant, members = event.payload instant := by
  unfold canonicalDict at h
  split at h
  · cases h
  split at h
  · cases h
  split at h
  · cases h
  obtain ⟨instant, -, h⟩ := bind_eq_ok h
  obtain ⟨-, h⟩ := guard_eq_ok h
  obtain ⟨-, h⟩ := guard_eq_ok h
  exact ⟨instant, (Except.ok.inj h).symm⟩

end AuditEvent

namespace AuditLog

theorem prepare_ok {H : Host} {now : Nat → Instant} {index total : Nat}
    {events : List (Except Exn (Option AuditEvent))} {prepared : List (List (String × Json))}
    (h : prepare H now index total events = .ok prepared) :
    ∀ payload ∈ prepared, ∃ event instant, payload = AuditEvent.payload event instant := by
  induction events generalizing index total prepared with
  | nil =>
      cases h
      exact List.forall_mem_nil _
  | cons item rest ih =>
      cases item with
      | error e => cases h
      | ok item =>
          unfold prepare at h
          obtain ⟨-, h⟩ := guard_eq_ok h
          cases item with
          | none => cases h
          | some event =>
              obtain ⟨payload, hpayload, h⟩ := bind_eq_ok h
              obtain ⟨-, h⟩ := guard_eq_ok h
              obtain ⟨-, h⟩ := guard_eq_ok h
              obtain ⟨others, hothers, h⟩ := bind_eq_ok h
              cases h
              obtain ⟨instant, hmembers⟩ := AuditEvent.canonicalDict_ok hpayload
              exact List.forall_mem_cons.mpr ⟨⟨event, instant, hmembers⟩, ih hothers⟩

/-! ## A chain verifies -/

section Verified

variable {loads : EventLoads} {ed25519 : List UInt8 → ByteArray → List UInt8 → Bool}

/-- The last hash of a chain is the tip of its texts. -/
theorem ChainedFrom.tip {previousHash : String} {sequence : Nat} {records : List AuditRecord}
    (h : ChainedFrom previousHash sequence records) :
    (records.getLast?.map AuditRecord.eventHash).getD previousHash =
      HashChain.tip chainHash previousHash (records.map fun record => eventText record.event) := by
  change lastHash previousHash records = _
  induction h with
  | nil => rfl
  | cons _ _ hhash _ ih =>
      rw [lastHash_cons, ih, List.map_cons, hhash]
      rfl

theorem ChainedFrom.of_append {previousHash : String} {sequence : Nat}
    {records more : List AuditRecord} (h : ChainedFrom previousHash sequence (records ++ more)) :
    ChainedFrom previousHash sequence records := by
  induction records generalizing previousHash sequence with
  | nil => exact .nil
  | cons record rest ih =>
      cases h with
      | cons hsequence hprevious hhash hrest => exact .cons hsequence hprevious hhash (ih hrest)

theorem ChainedFrom.digests {previousHash : String} {sequence : Nat}
    {records : List AuditRecord} (h : ChainedFrom previousHash sequence records) :
    ∀ record ∈ records, isLowerHex 64 record.eventHash = true := by
  induction h with
  | nil => exact List.forall_mem_nil _
  | cons _ _ hhash _ ih =>
      refine List.forall_mem_cons.mpr ⟨?_, ih⟩
      rw [hhash]
      exact isLowerHex_chainHash _ _

/-- A row that fits goes before verified rows. -/
theorem verifiedRows_cons {key : Option (List UInt8)} {previousHash : String} {sequence : Nat}
    {row : AuditRow} {rows : List AuditRow} {event : List (String × Json)}
    {others : List (AuditRow × List (String × Json))} (hsequence : row.sequence = sequence)
    (hload : loadEvent loads row.eventJson = .ok event)
    (hprevious : row.previousHash = previousHash)
    (hhash : hashEncoded previousHash (canonical (.obj event)) = .ok row.eventHash)
    (hsignature : checkSignature ed25519 key row.eventHash row.signature = .ok ())
    (hothers : verifiedRows loads ed25519 key row.eventHash (sequence + 1) rows = .ok others) :
    verifiedRows loads ed25519 key previousHash sequence (row :: rows) =
      .ok ((row, event) :: others) := by
  unfold verifiedRows
  rw [if_neg (not_not.mpr hsequence), hload, ok_bind, if_neg (not_not.mpr hprevious), hhash]
  simp only [ok_bind, ne_eq, not_true_eq_false, if_false, hsignature, hothers]
  rfl

/-- The rows of a chain of payloads verify. -/
theorem ChainedFrom.verified (hloads : loads.ReadsBack) {key : Option (List UInt8)}
    {previousHash : String} {sequence : Nat} {records : List AuditRecord}
    (h : ChainedFrom previousHash sequence records) (hdigest : isLowerHex 64 previousHash = true)
    (hpayloads : ∀ record ∈ records, ∃ event instant,
      record.event = AuditEvent.payload event instant)
    (hsigned : ∀ record ∈ records,
      checkSignature ed25519 key record.eventHash record.signature = .ok ()) :
    ∃ verified, verifiedRows loads ed25519 key previousHash sequence
      (records.map AuditRecord.row) = .ok verified ∧ verified.length = records.length := by
  induction h with
  | nil => exact ⟨[], rfl, rfl⟩
  | @cons previousHash sequence record rest hsequence hprevious hhash hrest ih =>
      obtain ⟨⟨event, instant, hevent⟩, hpayloads⟩ := List.forall_mem_cons.mp hpayloads
      obtain ⟨hsignature, hsigned⟩ := List.forall_mem_cons.mp hsigned
      have hnext : isLowerHex 64 record.eventHash = true := by
        rw [hhash]
        exact isLowerHex_chainHash _ _
      obtain ⟨others, hothers, hlength⟩ := ih hnext hpayloads hsigned
      -- The loaded event has its keys in order, which the hash does not mind.
      have hload : loadEvent loads record.row.eventJson =
          .ok (sortMembers (sortValues record.event)) := by
        unfold loadEvent AuditRecord.row
        rw [hloads record.event (by rw [hevent]; exact AuditEvent.payload_keys _ _)
          (by rw [hevent]; exact AuditEvent.payload_flat _ _)]
        rfl
      have htext : eventText (sortMembers (sortValues record.event)) = eventText record.event :=
        congrArg dumps (sortKeys_sortKeys (.obj record.event))
      have hexpected : hashEncoded previousHash
          (canonical (.obj (sortMembers (sortValues record.event)))) = .ok record.eventHash := by
        change hashEncoded previousHash (eventText _) = _
        rw [htext, hashEncoded_digest hdigest, hhash]
        rfl
      refine ⟨(record.row, sortMembers (sortValues record.event)) :: others, ?_,
        congrArg (· + 1) hlength⟩
      exact verifiedRows_cons hsequence hload hprevious hexpected hsignature hothers

end Verified

end AuditLog

/-! ## Signatures -/

/-- The value of a digit is below 16 and names it. -/
theorem hexDigitValue_digit {c : Char} (h : isLowerHexChar c = true) :
    hexDigitValue c < 16 ∧ Nat.digitChar (hexDigitValue c) = c := by
  have hall : ("0123456789abcdef".toList.all fun c =>
      hexDigitValue c < 16 ∧ Nat.digitChar (hexDigitValue c) = c) = true := by
    decide
  exact of_decide_eq_true (List.all_eq_true.mp hall c (List.contains_iff_mem.mp h))

theorem hexByte_inj {a b c d : Char} (ha : isLowerHexChar a = true) (hb : isLowerHexChar b = true)
    (hc : isLowerHexChar c = true) (hd : isLowerHexChar d = true)
    (h : UInt8.ofNat (16 * hexDigitValue a + hexDigitValue b) =
      UInt8.ofNat (16 * hexDigitValue c + hexDigitValue d)) : a = c ∧ b = d := by
  obtain ⟨hka, ha⟩ := hexDigitValue_digit ha
  obtain ⟨hkb, hb⟩ := hexDigitValue_digit hb
  obtain ⟨hkc, hc⟩ := hexDigitValue_digit hc
  obtain ⟨hkd, hd⟩ := hexDigitValue_digit hd
  have hvalue := congrArg UInt8.toNat h
  rw [UInt8.toNat_ofNat', UInt8.toNat_ofNat'] at hvalue
  have hhigh : hexDigitValue a = hexDigitValue c := by omega
  have hlow : hexDigitValue b = hexDigitValue d := by omega
  rw [← ha, ← hb, ← hc, ← hd, hhigh, hlow]
  exact ⟨rfl, rfl⟩

theorem fromHex_inj (n : Nat) {cs ds : List Char} (hcs : cs.length = 2 * n)
    (hds : ds.length = 2 * n) (hhex : ∀ c ∈ cs, isLowerHexChar c = true)
    (hhex' : ∀ d ∈ ds, isLowerHexChar d = true) (h : fromHex cs = fromHex ds) : cs = ds := by
  induction n generalizing cs ds with
  | zero =>
      rw [List.eq_nil_of_length_eq_zero hcs, List.eq_nil_of_length_eq_zero hds]
  | succ n ih =>
      -- Two digits of each make a byte.
      obtain ⟨a, cs, rfl⟩ := List.exists_cons_of_length_pos (l := cs) (by omega)
      rw [List.length_cons] at hcs
      obtain ⟨b, cs, rfl⟩ := List.exists_cons_of_length_pos (l := cs) (by omega)
      rw [List.length_cons] at hcs
      obtain ⟨c, ds, rfl⟩ := List.exists_cons_of_length_pos (l := ds) (by omega)
      rw [List.length_cons] at hds
      obtain ⟨d, ds, rfl⟩ := List.exists_cons_of_length_pos (l := ds) (by omega)
      rw [List.length_cons] at hds
      rw [List.forall_mem_cons, List.forall_mem_cons] at hhex hhex'
      unfold fromHex at h
      obtain ⟨hbyte, hrest⟩ := List.cons.inj h
      obtain ⟨rfl, rfl⟩ := hexByte_inj hhex.1 hhex.2.1 hhex'.1 hhex'.2.1 hbyte
      rw [ih (by omega) (by omega) hhex.2.2 hhex'.2.2 hrest]

/-- The signed bytes determine the digest. -/
theorem digestBytes_inj {digest digest' : String} (hdigest : isLowerHex 64 digest = true)
    (hdigest' : isLowerHex 64 digest' = true) (h : digestBytes digest = digestBytes digest') :
    digest = digest' := by
  unfold isLowerHex at hdigest hdigest'
  rw [Bool.and_eq_true, decide_eq_true_eq, List.all_eq_true] at hdigest hdigest'
  have hbytes := congrArg (fun bytes : ByteArray => bytes.data.toList) h
  exact String.toList_inj.mp (fromHex_inj 32 hdigest.1 hdigest'.1 hdigest.2 hdigest'.2 hbytes)

section Signatures

variable {loads : EventLoads} {ed25519 : List UInt8 → ByteArray → List UInt8 → Bool}
  {key : List UInt8}

theorem checkSignature_ok {digest : String} {signature : Option (List UInt8)}
    (h : checkSignature ed25519 (some key) digest signature = .ok ()) :
    ∃ s, ed25519 key (digestBytes digest) s = true := by
  unfold checkSignature at h
  cases signature with
  | none => cases h
  | some s =>
      refine ⟨s, ?_⟩
      dsimp only at h
      by_contra hrefused
      rw [Bool.not_eq_true] at hrefused
      unfold SourceTrustStore.verifyEd25519 at h
      rw [if_pos hrefused] at h
      split at h
      · cases h
      · split at h
        · cases h
        · cases h

/-- Each row of a table that verifies with a key has a digest for which a signature of the key was
accepted. -/
theorem signed_of_verifiedRows {rows : List AuditRow}
    {verified : List (AuditRow × List (String × Json))} {previousHash : String} {sequence : Nat}
    (h : verifiedRows loads ed25519 (some key) previousHash sequence rows = .ok verified) :
    ∀ row ∈ rows, isLowerHex 64 row.eventHash = true ∧
      ∃ s, ed25519 key (digestBytes row.eventHash) s = true := by
  induction rows generalizing previousHash sequence verified with
  | nil => exact List.forall_mem_nil _
  | cons row rows ih =>
      unfold verifiedRows at h
      obtain ⟨-, h⟩ := guard_eq_ok h
      obtain ⟨event, -, h⟩ := bind_eq_ok h
      obtain ⟨-, h⟩ := guard_eq_ok h
      obtain ⟨expectedHash, hexpected, h⟩ := bind_eq_ok h
      obtain ⟨hhash, h⟩ := guard_eq_ok h
      obtain ⟨⟨⟩, hsignature, h⟩ := bind_eq_ok h
      obtain ⟨others, hothers, h⟩ := bind_eq_ok h
      refine List.forall_mem_cons.mpr ⟨?_, ih hothers⟩
      rw [not_not.mp hhash]
      refine ⟨?_, checkSignature_ok hsignature⟩
      rw [hashEncoded_ok hexpected]
      exact isLowerHex_chainHash _ _

end Signatures

/-! ## Runs of appends -/

/-- Nobody changes the rows from outside. -/
def AuditStep.Appends : AuditStep → Prop
  | .opened => True
  | .append .. => True
  | .deleted _ => False
  | .updated _ => False

/-- The log of the step, when it appends, has a property. -/
def AuditStep.LogHas (allowed : AuditLog → Prop) : AuditStep → Prop
  | .append log _ _ _ => allowed log
  | _ => True

namespace AuditHistory

/-- A history of logs with a property, on a file that nobody else changes. -/
structure Untouched (allowed : AuditLog → Prop) (h : AuditHistory) : Prop where
  kept : h.Kept
  rows : h.file.events = h.returned.map AuditRecord.row
  chained : AuditLog.ChainedFrom genesisHash 1 h.returned
  payloads : ∀ record ∈ h.returned, ∃ event instant,
    record.event = AuditEvent.payload event instant
  logs : ∀ record ∈ h.returned, ∃ log, allowed log ∧
    record.signature = log.signer.map fun s => s.sign (digestBytes record.eventHash)

variable {H : Host} {h : AuditHistory} {allowed : AuditLog → Prop}

theorem untouched_initial : Untouched allowed {} where
  kept := kept_initial
  rows := rfl
  chained := .nil
  payloads := List.forall_mem_nil _
  logs := List.forall_mem_nil _

theorem untouched_opened (hu : h.Untouched allowed) :
    Untouched allowed { h with file := h.file.initialized } := by
  have hkept := kept_opened hu.kept
  unfold AuditFile.initialized at hkept ⊢
  cases husage : h.file.usage with
  | some usage => exact hu
  | none =>
      rw [husage] at hkept
      exact ⟨hkept, hu.rows, hu.chained, hu.payloads, hu.logs⟩

theorem untouched_appended (hu : h.Untouched allowed) {log : AuditLog} (hlog : allowed log)
    {prepared : List (List (String × Json))} {records : List AuditRecord} {last : AuditFile}
    {usage : AuditUsage} (happended : log.Appended prepared h.file records last usage)
    (hne : prepared ≠ [])
    (hprepared : ∀ payload ∈ prepared, ∃ event instant,
      payload = AuditEvent.payload event instant) :
    Untouched allowed ⟨last, h.returned ++ records⟩ := by
  have hrows := (happended.rows hu.kept.increasing).1
  obtain ⟨hlast, -⟩ := hu.kept.full happended hne
  have hsequence : h.file.lastSequence = h.returned.length := by
    rw [hlast, hu.kept.length_returned]
  have hprevious : (h.file.events.getLast?.map AuditRow.eventHash).getD genesisHash =
      AuditLog.lastHash genesisHash h.returned := by
    unfold AuditLog.lastHash
    rw [hu.rows, List.getLast?_map, Option.map_map]
    rfl
  have hchained := happended.chained
  rw [hprevious, hsequence, Nat.add_comm] at hchained
  refine ⟨hu.kept.appended happended hne, ?_, hu.chained.append hchained, ?_, ?_⟩
  · change last.events = (h.returned ++ records).map AuditRecord.row
    rw [hrows, hu.rows, List.map_append]
  · intro record hrecord
    rcases List.mem_append.mp hrecord with hrecord | hrecord
    · exact hu.payloads record hrecord
    · apply hprepared
      rw [← happended.payloads]
      exact List.mem_map_of_mem hrecord
  · intro record hrecord
    rcases List.mem_append.mp hrecord with hrecord | hrecord
    · exact hu.logs record hrecord
    · exact ⟨log, hlog, happended.signed record hrecord⟩

theorem untouched_step (hu : h.Untouched allowed) {action : AuditStep}
    (happends : action.Appends) (hlog : action.LogHas allowed) :
    (step H h action).Untouched allowed := by
  cases action with
  | opened => exact untouched_opened hu
  | append log now fault events =>
      rcases step_append_cases H h log now fault events with
        hstep | ⟨prepared, records, last, usage, hne, hprepared, happended, hstep⟩
      · rw [hstep]
        exact hu
      · rw [hstep]
        exact untouched_appended hu hlog happended hne (AuditLog.prepare_ok hprepared)
  | deleted gone => cases happends
  | updated change => cases happends

theorem untouched_run {steps : List AuditStep} (happends : ∀ action ∈ steps, action.Appends)
    (hlogs : ∀ action ∈ steps, action.LogHas allowed) : (run H steps).Untouched allowed := by
  induction steps using List.reverseRecOn with
  | nil => exact untouched_initial
  | append_singleton steps action ih =>
      rw [List.forall_mem_append] at happends hlogs
      unfold run
      rw [List.foldl_append]
      exact untouched_step (ih happends.1 hlogs.1) (happends.2 action (List.mem_singleton_self _))
        (hlogs.2 action (List.mem_singleton_self _))

/-- Whatever the logs are. -/
theorem logHas_true (action : AuditStep) : action.LogHas fun _ => True := by
  cases action <;> trivial

/-- A table that nobody touched verifies, if its signatures do. -/
theorem Untouched.verified (hu : h.Untouched allowed) {loads : EventLoads}
    (hloads : loads.ReadsBack) {ed25519 : List UInt8 → ByteArray → List UInt8 → Bool}
    {key : Option (List UInt8)}
    (hsigned : ∀ record ∈ h.returned,
      checkSignature ed25519 key record.eventHash record.signature = .ok ()) :
    ∃ verified, verifiedEvents loads ed25519 key h.file.events = .ok verified ∧
      verified.length = h.returned.length := by
  unfold verifiedEvents
  rw [hu.rows]
  exact hu.chained.verified hloads isLowerHex_genesisHash hu.payloads hsigned

/-- The canonical texts of the returned events. -/
def texts (h : AuditHistory) : List String := h.returned.map fun record => eventText record.event

/-- **The last hash pins the history**: in every run of appends, of any logs, whether they return or
raise, the table verifies to the number of the returned records, and each table that verifies and
ends in the last returned hash holds the canonical texts of the returned events, in their order and
no others, unless the hash is broken. -/
theorem last_hash_pins_history {steps : List AuditStep}
    (happends : ∀ action ∈ steps, action.Appends) {loads : EventLoads} (hloads : loads.ReadsBack)
    (ed25519 : List UInt8 → ByteArray → List UInt8 → Bool) :
    verifyAudit loads ed25519 none (run H steps).file.events =
        .ok (run H steps).returned.length ∧
    ∀ (key : Option (List UInt8)) (rows : List AuditRow)
      (verified : List (AuditRow × List (String × Json))),
      verifiedEvents loads ed25519 key rows = .ok verified →
        rows.getLast?.map AuditRow.eventHash =
            (run H steps).returned.getLast?.map AuditRecord.eventHash →
          (verified.map fun v => eventText v.2) = (run H steps).texts ∨
            HashBroken (verified.map fun v => eventText v.2) (run H steps).texts := by
  have hu : (run H steps).Untouched fun _ => True :=
    untouched_run happends fun action _ => logHas_true action
  constructor
  · have hsigned : ∀ record ∈ (run H steps).returned,
        checkSignature ed25519 none record.eventHash record.signature = .ok () := fun _ _ => rfl
    obtain ⟨own, hown, hlength⟩ := hu.verified hloads hsigned
    unfold verifyAudit
    rw [hown, ok_bind, hlength]
    rfl
  · intro key rows verified hverified hlast
    -- Both chains start from the digest of zeros and have one tip.
    apply texts_eq_or_broken
    rw [← tip_of_verifiedRows isLowerHex_genesisHash hverified, hlast]
    exact hu.chained.tip

/-- `json.loads` on texts without fractions. -/
def plainEventLoads (text : String) : LoadedEvent :=
  match plainLoads text with
  | some j => .value j
  | none => .invalid

theorem plain_of_flat {members : List (String × Json)}
    (h : ∀ m ∈ members, m.2 = .null ∨ ∃ text, m.2 = .str text) :
    integralMembers members = true ∧ strictMembers members = true := by
  induction members with
  | nil => exact ⟨rfl, rfl⟩
  | cons m rest ih =>
      obtain ⟨hfirst, hrest⟩ := List.forall_mem_cons.mp h
      obtain ⟨key, value⟩ := m
      obtain ⟨hintegral, hstrict⟩ := ih hrest
      rcases hfirst with rfl | ⟨text, rfl⟩
      · exact ⟨hintegral, hstrict⟩
      · exact ⟨hintegral, hstrict⟩

theorem readsBack_plainEventLoads : EventLoads.ReadsBack plainEventLoads := by
  intro members hkeys hflat
  obtain ⟨hintegral, hstrict⟩ := plain_of_flat hflat
  unfold plainEventLoads
  rw [plainLoads_canonical (j := .obj members) hintegral]
  rw [strict, hstrict, Bool.and_true]
  exact decide_eq_true hkeys

/-- A signer whose signatures are zeros. -/
def zeroSigner : SigningKeyPair where
  publicBytes := List.replicate 32 0
  sign _ := List.replicate 64 0
  publicBytes_length := List.length_replicate
  sign_length _ := List.length_replicate

/-- A log that signs. -/
def signedLog : AuditLog where
  signer := some zeroSigner
  maxEvents_pos := by decide
  maxLogicalBytes_pos := by decide

/-- The event of the run. -/
def sealedEvent : AuditEvent where
  eventType := "record_sealed"
  actor := "source-agent"
  status := "sealed"
  tenant := "tenant-a"
  connectorId := "orders"
  transferId := "transfer-1"
  recordId := "record-1"
  recordDigest := genesisHash
  planDigest := genesisHash

/-- A log is created and appends an event. -/
def sealedSteps : List AuditStep :=
  [.opened, .append signedLog (fun _ => ⟨⟨2026, 1, 1, 0, 0, 0, 0⟩, Utc.valid_newYear2026⟩) none
    [.ok (some sealedEvent)]]

theorem appends_sealedSteps : ∀ action ∈ sealedSteps, action.Appends :=
  List.forall_mem_cons.mpr ⟨trivial, List.forall_mem_singleton.mpr trivial⟩

theorem last_hash_pins_history_sample :
    verifyAudit plainEventLoads (fun _ _ _ => true) none
        (run standardHost sealedSteps).file.events =
      .ok (run standardHost sealedSteps).returned.length :=
  (last_hash_pins_history appends_sealedSteps readsBack_plainEventLoads fun _ _ _ => true).1

/-- A library that accepts signatures for the hashes of the run only. -/
noncomputable def acceptsReturned (_ : List UInt8) (payload : ByteArray) (_ : List UInt8) : Bool :=
  (run standardHost sealedSteps).returned.any fun record => payload = digestBytes record.eventHash

theorem verified_sealedSteps :
    ∃ verified, verifiedEvents plainEventLoads acceptsReturned (some zeroSigner.publicBytes)
      (run standardHost sealedSteps).file.events = .ok verified := by
  have hlogs : ∀ action ∈ sealedSteps, action.LogHas (· = signedLog) :=
    List.forall_mem_cons.mpr ⟨trivial, List.forall_mem_singleton.mpr rfl⟩
  have hu : (run standardHost sealedSteps).Untouched (· = signedLog) :=
    untouched_run appends_sealedSteps hlogs
  have hsigned : ∀ record ∈ (run standardHost sealedSteps).returned,
      checkSignature acceptsReturned (some zeroSigner.publicBytes) record.eventHash
        record.signature = .ok () := by
    intro record hrecord
    obtain ⟨log, rfl, hsignature⟩ := hu.logs record hrecord
    have haccepts : acceptsReturned zeroSigner.publicBytes (digestBytes record.eventHash)
        (zeroSigner.sign (digestBytes record.eventHash)) = true :=
      List.any_eq_true.mpr ⟨record, hrecord, decide_eq_true rfl⟩
    rw [hsignature]
    change SourceTrustStore.verifyEd25519 acceptsReturned zeroSigner.publicBytes _
      (zeroSigner.sign (digestBytes record.eventHash)) = .ok ()
    unfold SourceTrustStore.verifyEd25519
    rw [if_neg (not_not.mpr zeroSigner.publicBytes_length),
      if_neg (not_not.mpr (zeroSigner.sign_length _)), haccepts]
    rfl
  obtain ⟨verified, hverified, -⟩ := hu.verified readsBack_plainEventLoads hsigned
  exact ⟨verified, hverified⟩

end AuditHistory

end Polymorph
