import Polymorph.Delivery.Runtime

/-!
# Proof rules for the runtime's programs

The runtime's control flow, once and for all. Calls that touch neither a store nor the destination
are `Silent` in every specification used here. `DeliveryRules` and `ReplayRules` list what remains
to be shown of a specification: what holds after an ambiguous claim, a quarantine before the write
boundary, a scalar write, a batch write, and a rearmed replay. From them `keeps_deliver`,
`keeps_deliverMany` and `keeps_replay` give the whole entry points.
-/

set_option autoImplicit false

namespace Polymorph

open Concurrency Prog

/-- Calls without effect on a store or on the destination. -/
def Op.isSilent : Op → Bool
  | .capabilities => true
  | .authorizeRecord _ => true
  | .authorizeCapability _ _ => true
  | .openRecord _ _ => true
  | .resolveForeignKey _ _ _ => true
  | _ => false

variable {γ α β : Type} {S : Spec Op Op.Res Exn γ}

/-- Silent calls are free and leave the ghost value alone. -/
structure Silent (S : Spec Op Op.Res Exn γ) : Prop where
  pre : ∀ op g, op.isSilent = true → S.pre op g
  next : ∀ op g r, op.isSilent = true → S.next op g r = g

/-- However `p` ends, the ghost value satisfies `I`. -/
def Keeps (S : Spec Op Op.Res Exn γ) (I : γ → Prop) (p : RuntimeM α) (g : γ) : Prop :=
  wp S (fun _ g' => I g') p g

/-- `p` leaves the ghost value alone. -/
def Quiet (S : Spec Op Op.Res Exn γ) (p : RuntimeM α) (g : γ) : Prop := Keeps S (· = g) p g

variable {I J : γ → Prop} {g : γ}

theorem keeps_pure {a : α} (h : I g) : Keeps S I (pure a : RuntimeM α) g := h

theorem keeps_raise {e : Exn} (h : I g) : Keeps S I (raise e : RuntimeM α) g := h

theorem keeps_mono {p : RuntimeM α} (hp : Keeps S J p g) (h : ∀ g', J g' → I g') :
    Keeps S I p g :=
  wp_mono S (fun _ g' hg' => h g' hg') p g hp

theorem keeps_bind {p : RuntimeM α} {f : α → RuntimeM β} (hp : Keeps S J p g)
    (hf : ∀ a g', J g' → Keeps S I (f a) g') (he : ∀ g', J g' → I g') :
    Keeps S I (p >>= f) g := by
  refine wp_bind_of S hp fun r g' hg' => ?_
  cases r with
  | ok a => exact hf a g' hg'
  | error e => exact he g' hg'

theorem keeps_attempt_bind {p : RuntimeM α} {f : Except Exn α → RuntimeM β} (hp : Keeps S J p g)
    (hf : ∀ r g', J g' → Keeps S I (f r) g') : Keeps S I (attempt p >>= f) g :=
  wp_attempt_of S hp hf

/-- One call whose exception is handled. -/
theorem keeps_attempt_call {op : Op} {f : Except Exn op.Res → RuntimeM β} (hpre : S.pre op g)
    (hf : ∀ r, S.allowed op g r → Keeps S I (f r) (S.next op g r)) :
    Keeps S I (attempt (call op) >>= f) g :=
  (wp_attempt_perform_bind S op f _ g).2 ⟨hpre, hf⟩

/-- One call whose exception ends the program. -/
theorem keeps_call {op : Op} {f : op.Res → RuntimeM β} (hpre : S.pre op g)
    (hok : ∀ a, S.allowed op g (.ok a) → Keeps S I (f a) (S.next op g (.ok a)))
    (herror : ∀ e, S.allowed op g (.error e) → I (S.next op g (.error e))) :
    Keeps S I (call op >>= f) g := by
  refine (wp_perform_bind S op f _ g).2 ⟨hpre, fun r hr => ?_⟩
  cases r with
  | ok a => exact hok a hr
  | error e => exact herror e hr

/-- The same for a ledger call whose answer is not used. -/
theorem keeps_ledgerCall {c : LedgerCall} (hpre : S.pre (.ledger c) g)
    (h : ∀ r, S.allowed (.ledger c) g r → I (S.next (.ledger c) g r)) :
    Keeps S I (DestinationRuntime.ledgerCall c) g :=
  keeps_call hpre (fun a ha => h (.ok a) ha) fun e he => h (.error e) he

/-- A ledger call whose exception is handled. -/
theorem keeps_attempt_ledgerCall {c : LedgerCall} {f : Except Exn Unit → RuntimeM β}
    (hpre : S.pre (.ledger c) g)
    (hok : ∀ a, S.allowed (.ledger c) g (.ok a) →
      Keeps S I (f (.ok ())) (S.next (.ledger c) g (.ok a)))
    (herror : ∀ e, S.allowed (.ledger c) g (.error e) →
      Keeps S I (f (.error e)) (S.next (.ledger c) g (.error e))) :
    Keeps S I (attempt (DestinationRuntime.ledgerCall c) >>= f) g := by
  refine (wp_bind S _ f _ g).2 ((wp_attempt S _ _ g).2 ?_)
  refine (wp_perform_bind S (.ledger c) _ _ g).2 ⟨hpre, fun r hr => ?_⟩
  cases r with
  | ok a => exact hok a hr
  | error e => exact herror e hr

theorem quiet_call (hS : Silent S) {op : Op} (hop : op.isSilent = true) : Quiet S (call op) g :=
  ⟨hS.pre op g hop, fun r _ => hS.next op g r hop⟩

theorem quiet_bind {p : RuntimeM α} {f : α → RuntimeM β} (hp : Quiet S p g)
    (hf : ∀ a, Quiet S (f a) g) : Quiet S (p >>= f) g :=
  keeps_bind hp (fun a _ hg' => hg' ▸ hf a) fun _ hg' => hg'

theorem Quiet.keeps_bind {p : RuntimeM α} {f : α → RuntimeM β} (hp : Quiet S p g)
    (hf : ∀ a, Keeps S I (f a) g) (he : I g) : Keeps S I (p >>= f) g :=
  Polymorph.keeps_bind hp (fun a _ hg' => hg' ▸ hf a) fun _ hg' => hg' ▸ he

theorem Quiet.keeps_attempt_bind {p : RuntimeM α} {f : Except Exn α → RuntimeM β}
    (hp : Quiet S p g) (hf : ∀ r, Keeps S I (f r) g) : Keeps S I (attempt p >>= f) g :=
  Polymorph.keeps_attempt_bind hp fun r _ hg' => hg' ▸ hf r

namespace DestinationRuntime

variable {H : Host} {rt : DestinationRuntime}

/-! ## Silent parts -/

theorem quiet_authorizeCapability (hS : Silent S) (operation : CapabilityOperation)
    (record : BlindTransportRecord) : Quiet S (rt.authorizeCapability operation record) g := by
  unfold authorizeCapability
  split
  · exact quiet_call hS rfl
  · exact keeps_pure rfl

theorem quiet_applyDestinationTransform (hS : Silent S) (rule : MappingRule) (payload : Payload) :
    Quiet S (rt.applyDestinationTransform rule payload) g := by
  unfold applyDestinationTransform
  split
  · exact keeps_pure rfl
  · split
    · exact keeps_raise rfl
    · split
      · exact keeps_raise rfl
      · dsimp only
        split
        · split
          · exact keeps_pure rfl
          · split
            · exact keeps_raise rfl
            · refine quiet_bind (quiet_call hS rfl) fun resolved => ?_
              split
              · exact keeps_raise rfl
              · exact keeps_pure rfl
        · exact keeps_raise rfl

theorem quiet_applyDestinationTransforms (hS : Silent S) (rules : List MappingRule)
    (payload : Payload) : Quiet S (rt.applyDestinationTransforms rules payload) g := by
  induction rules generalizing payload with
  | nil => exact keeps_pure rfl
  | cons rule rest ih =>
      exact quiet_bind (quiet_applyDestinationTransform hS rule payload) fun payload' =>
        ih payload'

/-- The reason codes of a quarantine before the write boundary. -/
def beforeWriteReasons : List String :=
  ["transport_verification_failed", "destination_contract_failed", "destination_resolution_failed",
    "destination_capability_changed", "atomic_batch_capability_changed",
    "replay_capability_changed"]

/-- The outcome of the checks before the write boundary: a payload or a known reason code. -/
def Checked : Except Exn (Except String Payload) → Prop
  | .ok (.ok _) => True
  | .ok (.error reasonCode) => reasonCode ∈ beforeWriteReasons
  | .error _ => False

/-- The checks before the write boundary change nothing and do not raise. -/
theorem quiet_checkedPayload (hS : Silent S) {record : BlindTransportRecord}
    {opened : RuntimeM Payload} (hopened : Quiet S opened g) :
    wp S (fun r g' => g' = g ∧ Checked r) (rt.checkedPayload H record opened) g := by
  refine wp_attempt_of S hopened fun r g' hg' => ?_
  subst hg'
  cases r with
  | error e => exact ⟨rfl, by simp [Checked, beforeWriteReasons]⟩
  | ok payload =>
      dsimp only
      split
      · exact ⟨rfl, by simp [Checked, beforeWriteReasons]⟩
      · refine wp_attempt_of S (quiet_applyDestinationTransforms hS _ _) fun r g'' hg'' => ?_
        subst hg''
        cases r with
        | error e => exact ⟨rfl, by simp [Checked, beforeWriteReasons]⟩
        | ok payload' =>
            dsimp only
            split
            · exact ⟨rfl, trivial⟩
            · exact ⟨rfl, by simp [Checked, beforeWriteReasons]⟩

theorem wp_checkedPayload (hS : Silent S) {Q : Except Exn β → γ → Prop}
    {record : BlindTransportRecord} {opened : RuntimeM Payload}
    {f : Except String Payload → RuntimeM β} (hopened : Quiet S opened g)
    (hf : ∀ r, Checked (.ok r) → wp S Q (f r) g) :
    wp S Q (rt.checkedPayload H record opened >>= f) g := by
  refine wp_bind_of S (quiet_checkedPayload hS hopened) fun r g' hr => ?_
  obtain ⟨rfl, hchecked⟩ := hr
  cases r with
  | ok a => exact hf a hchecked
  | error e => cases hchecked

theorem keeps_capabilityChanged (hS : Silent S) {caps : ConnectorCapabilities}
    {f : Bool → RuntimeM β} (hf : ∀ changed, Keeps S I (f changed) g) :
    Keeps S I (capabilityChanged caps >>= f) g := by
  have hquiet : wp S (fun r g' => g' = g ∧ r.isOk = true) (capabilityChanged caps) g := by
    refine wp_attempt_of S (quiet_call hS rfl) fun r g' hg' => ?_
    subst hg'
    cases r with
    | error e => exact ⟨rfl, rfl⟩
    | ok current => exact ⟨rfl, rfl⟩
  refine wp_bind_of S hquiet fun r g' hr => ?_
  obtain ⟨rfl, hok⟩ := hr
  cases r with
  | ok a => exact hf a
  | error e => cases hok

theorem quiet_openClaimed (hS : Silent S) (record : BlindTransportRecord) (c : ClaimedDelivery) :
    Quiet S (openClaimed record c) g := by
  unfold openClaimed
  split
  · exact quiet_call hS rfl
  · exact quiet_bind (quiet_call hS rfl) fun _ => quiet_call hS rfl

theorem quiet_authorizeRecords (hS : Silent S) (records : List BlindTransportRecord) :
    Quiet S (authorizeRecords records) g := by
  induction records with
  | nil => exact keeps_pure rfl
  | cons record rest ih =>
      exact quiet_bind (quiet_call hS rfl) fun _ => quiet_bind ih fun _ => keeps_pure rfl

theorem quiet_authorizeCapabilities (hS : Silent S) (records : List BlindTransportRecord) :
    Quiet S (rt.authorizeCapabilities records) g := by
  induction records with
  | nil => exact keeps_pure rfl
  | cons record rest ih =>
      exact quiet_bind (quiet_authorizeCapability hS _ _) fun _ => ih

/-! ## One claimed record -/

/-- A claimed delivery ends in a quarantine before the write boundary or crosses it. -/
theorem keeps_deliverClaimed (hS : Silent S) {record : BlindTransportRecord} {c : ClaimedDelivery}
    (hquarantine : ∀ reasonCode retrySafe, reasonCode ∈ beforeWriteReasons → Keeps S I
      (quarantineBeforeWrite H record reasonCode c.claimToken c.claimedState c.batchAttemptId
        retrySafe) g)
    (hwrite : ∀ payload, Keeps S I (crossAndWrite H record c payload) g) :
    Keeps S I (rt.deliverClaimed H record c) g := by
  refine wp_checkedPayload hS (quiet_openClaimed hS record c) fun r hr => ?_
  cases r with
  | error reasonCode => exact hquarantine reasonCode _ hr
  | ok payload =>
      refine keeps_capabilityChanged hS fun changed => ?_
      split
      · refine hquarantine _ _ ?_
        split <;> simp [beforeWriteReasons]
      · exact hwrite payload

/-- What a specification owes for the deliveries of records that satisfy `P`, under the capabilities
`caps`. `I caps K` holds between the steps of a job that has claimed the records `K`. -/
structure DeliveryRules (H : Host) (S : Spec Op Op.Res Exn γ) (P : BlindTransportRecord → Prop)
    (I : ConnectorCapabilities → List BlindTransportRecord → γ → Prop) : Prop where
  silent : Silent S
  weaken : ∀ {caps g K K'}, I caps K g → K' ⊆ K → I caps K' g
  claim : ∀ {caps g K} records leaseFor, (∀ r ∈ records, P r) → I caps K g →
    S.pre (.ledger (.claimMany records leaseFor)) g ∧
    (∀ a, S.allowed (.ledger (.claimMany records leaseFor)) g (.ok a) →
      I caps records (S.next (.ledger (.claimMany records leaseFor)) g (.ok a))) ∧
    ∀ e, S.allowed (.ledger (.claimMany records leaseFor)) g (.error e) →
      I caps K (S.next (.ledger (.claimMany records leaseFor)) g (.error e))
  ambiguous : ∀ {caps g K} record claim, record ∈ K → I caps K g →
    Keeps S (I caps K) (deliverAmbiguous H record claim) g
  quarantine : ∀ {caps g K} record reasonCode claimToken retrySafe,
    reasonCode ∈ beforeWriteReasons → record ∈ K → I caps K g → Keeps S (I caps K)
      (quarantineBeforeWrite H record reasonCode claimToken .claimed none retrySafe) g
  write : ∀ {caps g K} record claimToken privateKey payload, record ∈ K → I caps K g →
    Keeps S (I caps K)
      (crossAndWrite H record
        { claimToken := claimToken, authorizedPrivateKey := some privateKey
          authorizedCapabilities := caps } payload) g
  writeBatch : ∀ {caps g K} prepared receipts, (∀ p ∈ prepared, p.record ∈ K) → I caps K g →
    Keeps S (I caps K) (crossAndWriteBatch H prepared caps receipts) g

variable {caps : ConnectorCapabilities} {P : BlindTransportRecord → Prop}
  {I : ConnectorCapabilities → List BlindTransportRecord → γ → Prop}
  {K : List BlindTransportRecord}

theorem keeps_deliverWithCapabilities (R : DeliveryRules H S P I) (record : BlindTransportRecord)
    (hrecord : P record) (hg : I caps [] g) :
    Keeps S (I caps []) (rt.deliverWithCapabilities H record caps) g := by
  unfold deliverWithCapabilities
  split
  · exact keeps_raise hg
  · refine (quiet_call R.silent rfl).keeps_bind (fun privateKey => ?_) hg
    refine (quiet_authorizeCapability R.silent _ _).keeps_bind (fun _ => ?_) hg
    obtain ⟨hpre, hok, herror⟩ := R.claim [record] rt.claimLease
      (fun r hr => List.mem_singleton.1 hr ▸ hrecord) hg
    refine keeps_call hpre (fun claims hclaims => ?_) fun e he => herror _ he
    have hg' := hok _ hclaims
    have hmem : record ∈ [record] := List.mem_singleton.2 rfl
    refine keeps_mono (J := I caps [record]) ?_ fun g' hg' => R.weaken hg' (List.nil_subset _)
    split
    · exact keeps_raise hg'
    · rename_i claim _
      split
      · exact keeps_pure hg'
      · exact keeps_pure hg'
      · exact R.ambiguous record claim hmem hg'
      · split
        · exact keeps_raise hg'
        · rename_i claimToken _
          exact keeps_deliverClaimed R.silent
            (fun reasonCode retrySafe hreason =>
              R.quarantine record reasonCode claimToken retrySafe hreason hmem hg')
            fun payload => R.write record claimToken privateKey payload hmem hg'

/-! ## Chunks -/

/-- The outcome of a step that hands on records of `K`. -/
def Hands {β : Type} (I : γ → Prop) (Q : β → Prop) (r : Except Exn β) (g : γ) : Prop :=
  I g ∧ ∀ b, r = .ok b → Q b

theorem wp_sortClaims (R : DeliveryRules H S P I)
    (claims : List (BlindTransportRecord × PrivateKey × ClaimResult)) (index : Nat)
    (receipts : Receipts) (claimed : List ClaimedItem) (hclaims : ∀ c ∈ claims, c.1 ∈ K)
    (hclaimed : ∀ c ∈ claimed, c.record ∈ K) (hg : I caps K g) :
    wp S (Hands (I caps K) fun out => ∀ c ∈ out.2, c.record ∈ K)
      (sortClaims H claims index receipts claimed) g := by
  induction claims generalizing index receipts claimed g with
  | nil =>
      refine ⟨hg, fun out hout => ?_⟩
      cases hout
      exact hclaimed
  | cons claim rest ih =>
      obtain ⟨record, privateKey, claim⟩ := claim
      have hrecord : record ∈ K := hclaims _ List.mem_cons_self
      have hrest : ∀ c ∈ rest, c.1 ∈ K := fun c hc => hclaims c (List.mem_cons_of_mem _ hc)
      unfold sortClaims
      split
      · exact ih _ _ _ hrest hclaimed hg
      · exact ih _ _ _ hrest hclaimed hg
      · refine wp_bind_of S (R.ambiguous record claim hrecord hg) fun r g' hg' => ?_
        cases r with
        | ok r => exact ih _ _ _ hrest hclaimed hg'
        | error e => exact ⟨hg', fun b hb => nomatch hb⟩
      · split
        · exact ⟨hg, fun b hb => nomatch hb⟩
        · refine ih _ _ _ hrest (fun c hc => ?_) hg
          rcases List.mem_append.1 hc with hc | hc
          · exact hclaimed c hc
          · rw [List.mem_singleton.1 hc]
            exact hrecord

theorem keeps_fill {J : γ → Prop} {p : RuntimeM DeliveryReceipt} (receipts : Receipts)
    (index : Nat) (hp : Keeps S J p g) : Keeps S J (fill receipts index p) g := by
  refine keeps_attempt_bind hp fun r g' hg' => ?_
  cases r with
  | ok r => exact keeps_pure hg'
  | error e => exact keeps_pure hg'

theorem wp_prepareBatch (R : DeliveryRules H S P I) (claimed : List ClaimedItem)
    (receipts : Receipts) (prepared : List PreparedItem) (hclaimed : ∀ c ∈ claimed, c.record ∈ K)
    (hprepared : ∀ p ∈ prepared, p.record ∈ K) (hg : I caps K g) :
    wp S (Hands (I caps K) fun out => ∀ prepared, out.2 = .ok prepared →
        ∀ p ∈ prepared, p.record ∈ K)
      (rt.prepareBatch H claimed receipts prepared) g := by
  induction claimed generalizing receipts prepared g with
  | nil =>
      refine ⟨hg, fun out hout => ?_⟩
      cases hout
      rintro _ ⟨⟩
      exact hprepared
  | cons c rest ih =>
      have hrecord : c.record ∈ K := hclaimed c List.mem_cons_self
      have hrest : ∀ c ∈ rest, c.record ∈ K := fun c hc => hclaimed c (List.mem_cons_of_mem _ hc)
      refine wp_checkedPayload R.silent (quiet_call R.silent rfl) fun r hr => ?_
      cases r with
      | ok payload =>
          refine ih _ _ hrest (fun p hp => ?_) hg
          rcases List.mem_append.1 hp with hp | hp
          · exact hprepared p hp
          · rw [List.mem_singleton.1 hp]
            exact hrecord
      | error reasonCode =>
          refine wp_bind_of S (keeps_fill receipts c.index
            (R.quarantine c.record reasonCode c.claimToken _ hr hrecord hg)) fun filled g' hg' => ?_
          cases filled with
          | error e => exact ⟨hg', fun b hb => nomatch hb⟩
          | ok filled =>
              obtain ⟨receipts', result⟩ := filled
              cases result with
              | error e =>
                  refine ⟨hg', fun out hout => ?_⟩
                  cases hout
                  intro prepared hprepared
                  cases hprepared
              | ok u => exact ih _ _ hrest hprepared hg'

theorem keeps_quarantinePrepared (R : DeliveryRules H S P I) (prepared : List PreparedItem)
    (receipts : Receipts) (hprepared : ∀ p ∈ prepared, p.record ∈ K) (hg : I caps K g) :
    Keeps S (I caps K) (quarantinePrepared H prepared receipts) g := by
  induction prepared generalizing receipts g with
  | nil => exact keeps_pure hg
  | cons p rest ih =>
      refine keeps_bind (keeps_fill receipts p.index
          (R.quarantine p.record _ p.claimToken _ (by simp [beforeWriteReasons])
            (hprepared p List.mem_cons_self) hg))
        (fun filled g' hg' => ?_) fun _ hg' => hg'
      obtain ⟨receipts', result⟩ := filled
      cases result with
      | error e => exact keeps_pure hg'
      | ok u => exact ih _ (fun p hp => hprepared p (List.mem_cons_of_mem _ hp)) hg'

theorem keeps_executeAtomicBatch (R : DeliveryRules H S P I) (prepared : List PreparedItem)
    (receipts : Receipts) (hprepared : ∀ p ∈ prepared, p.record ∈ K) (hg : I caps K g) :
    Keeps S (I caps K) (executeAtomicBatch H prepared caps receipts) g := by
  unfold executeAtomicBatch
  split
  · exact keeps_pure hg
  · refine keeps_capabilityChanged R.silent fun changed => ?_
    split
    · exact keeps_quarantinePrepared R prepared receipts hprepared hg
    · exact R.writeBatch prepared receipts hprepared hg

theorem keeps_concludeBatch {J : γ → Prop} (receipts : Receipts) (result : Except Exn Unit)
    (hg : J g) : Keeps S J (concludeBatch receipts result) g := by
  unfold concludeBatch
  dsimp only
  split
  · exact keeps_pure hg
  · exact keeps_raise hg
  · split
    · exact keeps_raise hg
    · exact keeps_raise hg

theorem keeps_deliverAtomicBatch (R : DeliveryRules H S P I) (records : List BlindTransportRecord)
    (hrecords : ∀ r ∈ records, P r) (hg : I caps [] g) :
    Keeps S (I caps []) (rt.deliverAtomicBatch H records caps) g := by
  refine (quiet_authorizeRecords R.silent records).keeps_bind (fun privateKeys => ?_) hg
  refine (quiet_authorizeCapabilities R.silent records).keeps_bind (fun _ => ?_) hg
  obtain ⟨hpre, hok, herror⟩ := R.claim records rt.claimLease hrecords hg
  refine keeps_call hpre (fun claims hclaims => ?_) fun e he => herror _ he
  refine keeps_mono (J := I caps records) ?_ fun g' hg' => R.weaken hg' (List.nil_subset _)
  have hzip : ∀ c ∈ records.zip (privateKeys.zip claims), c.1 ∈ records :=
    fun c hc => (List.of_mem_zip hc).1
  refine wp_bind_of S (wp_sortClaims R _ _ _ [] hzip (fun c hc => nomatch hc) (hok _ hclaims))
    fun sorted g₁ hg₁ => ?_
  cases sorted with
  | error e => exact hg₁.1
  | ok sorted =>
      obtain ⟨hg₁, hclaimed⟩ := hg₁
      refine wp_bind_of S (wp_prepareBatch R _ _ [] (hclaimed _ rfl) (fun p hp => nomatch hp) hg₁)
        fun result g₂ hg₂ => ?_
      cases result with
      | error e => exact hg₂.1
      | ok result =>
          obtain ⟨receipts, prepared⟩ := result
          obtain ⟨hg₂, hprepared⟩ := hg₂
          cases prepared with
          | error e => exact keeps_concludeBatch _ _ hg₂
          | ok prepared =>
              exact keeps_bind
                (keeps_executeAtomicBatch R prepared receipts (hprepared _ rfl _ rfl) hg₂)
                (fun _ g₃ hg₃ => keeps_concludeBatch _ _ hg₃) fun _ hg' => hg'

/-! ## Entry points -/

theorem keeps_deliverScalars (R : DeliveryRules H S P I) (records : List BlindTransportRecord)
    (receipts : List DeliveryReceipt) (hrecords : ∀ r ∈ records, P r) (hg : I caps [] g) :
    Keeps S (I caps []) (rt.deliverScalars H caps records receipts) g := by
  induction records generalizing receipts g with
  | nil => exact keeps_pure hg
  | cons record rest ih =>
      refine keeps_attempt_bind (keeps_deliverWithCapabilities R record
        (hrecords record List.mem_cons_self) hg) fun r g' hg' => ?_
      cases r with
      | ok r => exact ih _ (fun r hr => hrecords r (List.mem_cons_of_mem _ hr)) hg'
      | error e =>
          dsimp only
          split
          · exact keeps_raise hg'
          · exact keeps_raise hg'

theorem keeps_deliverChunk (R : DeliveryRules H S P I) (chunk : List BlindTransportRecord)
    (hchunk : ∀ r ∈ chunk, P r) (hg : I caps [] g) :
    Keeps S (I caps []) (rt.deliverChunk H caps chunk) g := by
  unfold deliverChunk
  split
  · exact keeps_bind (keeps_deliverWithCapabilities R _ (hchunk _ List.mem_cons_self) hg)
      (fun _ _ hg' => keeps_pure hg') fun _ hg' => hg'
  · exact keeps_deliverAtomicBatch R _ hchunk hg

theorem keeps_deliverChunks (R : DeliveryRules H S P I) (chunks : List (List BlindTransportRecord))
    (receipts : List DeliveryReceipt) (hchunks : ∀ chunk ∈ chunks, ∀ r ∈ chunk, P r)
    (hg : I caps [] g) : Keeps S (I caps []) (rt.deliverChunks H caps chunks receipts) g := by
  induction chunks generalizing receipts g with
  | nil => exact keeps_pure hg
  | cons chunk rest ih =>
      refine keeps_attempt_bind (keeps_deliverChunk R chunk (hchunks chunk List.mem_cons_self) hg)
        fun r g' hg' => ?_
      cases r with
      | ok more => exact ih _ (fun chunk hc => hchunks chunk (List.mem_cons_of_mem _ hc)) hg'
      | error e => exact keeps_raise hg'

/-- The capability read that starts a job. -/
structure StartRule (S : Spec Op Op.Res Exn γ) (I : ConnectorCapabilities → γ → Prop)
    (done : γ → Prop) (g : γ) : Prop where
  start : ∀ caps, S.allowed .capabilities g (.ok caps) → I caps g
  unstarted : done g
  finish : ∀ caps g', I caps g' → done g'

variable {done : γ → Prop}

theorem StartRule.keeps {I : ConnectorCapabilities → γ → Prop} (hstart : StartRule S I done g)
    (hS : Silent S) {f : ConnectorCapabilities → RuntimeM β}
    (hf : ∀ caps, I caps g → Keeps S (I caps) (f caps) g) :
    Keeps S done (call .capabilities >>= f) g := by
  refine keeps_call (hS.pre _ _ rfl) (fun caps hcaps => ?_) fun e _ => ?_
  · rw [hS.next _ _ _ rfl]
    exact keeps_mono (hf caps (hstart.start caps hcaps)) (hstart.finish caps)
  · rw [hS.next _ _ _ rfl]
    exact hstart.unstarted

theorem keeps_deliver (R : DeliveryRules H S P I) (hstart : StartRule S (I · []) done g)
    (record : BlindTransportRecord) (hrecord : P record) :
    Keeps S done (rt.deliver H record) g :=
  hstart.keeps R.silent fun _ hg => keeps_deliverWithCapabilities R record hrecord hg

theorem keeps_deliverMany (R : DeliveryRules H S P I) (hstart : StartRule S (I · []) done g)
    (records : List BlindTransportRecord) (hrecords : ∀ r ∈ records, P r) :
    Keeps S done (rt.deliverMany H records) g := by
  refine hstart.keeps R.silent fun caps hg => ?_
  split
  · exact keeps_raise hg
  · split
    · exact keeps_raise hg
    · split
      · split
        · exact keeps_deliverChunks R _ _
            (fun chunk hchunk r hr => hrecords r (mem_deliveryChunks hchunk hr)) hg
        · exact keeps_deliverScalars R _ _ hrecords hg
      · exact keeps_deliverScalars R _ _ hrecords hg

/-- The rows an unforced replay goes on with: one that proves that nothing was written, or one
whose earlier write the destination's contract covers. -/
def unforcedGate (row : LedgerRow) (caps : ConnectorCapabilities) : Bool :=
  (row.state = .quarantined) ||
    (decide (row.state ∈ ambiguousOrGuardedStates) && replayContractMatches row caps)

/-- An unforced replay that is not refused passes the gate. -/
theorem unforcedGate_of_passed {row : LedgerRow} {forceUncertain : Bool}
    (hcommitted : row.state ≠ .committed)
    (hgate : ¬(decide (row.state ∈ ambiguousOrGuardedStates) && !replayContractMatches row caps &&
      !forceUncertain) = true)
    (hclaimed : ¬(row.state = .claimed ∧ forceUncertain = false))
    (hforce : forceUncertain = false) : unforcedGate row caps = true := by
  subst hforce
  have hnotClaimed : row.state ≠ .claimed := fun h => hclaimed ⟨h, rfl⟩
  rw [unforcedGate, Bool.or_eq_true, decide_eq_true_eq]
  by_cases hmem : row.state ∈ ambiguousOrGuardedStates
  · right
    simpa [hmem] using hgate
  · left
    cases hstate : row.state <;> rw [hstate] at hmem hcommitted hnotClaimed <;>
      first
        | rfl
        | exact absurd rfl hcommitted
        | exact absurd rfl hnotClaimed
        | exact absurd (by decide) hmem

/-- What a specification owes for a replay. `K record row` holds of the ghost value once the replay
has read the row of the record. -/
structure ReplayRules (H : Host) (rt : DestinationRuntime) (S : Spec Op Op.Res Exn γ)
    (I : ConnectorCapabilities → γ → Prop) (recordDigest : String) (forceUncertain : Bool)
    (K : BlindTransportRecord → LedgerRow → ConnectorCapabilities → γ → Prop) : Prop where
  silent : Silent S
  spoolGet : ∀ {caps g}, I caps g → S.pre (.spoolGet recordDigest) g ∧
    ∀ r, S.allowed (.spoolGet recordDigest) g r → I caps (S.next (.spoolGet recordDigest) g r) ∧
      ∀ record, r = .ok (some record) →
        S.pre (.ledger (.get record)) (S.next (.spoolGet recordDigest) g r) ∧
        ∀ r', S.allowed (.ledger (.get record)) (S.next (.spoolGet recordDigest) g r) r' →
          I caps (S.next (.ledger (.get record)) (S.next (.spoolGet recordDigest) g r) r') ∧
          ∀ row, r' = .ok (some row) →
            K record row caps
              (S.next (.ledger (.get record)) (S.next (.spoolGet recordDigest) g r) r')
  remove : ∀ {caps g record row}, I caps g → K record row caps g → row.state = .committed →
    Keeps S (I caps) (call (.remove [recordDigest])) g
  rearm : ∀ {caps g record row}, I caps g → K record row caps g → row.state ≠ .committed →
    (forceUncertain = false → unforcedGate row caps = true) →
    Keeps S (I caps) (rt.rearmAndDeliver H record row caps) g

theorem keeps_replay {I : ConnectorCapabilities → γ → Prop} {recordDigest : String}
    {forceUncertain : Bool} {K : BlindTransportRecord → LedgerRow → ConnectorCapabilities → γ → Prop}
    (R : ReplayRules H rt S I recordDigest forceUncertain K) (hstart : StartRule S I done g) :
    Keeps S done (rt.replay H recordDigest forceUncertain) g := by
  refine hstart.keeps R.silent fun caps hg => ?_
  split
  · exact keeps_raise hg
  · obtain ⟨hpre, hget⟩ := R.spoolGet hg
    refine keeps_call hpre (fun answer hanswer => ?_) fun e he => (hget _ he).1
    obtain ⟨hg₁, hrecord⟩ := hget _ hanswer
    cases answer with
    | none => exact keeps_raise hg₁
    | some record =>
        obtain ⟨hpre', hrow⟩ := hrecord record rfl
        refine (quiet_authorizeCapability R.silent _ _).keeps_bind (fun _ => ?_) hg₁
        refine keeps_call hpre' (fun answer' hanswer' => ?_) fun e he => (hrow _ he).1
        obtain ⟨hg₂, hK⟩ := hrow _ hanswer'
        cases answer' with
        | none => exact keeps_raise hg₂
        | some row =>
            have hK := hK row rfl
            change Keeps S (I caps) (rt.replayRow H forceUncertain recordDigest record row caps) _
            unfold replayRow
            split
            · rename_i hcommitted
              refine keeps_attempt_bind (R.remove hg₂ hK hcommitted) fun r g' hg' => ?_
              cases r with
              | ok n => exact keeps_pure hg'
              | error e => exact keeps_pure hg'
            · rename_i hcommitted
              split
              · exact keeps_raise hg₂
              · rename_i hgate
                split
                · exact keeps_raise hg₂
                · rename_i hclaimed
                  have hunforced : forceUncertain = false → unforcedGate row caps = true :=
                    unforcedGate_of_passed hcommitted hgate hclaimed
                  have hgo := R.rearm hg₂ hK hcommitted hunforced
                  split
                  · split
                    · exact keeps_raise hg₂
                    · exact (quiet_authorizeCapability R.silent _ _).keeps_bind (fun _ => hgo) hg₂
                  · exact hgo

end DestinationRuntime

end Polymorph
