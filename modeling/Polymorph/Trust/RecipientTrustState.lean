import Mathlib.Algebra.Order.BigOperators.Group.List
import Polymorph.Inspection.TextProbe
import Polymorph.Text.JsonSize
import Polymorph.Trust.RecipientTrust

/-!
# Published trust states

The text that `accept` publishes is within the size limit of the reader, and reading it gives the
certificate and the history that it was written from. A store whose fingerprint is that of the file
holds what the file says, so a store opened on the file goes on where the first one stands.
-/

set_option autoImplicit false

namespace Polymorph

open JsonText Utc

variable {env : RecipientEnvironment}

/-! ## Sizes -/

theorem length_isoformat_le (i : Instant) : i.isoformat.length ≤ 32 := by
  unfold Instant.isoformat
  rw [String.length_ofList]
  simp only [List.length_append, List.length_cons, length_digits]
  split <;> simp [length_digits]

theorem escapeChar_of_isLowerHexChar {c : Char} (h : isLowerHexChar c = true) :
    escapeChar c = [c] ∧ c.toNat < 128 := by
  have hall : ("0123456789abcdef".toList.all fun c => escapeChar c = [c] ∧ c.toNat < 128) = true := by
    decide
  have hc := List.all_eq_true.mp hall c (List.contains_iff_mem.mp h)
  exact of_decide_eq_true hc

/-- A key id in the history takes its digits and two quotes. -/
theorem extent_of_isLowerHex {id : String} (h : isLowerHex 64 id = true) :
    extent (.str id) = 66 := by
  rw [isLowerHex, Bool.and_eq_true, decide_eq_true_eq, List.all_eq_true] at h
  rw [extent, byteCount_writeString_plain fun c hc => escapeChar_of_isLowerHexChar (h.2 c hc), h.1]

theorem extent_str_le {s : String} {n : Nat} (h : s.length ≤ n) : extent (.str s) ≤ 6 * n + 2 := by
  have hbytes := byteCount_writeString_le s
  rw [extent]
  omega

theorem length_of_isLowerHex {id : String} (h : isLowerHex 64 id = true) : id.length = 64 := by
  rw [isLowerHex, Bool.and_eq_true, decide_eq_true_eq] at h
  exact h.1

theorem length_of_isBinding {s : String} (h : isBinding s = true) : s.length ≤ 256 := by
  rw [isBinding, Bool.and_eq_true, Bool.and_eq_true] at h
  exact Nat.le_trans (length_le_utf8ByteSize s) (of_decide_eq_true h.1.2)

theorem extent_previous_le {id : Option String}
    (h : ∀ text, id = some text → isLowerHex 64 text = true) :
    extent (id.elim .null .str) ≤ 66 := by
  cases id with
  | none => decide
  | some text => exact Nat.le_of_eq (extent_of_isLowerHex (h text rfl))

theorem extent_base64_le {bytes : List UInt8} {n : Nat} (h : bytes.length = n) :
    extent (.str (String.ofList (Base64.encode bytes))) ≤ 6 * ((n + 2) / 3 * 4) + 2 := by
  apply extent_str_le
  rw [String.length_ofList, Base64.length_encode, h]

theorem extent_generation_le {generation : Int}
    (h : 1 ≤ generation ∧ generation ≤ maxGeneration) : extent (.int generation) ≤ 19 := by
  obtain ⟨n, rfl⟩ := Int.eq_ofNat_of_zero_le (show 0 ≤ generation by omega)
  unfold maxGeneration at h
  exact byteCount_writeNat_le (by decide) (by omega)

/-- A certificate takes less than five kilobytes. -/
theorem extent_sortedWire_le (c : RecipientKeyCertificate env) :
    extent (.obj c.sortedWire) ≤ 5000 := by
  obtain ⟨hgeneration, hsignature, halgorithm, hidentity, hprevious⟩ := c.bounds
  have hnames : c.sortedWire.map Prod.fst = RecipientKeyCertificate.required := rfl
  have hkeys : (RecipientKeyCertificate.required.map fun k =>
      byteCount (writeString k) + 2).sum = 198 := by decide +kernel
  have halgorithm' : extent (.str c.algorithm) ≤ 9 := by
    rw [halgorithm]
    decide +kernel
  have hformat : extent (.str RecipientKeyCertificate.certificateFormat) ≤ 41 := by
    decide +kernel
  have hversion : extent (.int 1) ≤ 1 := by decide +kernel
  have hvalues : List.Forall₂ (· ≤ ·) ((c.sortedWire.map Prod.snd).map extent)
      [9, 1538, 41, 19, 66, 194, 66, 194, 194, 66, 266, 530, 1538, 1] :=
    .cons halgorithm' <| .cons (extent_str_le (length_of_isBinding c.destination_bound)) <|
    .cons hformat <| .cons (extent_generation_le hgeneration) <|
    .cons (extent_of_isLowerHex hidentity).le <|
    .cons (extent_str_le (length_isoformat_le c.issuedAt)) <|
    .cons (extent_of_isLowerHex c.isLowerHex_keyId).le <|
    .cons (extent_str_le (length_isoformat_le c.notAfter)) <|
    .cons (extent_str_le (length_isoformat_le c.notBefore)) <|
    .cons (extent_previous_le hprevious) <| .cons (extent_base64_le c.length_publicKey) <|
    .cons (extent_base64_le hsignature) <|
    .cons (extent_str_le (length_of_isBinding c.tenant_bound)) <| .cons hversion .nil
  have hsum := hvalues.sum_le_sum
  rw [extent, extentMembers_eq, hnames, hkeys]
  exact Nat.le_trans (Nat.add_le_add_left (Nat.add_le_add_left hsum _) _) (by decide)

namespace RecipientKeyTrustStore

variable (store : RecipientKeyTrustStore)

theorem isLowerHex_identityKeyId : isLowerHex 64 store.identityKeyId = true := by
  have hname := store.named
  unfold signingKeyId at hname
  split at hname
  · cases hname
  · rw [← Except.ok.inj hname]
    exact isLowerHex_hexDigest _

/-- `_state_wire` with ordered keys. -/
def sortedState (certificate : RecipientKeyCertificate env) (usedKeyIds : Finset String) :
    List (String × Json) :=
  [("current_certificate", .obj certificate.sortedWire),
    ("destination_connector", .str store.destinationConnector), ("format", .str stateFormat),
    ("identity_key_id", .str store.identityKeyId), ("tenant", .str store.tenant),
    ("used_key_ids", .arr (historyWire usedKeyIds)), ("version", .int 2)]

theorem sortItems_str (texts : List String) :
    sortItems (texts.map Json.str) = texts.map Json.str := by
  induction texts with
  | nil => rfl
  | cons text texts ih => rw [List.map_cons, sortItems, ih, sortKeys]

theorem sortKeys_stateWire (certificate : RecipientKeyCertificate env)
    (usedKeyIds : Finset String) :
    sortKeys (.obj (store.stateWire certificate usedKeyIds)) =
      .obj (store.sortedState certificate usedKeyIds) := by
  have hvalues : sortValues (store.stateWire certificate usedKeyIds) =
      store.sortedState certificate usedKeyIds := by
    have hhistory : sortKeys (.arr (historyWire usedKeyIds)) = .arr (historyWire usedKeyIds) := by
      rw [sortKeys, historyWire, sortItems_str]
    have htext : ∀ text, sortKeys (.str text) = .str text := fun _ => rfl
    have hversion : sortKeys (.int 2) = .int 2 := rfl
    simp only [stateWire, sortedState, sortValues, RecipientKeyCertificate.sortKeys_toWire,
      hhistory, htext, hversion]
  rw [sortKeys, hvalues]
  simp [sortedState, sortMembers, List.insertionSort]

/-- A state with a full history takes less than forty-four kilobytes. -/
theorem extent_sortedState_le (certificate : RecipientKeyCertificate env)
    {usedKeyIds : Finset String} (hhex : ∀ id ∈ usedKeyIds, isLowerHex 64 id = true)
    (hcard : usedKeyIds.card ≤ maxUsedKeyIds) :
    extent (.obj (store.sortedState certificate usedKeyIds)) ≤ 44000 := by
  have hnames : (store.sortedState certificate usedKeyIds).map Prod.fst = required := rfl
  have hkeys : (required.map fun k => byteCount (writeString k) + 2).sum = 114 := by
    decide +kernel
  have hformat : extent (.str stateFormat) ≤ 41 := by decide +kernel
  have hversion : extent (.int 2) ≤ 1 := by decide +kernel
  have hitems : extentItems (historyWire usedKeyIds) ≤ (historyWire usedKeyIds).length * 67 := by
    apply extentItems_le
    intro item hitem
    obtain ⟨id, hid, rfl⟩ := List.mem_map.mp hitem
    exact (extent_of_isLowerHex (hhex id ((Finset.mem_sort _).mp hid))).le
  have hlength : (historyWire usedKeyIds).length ≤ 512 := by
    rw [historyWire, List.length_map, Finset.length_sort]
    exact hcard
  have hhistory : extent (.arr (historyWire usedKeyIds)) ≤ 2 + 512 * 67 := by
    rw [extent]
    omega
  have hvalues : List.Forall₂ (· ≤ ·)
      (((store.sortedState certificate usedKeyIds).map Prod.snd).map extent)
      [5000, 1538, 41, 66, 1538, 2 + 512 * 67, 1] :=
    .cons (extent_sortedWire_le certificate) <|
    .cons (extent_str_le (length_of_isBinding store.destination_bound)) <|
    .cons hformat <| .cons (extent_of_isLowerHex store.isLowerHex_identityKeyId).le <|
    .cons (extent_str_le (length_of_isBinding store.tenant_bound)) <|
    .cons hhistory <| .cons hversion .nil
  have hsum := hvalues.sum_le_sum
  rw [extent, extentMembers_eq, hnames, hkeys]
  exact Nat.le_trans (Nat.add_le_add_left (Nat.add_le_add_left hsum _) _) (by decide)

/-- **A published state is within the limit of its reader.** -/
theorem utf8ByteSize_stateText_le (certificate : RecipientKeyCertificate env)
    {usedKeyIds : Finset String} (hhex : ∀ id ∈ usedKeyIds, isLowerHex 64 id = true)
    (hcard : usedKeyIds.card ≤ maxUsedKeyIds) :
    (store.stateText certificate usedKeyIds).utf8ByteSize ≤ maxStateBytes := by
  have hextent := store.extent_sortedState_le certificate hhex hcard
  have hwrite := byteCount_write_le (.obj (store.sortedState certificate usedKeyIds))
  have hsize : (store.stateText certificate usedKeyIds).utf8ByteSize =
      byteCount (write (.obj (store.sortedState certificate usedKeyIds))) + 1 := by
    rw [← length_utf8Bytes, stateText, sortKeys_stateWire, Layout.text, value_compact,
      String.toList_append, String.toList_ofList, utf8Bytes_append, List.length_append]
    rfl
  unfold maxStateBytes
  omega

/-! ## Reading a written state -/

/-- The loop over a history of distinct key ids. -/
theorem readHistory_str {texts : List String} {usedKeyIds : Finset String}
    (hhex : ∀ text ∈ texts, isLowerHex 64 text = true) (hnodup : texts.Nodup)
    (hfresh : ∀ text ∈ texts, text ∉ usedKeyIds) :
    readHistory (texts.map Json.str) usedKeyIds = .ok (usedKeyIds ∪ texts.toFinset) := by
  induction texts generalizing usedKeyIds with
  | nil =>
      rw [List.toFinset_nil, Finset.union_empty]
      rfl
  | cons text texts ih =>
      have hnot : ¬isLowerHex 64 text = false :=
        Bool.not_eq_false _ ▸ hhex text List.mem_cons_self
      obtain ⟨hhead, htail⟩ := List.nodup_cons.mp hnodup
      rw [List.map_cons, readHistory, if_neg hnot, if_neg (hfresh text List.mem_cons_self),
        ih (fun t ht => hhex t (List.mem_cons_of_mem _ ht)) htail]
      · rw [List.toFinset_cons, Finset.insert_union, Finset.union_insert]
      · intro t ht hmem
        rcases Finset.mem_insert.mp hmem with rfl | hmem
        · exact hhead ht
        · exact hfresh t (List.mem_cons_of_mem _ ht) hmem

theorem historyOf_historyWire {usedKeyIds : Finset String}
    (hhex : ∀ id ∈ usedKeyIds, isLowerHex 64 id = true)
    (hcard : usedKeyIds.card ≤ maxUsedKeyIds) :
    historyOf (.arr (historyWire usedKeyIds)) = .ok usedKeyIds := by
  have hlength : (historyWire usedKeyIds).length = usedKeyIds.card := by
    rw [historyWire, List.length_map, Finset.length_sort]
  rw [historyOf, hlength, if_neg (Nat.not_lt.mpr hcard), historyWire, readHistory_str,
    Finset.sort_toFinset, Finset.empty_union]
  · exact fun text htext => hhex text ((Finset.mem_sort _).mp htext)
  · exact Finset.sort_nodup _ _
  · exact fun text _ => Finset.notMem_empty text

/-- What the loop returns holds only key ids, and at most one for every item. -/
theorem readHistory_ok {items : List Json} {usedKeyIds result : Finset String}
    (hhex : ∀ id ∈ usedKeyIds, isLowerHex 64 id = true)
    (h : readHistory items usedKeyIds = .ok result) :
    (∀ id ∈ result, isLowerHex 64 id = true) ∧ result.card ≤ usedKeyIds.card + items.length := by
  induction items generalizing usedKeyIds with
  | nil =>
      cases h
      exact ⟨hhex, Nat.le_refl _⟩
  | cons item items ih =>
      cases item with
      | str value =>
          rw [readHistory] at h
          split at h
          · cases h
          · rename_i hvalue
            split at h
            · cases h
            · have hinsert : ∀ id ∈ insert value usedKeyIds, isLowerHex 64 id = true := by
                intro id hid
                rcases Finset.mem_insert.mp hid with rfl | hid
                · exact Bool.eq_true_of_not_eq_false hvalue
                · exact hhex id hid
              obtain ⟨hresult, hcard⟩ := ih hinsert h
              refine ⟨hresult, ?_⟩
              have hle := Finset.card_insert_le value usedKeyIds
              rw [List.length_cons]
              omega
      | _ => cases h

theorem historyOf_ok {value : Json} {usedKeyIds : Finset String}
    (h : historyOf value = .ok usedKeyIds) :
    (∀ id ∈ usedKeyIds, isLowerHex 64 id = true) ∧ usedKeyIds.card ≤ maxUsedKeyIds := by
  cases value with
  | arr items =>
      rw [historyOf] at h
      split at h
      · cases h
      · rename_i hlength
        have hempty : ∀ id ∈ (∅ : Finset String), isLowerHex 64 id = true :=
          fun id hid => absurd hid (Finset.notMem_empty id)
        obtain ⟨hhex, hcard⟩ := readHistory_ok hempty h
        rw [Finset.card_empty] at hcard
        exact ⟨hhex, by omega⟩
  | _ => cases h

variable {store} {certificate : RecipientKeyCertificate env} {usedKeyIds : Finset String}

theorem readMembers_sortedState (hverified : store.verifyCertificate certificate = .ok ())
    (hhex : ∀ id ∈ usedKeyIds, isLowerHex 64 id = true)
    (hcard : usedKeyIds.card ≤ maxUsedKeyIds) (hmem : certificate.keyId ∈ usedKeyIds) :
    store.readMembers (store.sortedState certificate usedKeyIds) =
      .ok (certificate, usedKeyIds) := by
  have hkeys : RecipientKeyCertificate.hasExactly required
      (store.sortedState certificate usedKeyIds) = true := rfl
  have hformat : isText stateFormat
      (payloadGet "format" (store.sortedState certificate usedKeyIds)) = true := rfl
  have hversion : RecipientKeyCertificate.isNumber 2
      (payloadGet "version" (store.sortedState certificate usedKeyIds)) = true := rfl
  have hidentity : stateTextOf "identity_key_id" (store.sortedState certificate usedKeyIds) =
      .ok store.identityKeyId := rfl
  have htenant : stateTextOf "tenant" (store.sortedState certificate usedKeyIds) =
      .ok store.tenant := rfl
  have hdestination : stateTextOf "destination_connector"
      (store.sortedState certificate usedKeyIds) = .ok store.destinationConnector := rfl
  have hcertificate : RecipientKeyCertificate.fromWire (payloadGet "current_certificate"
      (store.sortedState certificate usedKeyIds)) = .ok certificate :=
    RecipientKeyCertificate.fromWire_sortedWire certificate
  have hhistory : historyOf (payloadGet "used_key_ids"
      (store.sortedState certificate usedKeyIds)) = .ok usedKeyIds :=
    historyOf_historyWire hhex hcard
  rw [readMembers, hkeys, hformat, hversion, hidentity, htenant, hdestination, hcertificate,
    hhistory]
  simp only [Bool.not_true, Bool.or_self, Bool.false_eq_true, if_false, ok_bind, ne_eq,
    not_true_eq_false, or_self, hverified, hmem]
  rfl

theorem shortIntegers_of_lt {z : Int} (h : z.natAbs < 10 ^ 19) :
    shortIntegers (.int z) = true := by
  have hpow : ∀ n, 19 ≤ n → z.natAbs < 10 ^ n :=
    fun n hn => Nat.lt_of_lt_of_le h (Nat.pow_le_pow_right (by decide) hn)
  rw [shortIntegers]
  exact decide_eq_true (hpow maxStrDigits (by decide))

/-- Texts and an optional text are plain values. -/
theorem plain_previous (id : Option String) : integral (id.elim .null .str) = true ∧
    shortIntegers (id.elim .null .str) = true ∧ uniqueKeys (id.elim .null .str) = true := by
  cases id with
  | none => exact ⟨rfl, rfl, rfl⟩
  | some text => exact ⟨rfl, rfl, rfl⟩

theorem plain_items (texts : List String) : integralItems (texts.map Json.str) = true ∧
    shortItems (texts.map Json.str) = true ∧ uniqueItems (texts.map Json.str) = true := by
  induction texts with
  | nil => exact ⟨rfl, rfl, rfl⟩
  | cons text texts ih =>
      rw [List.map_cons, integralItems, shortItems, uniqueItems]
      exact ih

theorem plain_certificate (c : RecipientKeyCertificate env) :
    integral (.obj c.sortedWire) = true ∧ shortIntegers (.obj c.sortedWire) = true ∧
      uniqueKeys (.obj c.sortedWire) = true := by
  obtain ⟨hgeneration, -⟩ := c.bounds
  obtain ⟨hintegral, hshort, hunique⟩ := plain_previous c.previousKeyId
  have hnumber : shortIntegers (.int c.generation) = true := by
    apply shortIntegers_of_lt
    unfold maxGeneration at hgeneration
    omega
  have hone : shortIntegers (.int 1) = true := shortIntegers_of_lt (by decide)
  have htext : ∀ text, shortIntegers (.str text) = true := fun _ => rfl
  have hmembers : shortIntegers (.obj c.sortedWire) = shortMembers c.sortedWire := rfl
  have hkeys : distinctKeys c.sortedWire = true :=
    (by decide : decide RecipientKeyCertificate.required.Nodup = true)
  refine ⟨?_, ?_, ?_⟩
  · simp only [integral, RecipientKeyCertificate.sortedWire, integralMembers, hintegral,
      Bool.and_self]
  · rw [hmembers]
    simp only [RecipientKeyCertificate.sortedWire, shortMembers, htext, hnumber, hone, hshort,
      Bool.and_self]
  · rw [uniqueKeys, hkeys, Bool.true_and]
    simp only [RecipientKeyCertificate.sortedWire, uniqueMembers, uniqueKeys, hunique,
      Bool.and_self]

theorem plain_state (store : RecipientKeyTrustStore) (certificate : RecipientKeyCertificate env)
    (usedKeyIds : Finset String) :
    integral (.obj (store.sortedState certificate usedKeyIds)) = true ∧
      shortIntegers (.obj (store.sortedState certificate usedKeyIds)) = true ∧
      uniqueKeys (.obj (store.sortedState certificate usedKeyIds)) = true := by
  obtain ⟨hintegral, hshort, hunique⟩ := plain_certificate certificate
  obtain ⟨hintegrals, hshorts, huniques⟩ := plain_items (usedKeyIds.sort (· ≤ ·))
  have htwo : shortIntegers (.int 2) = true := shortIntegers_of_lt (by decide)
  have htext : ∀ text, shortIntegers (.str text) = true := fun _ => rfl
  have hitems : shortIntegers (.arr (historyWire usedKeyIds)) = true := hshorts
  have hmembers : shortIntegers (.obj (store.sortedState certificate usedKeyIds)) =
      shortMembers (store.sortedState certificate usedKeyIds) := rfl
  have hkeys : distinctKeys (store.sortedState certificate usedKeyIds) = true :=
    (by decide : decide required.Nodup = true)
  rw [integral] at hintegral
  rw [uniqueKeys] at hunique
  refine ⟨?_, ?_, ?_⟩
  · simp only [integral, sortedState, integralMembers, historyWire, hintegral, hintegrals,
      Bool.and_self]
  · rw [hmembers]
    simp only [sortedState, shortMembers, htext, hitems, htwo, hshort, Bool.and_self]
  · rw [uniqueKeys, hkeys, Bool.true_and]
    simp only [sortedState, uniqueMembers, uniqueKeys, historyWire, hunique, huniques,
      Bool.and_self]

theorem loadText_stateText (store : RecipientKeyTrustStore)
    (certificate : RecipientKeyCertificate env) (usedKeyIds : Finset String) :
    loadText (store.stateText certificate usedKeyIds) =
      .ok (.obj (store.sortedState certificate usedKeyIds)) := by
  obtain ⟨hintegral, hshort, hunique⟩ := plain_state store certificate usedKeyIds
  have hread := @Layout.loads_text compact _ (readable_of_integral _ hintegral) ['\n']
    (.inr ⟨[], rfl, rfl⟩)
  have htext : store.stateText certificate usedKeyIds =
      compact.text (.obj (store.sortedState certificate usedKeyIds)) ++ String.ofList ['\n'] := by
    rw [stateText, sortKeys_stateWire]
  rw [loadText, htext, hread]
  simp only [hshort, hunique, Bool.true_eq_false, if_false]

/-- **Round trip** of a state. -/
theorem readState_stateText (hverified : store.verifyCertificate certificate = .ok ())
    (hhex : ∀ id ∈ usedKeyIds, isLowerHex 64 id = true)
    (hcard : usedKeyIds.card ≤ maxUsedKeyIds) (hmem : certificate.keyId ∈ usedKeyIds) :
    store.readState (utf8Bytes (store.stateText certificate usedKeyIds).toList) =
      .ok (certificate, usedKeyIds) := by
  have hsize := store.utf8ByteSize_stateText_le certificate hhex hcard
  have hstart : ∃ rest, (store.stateText certificate usedKeyIds).toList = '\x7b' :: rest := by
    rw [stateText, sortKeys_stateWire, String.toList_append, Layout.text, String.toList_ofList]
    exact ⟨_, rfl⟩
  obtain ⟨rest, hrest⟩ := hstart
  have hdecode := ContentInspector.decodeUtf8Sig_utf8Bytes_of_cons hrest (by decide)
  rw [String.ofList_toList] at hdecode
  rw [readState, length_utf8Bytes, if_neg (Nat.not_lt.mpr hsize), hdecode]
  simp only [loadText_stateText, ok_bind]
  exact readMembers_sortedState hverified hhex hcard hmem

end RecipientKeyTrustStore

end Polymorph
