import Polymorph.Connectors.JsonFile
import Polymorph.Inspection.LimitExactness
import Polymorph.Inspection.TextProbe

/-!
# Appends to a JSON file

What an append publishes is read back as the records before it and the new ones, through the same
inspection, scan, parser and validator that an append itself goes through. Two things can refuse
it: the first bytes that the inspector probes end inside a character, and conditions on the path
that publishing does not check.
-/

set_option autoImplicit false

namespace Polymorph

open JsonText PayloadCodec

namespace JsonFileConnector

variable {env : JsonEnvironment} {c : JsonFileConnector}

/-! ## Loaded values -/

theorem objectWithoutDuplicateKeys_eq_ok_iff {pairs : List (String × PyValue)} :
    ∀ {output kept : List (String × PyValue)},
      objectWithoutDuplicateKeys env output pairs = .ok kept ↔
        rejectDuplicateKeys output pairs = .ok kept := by
  induction pairs with
  | nil => exact fun {_ _} => Iff.rfl
  | cons p pairs ih =>
      obtain ⟨key, value⟩ := p
      intro output kept
      rw [objectWithoutDuplicateKeys, rejectDuplicateKeys]
      split
      · exact iff_of_false (by intro h; cases h) (by intro h; cases h)
      · exact ih

mutual

/-- Where the payload codec reads a value, the connector reads the same one. -/
theorem loadedValue_of_valueOf : ∀ (j : Json) (v : PyValue), valueOf env.host j = .ok v →
    loadedValue env j = .ok v
  | .null => by
      intro v h
      rw [valueOf] at h
      rw [loadedValue]
      exact h
  | .bool _ => by
      intro v h
      rw [valueOf] at h
      rw [loadedValue]
      exact h
  | .int _ => by
      intro v h
      rw [valueOf] at h
      rw [loadedValue]
      exact h
  | .real _ => by
      intro v h
      rw [valueOf] at h
      rw [loadedValue]
      exact h
  | .constant _ => by
      intro v h
      rw [valueOf] at h
      cases h
  | .str _ => by
      intro v h
      rw [valueOf] at h
      rw [loadedValue]
      exact h
  | .arr items => by
      intro v h
      rw [valueOf] at h
      obtain ⟨xs, hxs, h⟩ := bind_eq_ok h
      cases h
      rw [loadedValue, loadedItems_of_valuesOf items xs hxs]
      rfl
  | .obj members => by
      intro v h
      rw [valueOf] at h
      obtain ⟨pairs, hpairs, h⟩ := bind_eq_ok h
      obtain ⟨kept, hkept, h⟩ := bind_eq_ok h
      cases h
      rw [loadedValue, loadedPairs_of_pairsOf members pairs hpairs, ok_bind,
        objectWithoutDuplicateKeys_eq_ok_iff.mpr hkept]
      rfl

theorem loadedItems_of_valuesOf : ∀ (js : List Json) (xs : List PyValue),
    valuesOf env.host js = .ok xs → loadedItems env js = .ok xs
  | [] => by
      intro _ h
      exact h
  | j :: js => by
      intro _ h
      rw [valuesOf] at h
      obtain ⟨x, hx, h⟩ := bind_eq_ok h
      obtain ⟨xs, hxs, h⟩ := bind_eq_ok h
      cases h
      rw [loadedItems, loadedValue_of_valueOf j x hx, loadedItems_of_valuesOf js xs hxs]
      rfl

theorem loadedPairs_of_pairsOf : ∀ (ms : List (String × Json)) (pairs : List (String × PyValue)),
    pairsOf env.host ms = .ok pairs → loadedPairs env ms = .ok pairs
  | [] => by
      intro _ h
      exact h
  | (k, j) :: ms => by
      intro _ h
      rw [pairsOf] at h
      obtain ⟨v, hv, h⟩ := bind_eq_ok h
      obtain ⟨pairs, hpairs, h⟩ := bind_eq_ok h
      cases h
      rw [loadedPairs, loadedValue_of_valueOf j v hv, loadedPairs_of_pairsOf ms pairs hpairs]
      rfl

end

theorem shapedMembers_dictMembers {pairs : List (String × PyValue)} :
    shapedMembers (dictMembers pairs) = true ↔ ∀ p ∈ pairs, jsonShaped p.2 = true := by
  induction pairs with
  | nil => simp [dictMembers, shapedMembers]
  | cons p pairs ih =>
      rw [dictMembers, List.map_cons, shapedMembers, Bool.and_eq_true, List.forall_mem_cons, ← ih]
      rfl

mutual

/-- A parsed value has no tuples, and distinct texts as keys. -/
theorem jsonShaped_loadedValue : ∀ (j : Json) (v : PyValue), loadedValue env j = .ok v →
    jsonShaped v = true
  | .null => by
      intro v h
      rw [loadedValue] at h
      cases h
      rfl
  | .bool _ => by
      intro v h
      rw [loadedValue] at h
      cases h
      rfl
  | .int _ => by
      intro v h
      rw [loadedValue] at h
      obtain ⟨_, -, h⟩ := bind_eq_ok h
      cases h
      rfl
  | .real _ => by
      intro v h
      rw [loadedValue] at h
      cases h
      rfl
  | .constant _ => by
      intro v h
      rw [loadedValue] at h
      cases h
      rfl
  | .str _ => by
      intro v h
      rw [loadedValue] at h
      cases h
      rfl
  | .arr items => by
      intro v h
      rw [loadedValue] at h
      obtain ⟨xs, hxs, h⟩ := bind_eq_ok h
      cases h
      exact shapedItems_loadedItems items xs hxs
  | .obj members => by
      intro v h
      rw [loadedValue] at h
      obtain ⟨pairs, hpairs, h⟩ := bind_eq_ok h
      obtain ⟨kept, hkept, h⟩ := bind_eq_ok h
      cases h
      have hstart : (([] : List (String × PyValue)).map Prod.fst).Nodup := List.nodup_nil
      obtain ⟨hall, hnodup⟩ := rejectDuplicateKeys_eq_ok hstart
        (objectWithoutDuplicateKeys_eq_ok_iff.mp hkept)
      rw [List.nil_append] at hall
      rw [jsonShaped, textKeys_dictMembers, Bool.and_eq_true, decide_eq_true_eq,
        shapedMembers_dictMembers, hall]
      rw [hall] at hnodup
      exact ⟨nodup_ofString.mpr hnodup, jsonShaped_loadedPairs members pairs hpairs⟩

theorem shapedItems_loadedItems : ∀ (js : List Json) (xs : List PyValue),
    loadedItems env js = .ok xs → shapedItems xs = true
  | [] => by
      intro _ h
      cases h
      rfl
  | j :: js => by
      intro _ h
      rw [loadedItems] at h
      obtain ⟨x, hx, h⟩ := bind_eq_ok h
      obtain ⟨xs, hxs, h⟩ := bind_eq_ok h
      cases h
      rw [shapedItems, jsonShaped_loadedValue j x hx, shapedItems_loadedItems js xs hxs]
      rfl

theorem jsonShaped_loadedPairs : ∀ (ms : List (String × Json)) (pairs : List (String × PyValue)),
    loadedPairs env ms = .ok pairs → ∀ p ∈ pairs, jsonShaped p.2 = true
  | [] => by
      intro _ h
      cases h
      exact fun _ hp => nomatch hp
  | (k, j) :: ms => by
      intro _ h
      rw [loadedPairs] at h
      obtain ⟨v, hv, h⟩ := bind_eq_ok h
      obtain ⟨pairs, hpairs, h⟩ := bind_eq_ok h
      cases h
      exact List.forall_mem_cons.mpr
        ⟨jsonShaped_loadedValue j v hv, jsonShaped_loadedPairs ms pairs hpairs⟩

end

theorem jsonShaped_parseText {size : Nat} {text : String} {data : PyValue}
    (h : parseText env c size text = .ok data) : jsonShaped data = true := by
  rw [parseText] at h
  split at h
  case h_1 j hj => exact jsonShaped_loadedValue j data h
  case h_2 =>
    split at h
    · cases h
    · split at h
      case h_1 loaded hloaded =>
        cases h
        exact loaded.property
      case h_2 => cases h

theorem mapM_dictMembers? {items : List PyValue} {records : List Members} :
    items.mapM dictMembers? = some records ↔ items = records.map .dict := by
  induction items generalizing records with
  | nil =>
      cases records with
      | nil => exact iff_of_true rfl rfl
      | cons r records => exact iff_of_false (fun h => nomatch h) (fun h => nomatch h)
  | cons x items ih =>
      rw [List.mapM_cons, Option.bind_eq_bind, Option.bind_eq_some_iff]
      constructor
      · rintro ⟨members, hx, h⟩
        obtain ⟨rest, hrest, h⟩ := Option.bind_eq_some_iff.mp h
        cases h
        cases x with
        | dict ms =>
            cases hx
            rw [ih.mp hrest]
            rfl
        | _ => cases hx
      · intro h
        cases records with
        | nil => cases h
        | cons r records =>
            rw [List.map_cons, List.cons.injEq] at h
            obtain ⟨rfl, hrest⟩ := h
            exact ⟨r, rfl, by rw [ih.mpr hrest]; rfl⟩

/-- The records of a root with the shape of JSON. -/
theorem shaped_recordsOf {data : PyValue} {records : List Members}
    (hshaped : jsonShaped data = true) (h : recordsOf data = .ok records) :
    ∀ record ∈ records, jsonShaped (.dict record) = true := by
  cases data with
  | dict members =>
      cases h
      exact List.forall_mem_singleton.mpr hshaped
  | list items =>
      rw [recordsOf] at h
      split at h
      case h_1 found hfound =>
        cases h
        obtain rfl := mapM_dictMembers?.mp hfound
        rw [jsonShaped] at hshaped
        clear hfound
        induction records with
        | nil => exact fun _ h => nomatch h
        | cons record records ih =>
            rw [List.map_cons, shapedItems, Bool.and_eq_true] at hshaped
            exact List.forall_mem_cons.mpr ⟨hshaped.1, ih hshaped.2⟩
      case h_2 => cases h
  | _ => cases h

theorem shaped_load {file : StoredFile} {records : List Members}
    (h : load env c file = .ok records) : ∀ record ∈ records, jsonShaped (.dict record) = true := by
  rw [load] at h
  obtain ⟨_, -, h⟩ := bind_eq_ok h
  obtain ⟨text, -, h⟩ := bind_eq_ok h
  obtain ⟨_, -, h⟩ := bind_eq_ok h
  obtain ⟨data, hdata, h⟩ := bind_eq_ok h
  obtain ⟨_, -, h⟩ := bind_eq_ok h
  exact shaped_recordsOf (jsonShaped_parseText hdata) h

/-- An empty file is not loaded. -/
theorem load_nonempty {file : StoredFile} {records : List Members}
    (h : load env c file = .ok records) : file.bytes ≠ [] := by
  intro hempty
  rw [load] at h
  obtain ⟨_, hsafe, -⟩ := bind_eq_ok h
  obtain ⟨hrequired, -⟩ := ContentInspector.ensureSourceSafe_eq_ok_iff.mp hsafe
  have hsize : file.bytes.length ≤ c.policy.maxFileBytes := by
    rw [hempty]
    exact Nat.zero_le _
  have hkind := ContentInspector.kind_of_require hrequired
  rw [ContentInspector.inspect_of_unlinked (ContentInspector.unlinked_of_require hrequired) hsize,
    hempty] at hkind
  exact absurd hkind (show ContentKind.empty ∉ allowedKinds by decide)

/-! ## The published text -/

/-- The text that is published for the items of a list. -/
def publishedText (items : List Json) : String :=
  indented.text (.arr items) ++ String.ofList ['\n']

/-- What the publisher knows of the records when it has their bytes. -/
structure Encoded (env : JsonEnvironment) (c : JsonFileConnector) (combined : List Members)
    (items : List Json) (bytes : List UInt8) : Prop where
  json : jsonOf env.host (listOf combined) = .ok (.arr items)
  encodable : encodable (listOf combined) = true
  valid : validateValue c.maxStructuredTextDepth c.maxJsonItems (listOf combined) = .ok ()
  bytes_eq : bytes = utf8Bytes (publishedText items).toList
  size : bytes.length ≤ c.maxFileBytes

/-- The JSON value of a list is an array. -/
theorem jsonOf_listOf {H : Host} {records : List Members} {j : Json}
    (h : jsonOf H (listOf records) = .ok j) : ∃ items, j = .arr items := by
  rw [listOf, jsonOf] at h
  obtain ⟨items, -, h⟩ := bind_eq_ok h
  cases h
  exact ⟨items, rfl⟩

theorem encoded_of_checks {combined : List Members} {bytes : List UInt8}
    (hvalid : validateValue c.maxStructuredTextDepth c.maxJsonItems (listOf combined) = .ok ())
    (hencode : encodeRecords env.host combined = .ok bytes) (hsize : checkSize c bytes = .ok ()) :
    ∃ items, Encoded env c combined items bytes := by
  rw [encodeRecords] at hencode
  obtain ⟨j, hj, hencode⟩ := bind_eq_ok hencode
  obtain ⟨items, rfl⟩ := jsonOf_listOf hj
  rw [checkSize] at hsize
  split at hencode
  case isTrue hencodable =>
    split at hsize
    case isTrue => cases hsize
    case isFalse hle =>
      cases hencode
      exact ⟨items, hj, hencodable, hvalid, rfl, Nat.le_of_not_lt hle⟩
  case isFalse => cases hencode

namespace Encoded

variable {combined : List Members} {items : List Json} {bytes : List UInt8}

variable (h : Encoded env c combined items bytes) (hfloats : env.host.WritesFloats)

theorem text_cons (items : List Json) : ∃ rest, (publishedText items).toList = '[' :: rest := by
  rw [publishedText, Layout.text, String.toList_append, String.toList_ofList]
  cases items with
  | nil => exact ⟨_, rfl⟩
  | cons x xs => exact ⟨_, rfl⟩

include h in
/-- The first byte is that of the opening bracket. -/
theorem bytes_cons : ∃ rest, bytes = 0x5b :: rest := by
  obtain ⟨rest, hrest⟩ := text_cons items
  refine ⟨utf8Bytes rest, ?_⟩
  rw [h.bytes_eq, hrest, utf8Bytes_cons]
  rfl

include h in
theorem decodeUtf8Sig_bytes :
    ContentInspector.decodeUtf8Sig bytes = some (publishedText items) := by
  obtain ⟨rest, hrest⟩ := h.bytes_cons
  have hbom : ¬ContentInspector.utf8Bom <+: bytes := by
    rw [hrest]
    intro hstarts
    exact absurd (List.cons_prefix_cons.mp hstarts).1 (by decide)
  rw [ContentInspector.decodeUtf8Sig, if_neg hbom, h.bytes_eq, decodeUtf8_utf8Bytes,
    String.ofList_toList]

include h hfloats in
theorem readable : readable (.arr items) = true := readable_jsonOf hfloats _ _ h.json

include h hfloats in
theorem loads_text : loads (publishedText items) = some (.arr items) :=
  indented.loads_text (h.readable hfloats) (.inr ⟨[], rfl, rfl⟩)

include h in
theorem within : (containers (listOf combined)).nesting ≤ c.maxStructuredTextDepth ∧
    (containers (listOf combined)).itemCount ≤ c.maxJsonItems :=
  ((validateValue_eq_ok_iff _ _ _).mp h.valid).2

include h hfloats in
/-- The scan for limits passes the text. -/
theorem limits : ContentInspector.jsonLikeLimitsExceeded (publishedText items)
    c.maxStructuredTextDepth c.maxJsonItems = (false, false) := by
  obtain ⟨hshape, hfree, -⟩ := shapeOf_jsonOf _ _ h.json
  have hdocument := indented.document_text indented_lawful (h.readable hfloats) hfree
    (show ['\n'].all isWs = true by decide)
  rw [shapeOf] at hshape hdocument
  rw [publishedText, ContentInspector.jsonLikeLimitsExceeded_iff _ _ hdocument, hshape]
  exact h.within

include h hfloats in
theorem accepted : (ContentInspector.parsers env.toInspectionEnvironment).jsonLoads
    (publishedText items) = .accepted := by
  obtain ⟨-, hfree, hshort⟩ := shapeOf_jsonOf _ _ h.json
  rw [ContentInspector.parsers]
  dsimp only
  rw [h.loads_text hfloats]
  dsimp only
  rw [hfree, hshort]
  rfl

include h hfloats in
theorem control : ∀ d ∈ (publishedText items).toList, ContentInspector.isControl d = false := by
  have hwrites : ∀ d ∈ (publishedText items).toList, 32 ≤ d.toNat ∨ d = '\n' := by
    rw [publishedText, Layout.text, String.toList_append, String.toList_ofList,
      String.toList_ofList]
    refine List.forall_mem_append.mpr ⟨indented_writes.value _ _ (h.readable hfloats), ?_⟩
    exact List.forall_mem_singleton.mpr (.inr rfl)
  intro d hd
  rcases hwrites d hd with hvisible | rfl
  · rw [ContentInspector.isControl, decide_eq_false (Nat.not_lt.mpr hvisible), Bool.false_and]
  · decide

/-! ### Inspection -/

/-- An identification that lets the connector read. -/
def Admitted (identification : Identification) : Prop :=
  identification.risks = [] ∧ identification.kind ∈ allowedKinds

theorem admitted_identifyProbe (text : String) :
    Admitted (ContentInspector.identifyProbe text) := by
  rw [ContentInspector.identifyProbe]
  split
  · exact ⟨rfl, by decide⟩
  · split
    · exact ⟨rfl, by decide⟩
    · exact ⟨rfl, by decide⟩

include h in
theorem completeText_eq {file : StoredFile} (hbytes : file.bytes = bytes) {text : String}
    (htext : ContentInspector.completeText c.policy (some (ContentInspector.openFile env.toInspectionEnvironment file)) bytes.length =
      some text) : text = (publishedText items) := by
  rw [ContentInspector.completeText, Option.bind_some] at htext
  split at htext
  case isTrue hsmall =>
    have htake : (bytes.take (c.policy.maxTextParseBytes + 1)) = bytes :=
      List.take_of_length_le (by omega)
    have hbom : ContentInspector.hasUtf16Bom bytes = false := by
      have hnone := ContentInspector.hasUtf16Bom_take (publishedText items).toList bytes.length
      rwa [← h.bytes_eq, List.take_length] at hnone
    rw [ContentInspector.readText, ContentInspector.openFile, hbytes] at htext
    dsimp only at htext
    rw [htake, if_neg (Nat.not_lt.mpr hsmall), hbom, if_neg Bool.false_ne_true,
      h.decodeUtf8Sig_bytes] at htext
    exact (Option.some.inj htext).symm
  case isFalse => cases htext

include h hfloats in
/-- What the inspector says of the text when its probe is text. -/
theorem admitted_identifyText {file : StoredFile} (hbytes : file.bytes = bytes)
    {head : List UInt8} (hhead : (ContentInspector.decodeText head).isSome = true) :
    Admitted (ContentInspector.identifyText (ContentInspector.parsers env.toInspectionEnvironment) c.policy (some (ContentInspector.openFile env.toInspectionEnvironment file)) head
      bytes.length) := by
  obtain ⟨probe, hprobe⟩ := Option.isSome_iff_exists.mp hhead
  rw [ContentInspector.identifyText, hprobe]
  dsimp only
  split
  · exact ⟨rfl, by decide⟩
  · cases hcomplete : ContentInspector.completeText c.policy (some (ContentInspector.openFile env.toInspectionEnvironment file))
      bytes.length with
    | none => exact admitted_identifyProbe probe
    | some text =>
        obtain rfl := h.completeText_eq hbytes hcomplete
        have hlimits : ContentInspector.jsonLikeLimitsExceeded (publishedText items)
            c.policy.maxStructuredTextDepth c.policy.maxJsonItems = (false, false) :=
          h.limits hfloats
        rw [Option.bind_some, ContentInspector.identifyComplete, hlimits, h.accepted hfloats]
        exact ⟨rfl, show ContentKind.json ∈ allowedKinds by decide⟩

include h in
/-- Without a link above it, the published file is inspected as text. -/
theorem inspect_eq {file : StoredFile} (hbytes : file.bytes = bytes)
    (hlinked : env.linkedParent = false) :
    ContentInspector.inspect env.toInspectionEnvironment c.policy file =
      ContentInspector.identifyText (ContentInspector.parsers env.toInspectionEnvironment) c.policy
        (some (ContentInspector.openFile env.toInspectionEnvironment file))
        (bytes.take c.policy.maxProbeBytes) bytes.length := by
  obtain ⟨rest, hrest⟩ := h.bytes_cons
  have hnone := @ContentInspector.no_signature_of_first 0x5b (by decide) rest
  rw [← hrest] at hnone
  have hsize : bytes.length ≠ 0 := by
    rw [hrest]
    exact Nat.succ_ne_zero _
  rw [ContentInspector.inspect_of_unlinked hlinked (by rw [hbytes]; exact h.size), hbytes,
    ContentInspector.identify, if_neg hsize,
    ContentInspector.identifySignature_eq_none hnone.1 hnone.2 (List.take_prefix _ _)]

include h hfloats in
/-- The inspector admits the published file when the probe does not cut a character. -/
theorem require_iff {file : StoredFile} (hbytes : file.bytes = bytes) :
    ContentInspector.require env.toInspectionEnvironment c.policy "JSON connector" allowedKinds
        file = .ok () ↔
      env.linkedParent = false ∧ OnBoundary bytes c.policy.maxProbeBytes := by
  have hhead : (ContentInspector.decodeText (bytes.take c.policy.maxProbeBytes)).isSome = true ↔
      OnBoundary bytes c.policy.maxProbeBytes := by
    rw [h.bytes_eq]
    exact ContentInspector.decodeText_take_isSome_iff (h.control hfloats) _
  rw [← hhead]
  constructor
  · intro hok
    have hlinked := ContentInspector.unlinked_of_require hok
    have hkind := ContentInspector.kind_of_require hok
    rw [h.inspect_eq hbytes hlinked] at hkind
    refine ⟨hlinked, ?_⟩
    rw [← ContentInspector.identifyText_kind
      (ContentInspector.parsers env.toInspectionEnvironment) c.policy
      (some (ContentInspector.openFile env.toInspectionEnvironment file)) _ bytes.length]
    intro hbinary
    rw [hbinary] at hkind
    exact absurd hkind (by decide)
  · rintro ⟨hlinked, hsome⟩
    obtain ⟨hrisks, hkind⟩ := h.admitted_identifyText hfloats hbytes hsome
    rw [ContentInspector.require, h.inspect_eq hbytes hlinked, hrisks]
    exact if_pos hkind

/-! ### Loading again -/

include h in
theorem sourceText_eq {file : StoredFile} (hbytes : file.bytes = bytes) :
    sourceText c file = .ok (publishedText items) := by
  have htake : bytes.take (c.maxFileBytes + 1) = bytes :=
    List.take_of_length_le (Nat.le_succ_of_le h.size)
  have hsize : ¬c.maxFileBytes < file.identity.sizeBytes := by
    rw [StoredFile.identity, hbytes]
    exact Nat.not_lt.mpr h.size
  rw [sourceText, if_neg hsize, hbytes]
  dsimp only
  rw [htake, if_neg (Nat.not_lt.mpr h.size), h.decodeUtf8Sig_bytes]

include h hfloats in
theorem checkLimits_eq : checkLimits c (publishedText items) = .ok () := by
  rw [checkLimits, h.limits hfloats]
  rfl

include h in
/-- The records with lists for their tuples have the shape of JSON. -/
theorem jsonShaped_list (hdistinct : ∀ record ∈ combined, distinctTexts (.dict record) = true) :
    jsonShaped (asLists (listOf combined)) = true := by
  refine jsonShaped_asLists _ ((validateValue_eq_ok_iff _ _ _).mp h.valid).1 ?_
  have hitems : ∀ records : List Members,
      (∀ record ∈ records, distinctTexts (.dict record) = true) →
      distinctItems (records.map .dict) = true := by
    intro records hall
    induction records with
    | nil => rfl
    | cons record records ih =>
        rw [List.forall_mem_cons] at hall
        rw [List.map_cons, distinctItems, hall.1, ih hall.2]
        rfl
  exact hitems combined hdistinct

include h hfloats in
theorem parseText_eq (hdistinct : ∀ record ∈ combined, distinctTexts (.dict record) = true)
    (size : Nat) :
    parseText env c size (publishedText items) = .ok (asLists (listOf combined)) := by
  rw [parseText, h.loads_text hfloats]
  refine loadedValue_of_valueOf _ _ (valueOf_of_shaped _ _ (h.jsonShaped_list hdistinct) ?_ ?_)
  · rw [encodable_asLists]
    exact h.encodable
  · rw [jsonOf_asLists]
    exact h.json

include h in
theorem validateValue_asLists :
    validateValue c.maxStructuredTextDepth c.maxJsonItems (asLists (listOf combined)) = .ok () := by
  rw [validateValue_eq_ok_iff, representable_asLists, containers_asLists, ← validateValue_eq_ok_iff]
  exact h.valid

end Encoded

theorem asLists_listOf (records : List Members) :
    asLists (listOf records) = listOf (records.map membersAsLists) := by
  rw [listOf, asLists, itemsAsLists_eq_map, List.map_map, listOf, List.map_map]
  rfl

theorem recordsOf_listOf (records : List Members) : recordsOf (listOf records) = .ok records := by
  rw [listOf, recordsOf, mapM_dictMembers?.mpr rfl]

/-- The conditions for reading a file that publishing does not check: no directory above it is a
link, it is the file that the connector was made for, and the probe does not cut a character. -/
def Rereadable (env : JsonEnvironment) (c : JsonFileConnector) (file : StoredFile) : Prop :=
  env.linkedParent = false ∧ (∀ expected ∈ c.expectedSourceIdentity, file.identity = expected) ∧
    OnBoundary file.bytes c.policy.maxProbeBytes

/-- **Published records are read back** if and only if their file can be read again. -/
theorem load_published_iff (hfloats : env.host.WritesFloats) {combined : List Members}
    {items : List Json} {file : StoredFile} (h : Encoded env c combined items file.bytes)
    (hdistinct : ∀ record ∈ combined, distinctTexts (.dict record) = true) :
    load env c file = .ok (combined.map membersAsLists) ↔ Rereadable env c file := by
  have hsafe : ensureSourceSafe env c file = .ok () ↔ Rereadable env c file := by
    rw [ensureSourceSafe, ContentInspector.ensureSourceSafe_eq_ok_iff, h.require_iff hfloats rfl,
      Rereadable, and_right_comm, and_assoc]
  rw [← hsafe]
  constructor
  · intro hload
    rw [load] at hload
    obtain ⟨_, hok, -⟩ := bind_eq_ok hload
    exact hok
  · intro hok
    rw [load, hok, ok_bind, h.sourceText_eq rfl, ok_bind, h.checkLimits_eq hfloats, ok_bind,
      h.parseText_eq hfloats hdistinct, ok_bind, h.validateValue_asLists, ok_bind,
      asLists_listOf, recordsOf_listOf]


/-! ## Appends -/

/-- A fresh connector yields these records from the path; a path without a file has none. -/
def Loads (env : JsonEnvironment) (c : JsonFileConnector) :
    Option StoredFile → List Members → Prop
  | none, records => records = []
  | some file, records => load env c file = .ok records

theorem Loads.unique {path : Option StoredFile} {records records' : List Members}
    (h : Loads env c path records) (h' : Loads env c path records') : records = records' := by
  cases path with
  | none => exact h.trans h'.symm
  | some file => exact Except.ok.inj (h.symm.trans h')

theorem Loads.shaped {path : Option StoredFile} {records : List Members}
    (h : Loads env c path records) : ∀ record ∈ records, jsonShaped (.dict record) = true := by
  cases path with
  | none =>
      cases h
      exact fun _ h => nomatch h
  | some file => exact shaped_load h

/-- Loaded records come back as they are. -/
theorem Loads.asLists {path : Option StoredFile} {records : List Members}
    (h : Loads env c path records) : records.map membersAsLists = records := by
  rw [List.map_congr_left (g := id) ?_, List.map_id]
  intro record hrecord
  have hshaped := h.shaped record hrecord
  rw [jsonShaped, Bool.and_eq_true] at hshaped
  exact membersAsLists_of_shaped record hshaped.2

/-- What a call owes: when it returns, the path yields the records before it and the new ones, with
lists for tuples; when it raises, the file is what it was. -/
def ReadsBack (env : JsonEnvironment) (c : JsonFileConnector) (path : Option StoredFile)
    (call : WriteCall) : Prop :=
  ∀ before, Loads env c path before →
    match writeRecords env c call path with
    | (.ok count, after) => count = call.members.length ∧
        Loads env c after (before ++ call.members.map membersAsLists)
    | (.error _, after) => after = path

/-- A call returns. -/
def Returns (env : JsonEnvironment) (c : JsonFileConnector) (path : Option StoredFile)
    (call : WriteCall) : Prop :=
  ∃ count, (writeRecords env c call path).1 = .ok count

/-- The text of the records at the path and the new ones makes a file that can be read again. -/
def TextRereadable (env : JsonEnvironment) (c : JsonFileConnector) (path : Option StoredFile)
    (call : WriteCall) : Prop :=
  call.members ≠ [] → ∀ before bytes, Loads env c path before →
    encodeRecords env.host (before ++ call.members) = .ok bytes → Rereadable env c (call.file bytes)

/-- A property of every call of a run, in the state before the call. -/
def EveryCall (env : JsonEnvironment) (c : JsonFileConnector)
    (P : Option StoredFile → WriteCall → Prop) : Option StoredFile → List WriteCall → Prop
  | _, [] => True
  | path, call :: calls => P path call ∧ EveryCall env c P (writeRecords env c call path).2 calls

theorem existingRecords_of_loads {path : Option StoredFile} {before existing : List Members}
    {call : WriteCall} (hloads : Loads env c path before)
    (h : existingRecords env c call path = .ok existing) : existing = before := by
  cases path with
  | none =>
      cases h
      exact hloads.symm
  | some file =>
      have hnonempty : file.identity.sizeBytes ≠ 0 := fun hzero =>
        load_nonempty hloads (List.length_eq_zero_iff.mp hzero)
      rw [existingRecords] at h
      obtain ⟨_, -, h⟩ := bind_eq_ok h
      obtain ⟨_, -, h⟩ := bind_eq_ok h
      rw [if_neg hnonempty] at h
      exact Except.ok.inj (h.symm.trans hloads)

theorem materialize_eq_ok {call : WriteCall} {records : List Members}
    (h : materialize c call = .ok records) : records = call.members := by
  rw [materialize] at h
  obtain ⟨_, -, h⟩ := bind_eq_ok h
  obtain ⟨_, -, h⟩ := bind_eq_ok h
  obtain ⟨_, -, h⟩ := bind_eq_ok h
  exact (Except.ok.inj h).symm

/-- What publishing has established when it returns. -/
theorem publish_eq_ok {call : WriteCall} {path : Option StoredFile} {new before : List Members}
    {file : StoredFile} (hloads : Loads env c path before)
    (h : publish env c call new path = .ok file) :
    ∃ items bytes, file = call.file bytes ∧ encodeRecords env.host (before ++ new) = .ok bytes ∧
      Encoded env c (before ++ new) items bytes := by
  rw [publish] at h
  obtain ⟨_, -, h⟩ := bind_eq_ok h
  obtain ⟨existing, hexisting, h⟩ := bind_eq_ok h
  obtain rfl := existingRecords_of_loads hloads hexisting
  obtain ⟨_, -, h⟩ := bind_eq_ok h
  obtain ⟨_, hvalid, h⟩ := bind_eq_ok h
  obtain ⟨bytes, hencode, h⟩ := bind_eq_ok h
  obtain ⟨_, hsize, h⟩ := bind_eq_ok h
  obtain ⟨_, -, h⟩ := bind_eq_ok h
  obtain ⟨_, -, h⟩ := bind_eq_ok h
  obtain ⟨items, hencoded⟩ := encoded_of_checks hvalid hencode hsize
  exact ⟨items, bytes, (Except.ok.inj h).symm, hencode, hencoded⟩

theorem distinct_append {path : Option StoredFile} {before : List Members} {call : WriteCall}
    (hloads : Loads env c path before) :
    ∀ record ∈ before ++ call.members, distinctTexts (.dict record) = true := by
  refine List.forall_mem_append.mpr ⟨?_, ?_⟩
  · exact fun record hrecord => distinctTexts_of_shaped _ (hloads.shaped record hrecord)
  · intro record hrecord
    obtain ⟨valid, -, rfl⟩ := List.mem_map.mp hrecord
    exact valid.property

/-- One call reads back if and only if what it leaves, when it returns, can be read again. -/
theorem readsBack_iff (hfloats : env.host.WritesFloats) {path : Option StoredFile}
    {before : List Members} (hloads : Loads env c path before) (call : WriteCall) :
    ReadsBack env c path call ↔ (Returns env c path call → TextRereadable env c path call) := by
  have hunique : ReadsBack env c path call ↔ match writeRecords env c call path with
      | (.ok count, after) => count = call.members.length ∧
          Loads env c after (before ++ call.members.map membersAsLists)
      | (.error _, after) => after = path :=
    ⟨fun h => h before hloads, fun h before' hloads' => hloads.unique hloads' ▸ h⟩
  rw [hunique, Returns, writeRecords]
  cases hmaterialize : materialize c call with
  | error e => exact iff_of_true rfl fun ⟨_, h⟩ => nomatch h
  | ok new =>
      obtain rfl := materialize_eq_ok hmaterialize
      cases hmembers : call.members with
      | nil =>
          refine iff_of_true ⟨rfl, ?_⟩ fun _ hne => absurd hmembers hne
          rw [List.map_nil, List.append_nil]
          exact hloads
      | cons record records =>
          dsimp only
          cases hpublish : publish env c call (record :: records) path with
          | error e => exact iff_of_true rfl fun ⟨_, h⟩ => nomatch h
          | ok file =>
              obtain ⟨items, bytes, rfl, hencode, hencoded⟩ := publish_eq_ok hloads hpublish
              rw [← hmembers] at hencode hencoded
              have hreread := @load_published_iff env c hfloats _ _ (call.file bytes) hencoded
                (distinct_append hloads)
              rw [List.map_append, hloads.asLists] at hreread
              rw [← hmembers]
              constructor
              · rintro ⟨-, hload⟩ - - before' bytes' hloads' hencode'
                obtain rfl := hloads.unique hloads'
                rw [hencode] at hencode'
                cases hencode'
                exact hreread.mp hload
              · intro h
                refine ⟨rfl, hreread.mpr (h ⟨_, rfl⟩ ?_ before bytes hloads hencode)⟩
                rw [hmembers]
                exact List.cons_ne_nil _ _

/-- After a call that reads back, the path yields records again. -/
theorem exists_loads_of_readsBack {path : Option StoredFile} {before : List Members}
    {call : WriteCall} (hloads : Loads env c path before) (h : ReadsBack env c path call) :
    ∃ records, Loads env c (writeRecords env c call path).2 records := by
  have hcall := h before hloads
  split at hcall
  case h_1 count after heq =>
    rw [heq]
    exact ⟨_, hcall.2⟩
  case h_2 e after heq =>
    rw [heq, hcall]
    exact ⟨before, hloads⟩

/-- **Appends read back.** From no file, or from a file that the connector loads, every call of a
run reads back if and only if what each returning call leaves can be read again. -/
theorem writeRecords_readsBack_iff (env : JsonEnvironment) (c : JsonFileConnector)
    (hfloats : env.host.WritesFloats) {path : Option StoredFile} {before : List Members}
    (hloads : Loads env c path before) (calls : List WriteCall) :
    EveryCall env c (ReadsBack env c) path calls ↔ EveryCall env c
      (fun path call => Returns env c path call → TextRereadable env c path call) path calls := by
  induction calls generalizing path before with
  | nil => exact Iff.rfl
  | cons call calls ih =>
      have hcall := readsBack_iff hfloats hloads call
      rw [EveryCall, EveryCall, ← hcall]
      refine and_congr_right fun hreads => ?_
      obtain ⟨records, hrecords⟩ := exists_loads_of_readsBack hloads hreads
      exact ih hrecords

/-! ## A text that the probe cuts -/

/-- The libraries accept nothing, and no directory is a link. -/
noncomputable def plainEnvironment : JsonEnvironment where
  host := decimalHost
  linkedParent := false
  reprText text := text
  json5Accepts _ := .rejected
  json5Loads _ := .error (.valueError "no JSON5")
  saxParse _ _ _ _ := .rejected
  inspectZip _ := ContentInspector.plainText 0 "no archive"
  inspectGzip _ _ _ _ := ContentInspector.plainText 0 "no archive"

/-- One member with a text that ends in a character of two bytes. -/
def longMembers (n : Nat) : Members :=
  [(.str (PyText.ofString "a"), .str (PyText.ofString (String.ofList
    (ContentInspector.longText n))))]

/-- A record with that member, appended in a quiet environment. -/
def longCall (n : Nat) : WriteCall where
  records := [⟨longMembers n, rfl⟩]
  device := 1
  inode := 2
  mtimeNs := 3

/-- What stands in the text before the value of the member, and behind it. -/
def longStart : List Char :=
  ['[', '\n', ' ', ' ', '{', '\n', ' ', ' ', ' ', ' ', '"', 'a', '"', ':', ' ', '"']

def longEnd : List Char := ['"', '\n', ' ', ' ', '}', '\n', ']', '\n']

theorem flatMap_escapeChar_longText (n : Nat) :
    (ContentInspector.longText n).flatMap escapeChar = ContentInspector.longText n := by
  induction n with
  | zero => decide
  | succ n ih =>
      rw [ContentInspector.longText, List.replicate_succ, List.cons_append, List.flatMap_cons]
      change escapeChar 'a' ++ (ContentInspector.longText n).flatMap escapeChar = _
      rw [ih]
      rfl

/-- The items of the list with the record. -/
def longItems (n : Nat) : List Json :=
  [.obj [("a", .str (String.ofList (ContentInspector.longText n)))]]

theorem publishedText_long (n : Nat) : (publishedText (longItems n)).toList =
    longStart ++ (ContentInspector.longText n ++ longEnd) := by
  have hescape := flatMap_escapeChar_longText n
  have hkey : escapeChar 'a' = ['a'] := by decide
  simp only [publishedText, longItems, Layout.text, Layout.value, Layout.items, Layout.members,
    Layout.string, indented, String.toList_append, String.toList_ofList, hescape]
  simp [longStart, longEnd, hkey, List.replicate]

theorem jsonOf_long (n : Nat) :
    jsonOf decimalHost (listOf [longMembers n]) = .ok (.arr (longItems n)) := by
  simp only [listOf, longMembers, List.map_cons, List.map_nil, jsonOf, itemsOf, membersOf, jsonKey,
    characters_ofString]
  rfl

theorem encodable_long (n : Nat) : encodable (listOf [longMembers n]) = true := by
  simp only [listOf, longMembers, List.map_cons, List.map_nil, encodable, encodableItems,
    encodableMembers, chars?_ofString]
  rfl

/-- The bytes of the record. -/
def longBytes (n : Nat) : List UInt8 :=
  utf8Bytes (longStart ++ (ContentInspector.longText n ++ longEnd))

theorem encodeRecords_long (n : Nat) :
    encodeRecords decimalHost [longMembers n] = .ok (longBytes n) := by
  rw [encodeRecords, jsonOf_long, ok_bind, if_pos (encodable_long n), longBytes,
    ← publishedText_long]
  rfl

theorem longBytes_eq (n : Nat) : longBytes n =
    utf8Bytes longStart ++ (List.replicate n 0x61 ++ ([0xc3, 0xa9] ++ utf8Bytes longEnd)) := by
  rw [longBytes, utf8Bytes_append, utf8Bytes_append, ContentInspector.utf8Bytes_longText,
    List.append_assoc]

theorem length_longStart : (utf8Bytes longStart).length = 16 := by decide

theorem length_longBytes (n : Nat) : (longBytes n).length = n + 26 := by
  have hend : (utf8Bytes longEnd).length = 8 := by decide
  rw [longBytes_eq, List.length_append, List.length_append, List.length_append, length_longStart,
    hend, List.length_replicate, List.length_cons, List.length_singleton]
  omega

/-- A probe that ends one byte behind the start of the last character. -/
theorem longBytes_cut (n : Nat) : ¬OnBoundary (longBytes n) (n + 17) := by
  have hbyte : (longBytes n)[n + 17]? = some 0xa9 := by
    rw [longBytes_eq, List.getElem?_append_right (by rw [length_longStart]; omega),
      length_longStart, List.getElem?_append_right (by rw [List.length_replicate]; omega),
      List.length_replicate, show n + 17 - 16 - n = 1 by omega]
    rfl
  intro hboundary
  exact absurd (hboundary _ hbyte) (by decide)

theorem validateValue_long (n : Nat) :
    validateValue 128 100000 (listOf [longMembers n]) = .ok () := by
  have hshape : containers (listOf [longMembers n]) = .node [.node [.leaf]] := rfl
  rw [validateValue_eq_ok_iff, hshape]
  exact ⟨rfl, by decide, by decide⟩

theorem writeRecords_long {n : Nat} (hsize : n + 26 ≤ 64 * 1024 * 1024) :
    writeRecords plainEnvironment {} (longCall n) none =
      (.ok 1, some ((longCall n).file (longBytes n))) := by
  have hmaterialize : materialize {} (longCall n) = .ok [longMembers n] := by
    rw [materialize]
    change (Except.ok () >>= fun _ => Except.ok () >>= fun _ =>
      validateValue 128 100000 (listOf [longMembers n]) >>= fun _ => _) = _
    rw [validateValue_long]
    rfl
  have hbytes : checkSize {} (longBytes n) = .ok () := by
    rw [checkSize, length_longBytes]
    exact if_neg (Nat.not_lt.mpr hsize)
  have hpublish : publish plainEnvironment {} (longCall n) [longMembers n] none =
      .ok ((longCall n).file (longBytes n)) := by
    rw [publish]
    change (Except.ok () >>= fun _ => Except.ok [] >>= fun existing =>
      checkFields (existing ++ [longMembers n]) >>= fun _ => _) = _
    rw [ok_bind, ok_bind, List.nil_append]
    change (Except.ok () >>= fun _ => validateValue 128 100000 (listOf [longMembers n]) >>=
      fun _ => encodeRecords decimalHost [longMembers n] >>= fun bytes =>
        checkSize {} bytes >>= fun _ => _) = _
    rw [ok_bind, validateValue_long, ok_bind, encodeRecords_long, ok_bind, hbytes]
    rfl
  rw [writeRecords, hmaterialize]
  dsimp only
  rw [hpublish]
  rfl

/-- A call that returned has left a file that no fresh connector with the same options loads. -/
theorem writeRecords_refused : ∃ call : WriteCall,
    plainEnvironment.host.WritesFloats ∧ Loads plainEnvironment {} none [] ∧
      (writeRecords plainEnvironment {} call none).1 = .ok 1 ∧
      ∀ records,
        ¬Loads plainEnvironment {} (writeRecords plainEnvironment {} call none).2 records := by
  have hsize : 262127 + 26 ≤ 64 * 1024 * 1024 := by decide
  refine ⟨longCall 262127, decimalHost_writesFloats, rfl, ?_, ?_⟩
  · rw [writeRecords_long hsize]
  · intro records hloads
    rw [writeRecords_long hsize, Loads, load] at hloads
    obtain ⟨_, hsafe, -⟩ := bind_eq_ok hloads
    obtain ⟨hrequired, -⟩ := ContentInspector.ensureSourceSafe_eq_ok_iff.mp hsafe
    have hencoded : Encoded plainEnvironment {} [longMembers 262127] (longItems 262127)
        (longBytes 262127) := {
      json := jsonOf_long _
      encodable := encodable_long _
      valid := validateValue_long _
      bytes_eq := by rw [longBytes, publishedText_long]
      size := by
        rw [length_longBytes]
        exact hsize }
    have hboundary := ((hencoded.require_iff decimalHost_writesFloats rfl).mp hrequired).2
    exact longBytes_cut 262127 hboundary

theorem writeRecords_readsBack_sample :
    EveryCall plainEnvironment {} (ReadsBack plainEnvironment {}) none [longCall 3] := by
  refine (@writeRecords_readsBack_iff plainEnvironment {} decimalHost_writesFloats none [] rfl
    [longCall 3]).mpr ⟨?_, trivial⟩
  rintro - - before bytes rfl hencode
  obtain rfl := Except.ok.inj ((encodeRecords_long 3).symm.trans hencode)
  refine ⟨rfl, fun _ h => (nomatch h), ?_⟩
  intro b hb
  change (longBytes 3)[262144]? = some b at hb
  rw [List.getElem?_eq_none (by rw [length_longBytes]; decide)] at hb
  exact nomatch hb

end JsonFileConnector

end Polymorph
