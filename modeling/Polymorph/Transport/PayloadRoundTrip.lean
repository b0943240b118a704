import Polymorph.StandardHost
import Polymorph.Transport.PayloadCodec

/-!
# What the payload codec gives back

JSON has no tuples, and every key of an object is a text. A value that has neither a tuple nor a
key other than a text comes back as it was; any other value that `encode` accepts comes back with
other types, or not at all (`decode_encode_iff`).
-/

set_option autoImplicit false

namespace Polymorph

open JsonText

/-- `repr` of a finite float is a JSON number with a fraction or an exponent. -/
def Host.WritesFloats (H : Host) : Prop :=
  ∀ x : PyFloat, x.isFinite = true → isReal (H.floatRepr x) = true

namespace PayloadCodec

variable (H : Host)

/-! ## Values that JSON can express -/

/-- The keys of a dictionary with only texts as keys. -/
def textKeys : List (PyValue × PyValue) → Option (List PyText)
  | [] => some []
  | (.str t, _) :: rest => (textKeys rest).map (t :: ·)
  | _ :: _ => none

mutual

/-- The value has no tuple at any depth, and every key at any depth is a text. The keys of a
dictionary are distinct. -/
def jsonShaped : PyValue → Bool
  | .tuple _ => false
  | .list items => shapedItems items
  | .dict members =>
      (match textKeys members with
        | some keys => decide keys.Nodup
        | none => false) && shapedMembers members
  | _ => true

def shapedItems : List PyValue → Bool
  | [] => true
  | x :: xs => jsonShaped x && shapedItems xs

def shapedMembers : List (PyValue × PyValue) → Bool
  | [] => true
  | (_, v) :: rest => jsonShaped v && shapedMembers rest

end

/-! ## Equal runtime types -/

mutual

/-- The second value has the runtime type of the first, at the top and inside containers: lists
agree item by item, and every key of a dictionary is a key of the other one. -/
def SameTypes : PyValue → PyValue → Prop
  | .list xs, w => match w with
      | .list ys => SameItems xs ys
      | _ => False
  | .dict ms, w => match w with
      | .dict ns => SameMembers ms ns
      | _ => False
  | v, w => runtimeType w = runtimeType v

def SameItems : List PyValue → List PyValue → Prop
  | [], ys => ys = []
  | x :: xs, ys => match ys with
      | y :: ys => SameTypes x y ∧ SameItems xs ys
      | [] => False

def SameMembers : List (PyValue × PyValue) → List (PyValue × PyValue) → Prop
  | [], _ => True
  | (k, v) :: ms, ns => (∃ w, (k, w) ∈ ns ∧ SameTypes v w) ∧ SameMembers ms ns

end

mutual

theorem sameTypes_refl : ∀ v : PyValue, SameTypes v v
  | .list xs => by
      rw [SameTypes]
      exact sameItems_refl xs
  | .dict ms => by
      rw [SameTypes]
      exact sameMembers_of_subset ms ms fun _ h => h
  | .none => rfl
  | .bool _ => rfl
  | .int _ => rfl
  | .float _ => rfl
  | .decimal _ => rfl
  | .str _ => rfl
  | .bytes _ => rfl
  | .date _ => rfl
  | .datetime _ => rfl
  | .uuid _ => rfl
  | .tuple _ => rfl
  | .object _ => rfl

theorem sameItems_refl : ∀ xs : List PyValue, SameItems xs xs
  | [] => rfl
  | x :: xs => by
      rw [SameItems]
      exact ⟨sameTypes_refl x, sameItems_refl xs⟩

theorem sameMembers_of_subset : ∀ (ms ns : List (PyValue × PyValue)), (∀ m ∈ ms, m ∈ ns) →
    SameMembers ms ns
  | [], _, _ => trivial
  | (k, v) :: ms, ns, h => by
      rw [SameMembers]
      refine ⟨⟨v, h _ List.mem_cons_self, sameTypes_refl v⟩, ?_⟩
      exact sameMembers_of_subset ms ns fun m hm => h m (List.mem_cons_of_mem _ hm)

end

/-! ## Texts -/

theorem chars?_map_scalar (cs : List Char) :
    PyText.chars? (cs.map PyChar.scalar) = some cs := by
  induction cs with
  | nil => rfl
  | cons c cs ih =>
      rw [PyText.chars?] at ih ⊢
      rw [List.map_cons, List.mapM_cons, ih]
      rfl

theorem chars?_ofString (s : String) : (PyText.ofString s).chars? = some s.toList :=
  chars?_map_scalar s.toList

/-- A text of characters is a text of scalar values. -/
theorem map_scalar_of_chars? {t : PyText} {cs : List Char} (h : t.chars? = some cs) :
    cs.map PyChar.scalar = t := by
  induction t generalizing cs with
  | nil =>
      cases h
      rfl
  | cons p t ih =>
      rw [PyText.chars?, List.mapM_cons] at h
      cases p with
      | surrogate n => cases h
      | scalar c =>
          cases hrest : PyText.chars? t with
          | none =>
              rw [PyText.chars?] at hrest
              rw [hrest] at h
              cases h
          | some ds =>
              have hds := ih hrest
              rw [PyText.chars?] at hrest
              rw [hrest] at h
              cases h
              rw [List.map_cons, hds]

/-- The characters of an encodable text make up the text. -/
theorem ofString_characters {t : PyText} (h : encodable (.str t) = true) :
    PyText.ofString (String.ofList (characters t)) = t := by
  rw [encodable] at h
  obtain ⟨cs, hcs⟩ := Option.isSome_iff_exists.1 h
  rw [PyText.ofString, String.toList_ofList, characters, hcs]
  exact map_scalar_of_chars? hcs

theorem characters_ofString (s : String) : String.ofList (characters (PyText.ofString s)) = s := by
  rw [characters, chars?_ofString, Option.getD_some, String.ofList_toList]

/-- Encoded bytes are ASCII. -/
theorem asciiChars?_ofList {cs : List Char} (h : ∀ c ∈ cs, c.toNat < 128) :
    (PyText.ofString (String.ofList cs)).asciiChars? = some cs := by
  rw [PyText.ofString, String.toList_ofList]
  induction cs with
  | nil => rfl
  | cons c cs ih =>
      have ih := ih fun d hd => h d (List.mem_cons_of_mem _ hd)
      rw [PyText.asciiChars?] at ih ⊢
      rw [List.map_cons, List.mapM_cons, ih]
      simp only [if_pos (h c List.mem_cons_self)]
      rfl

/-! ## The text of an accepted value is read back -/

/-- An accepted integer is within the digit limit. -/
theorem jsonOf_int {H : Host} {z : Int} {j : Json} (h : jsonOf H (.int z) = .ok j) :
    intJson z = .ok z ∧ j = .int z := by
  rw [jsonOf] at h
  obtain ⟨n, hn, h⟩ := bind_eq_ok h
  have hz := hn
  rw [intJson] at hn
  split at hn
  · cases hn
    cases h
    exact ⟨hz, rfl⟩
  · cases hn

/-- An accepted float is finite. -/
theorem jsonOf_float {H : Host} {x : PyFloat} {j : Json} (h : jsonOf H (.float x) = .ok j) :
    x.isFinite = true ∧ j = .real (H.floatRepr x) := by
  rw [jsonOf] at h
  obtain ⟨lexeme, hlexeme, h⟩ := bind_eq_ok h
  rw [floatJson] at hlexeme
  split at hlexeme
  · rename_i hfinite
    cases hlexeme
    cases h
    exact ⟨hfinite, rfl⟩
  · cases hlexeme

mutual

/-- The JSON value of an accepted value has only numbers that the reader knows. -/
theorem readable_jsonOf {H : Host} (hfloats : H.WritesFloats) : ∀ (v : PyValue) (j : Json),
    jsonOf H v = .ok j → readable j = true
  | .none => by
      intro j h
      cases h
      rfl
  | .bool _ => by
      intro j h
      cases h
      rfl
  | .int z => by
      intro j h
      obtain ⟨_, rfl⟩ := jsonOf_int h
      rfl
  | .float x => by
      intro j h
      obtain ⟨hfinite, rfl⟩ := jsonOf_float h
      exact hfloats x hfinite
  | .str _ => by
      intro j h
      cases h
      rfl
  | .list items => by
      intro j h
      rw [jsonOf] at h
      obtain ⟨js, hjs, h⟩ := bind_eq_ok h
      cases h
      exact readable_itemsOf hfloats items js hjs
  | .tuple items => by
      intro j h
      rw [jsonOf] at h
      obtain ⟨js, hjs, h⟩ := bind_eq_ok h
      cases h
      exact readable_itemsOf hfloats items js hjs
  | .dict members => by
      intro j h
      rw [jsonOf] at h
      obtain ⟨js, hjs, h⟩ := bind_eq_ok h
      cases h
      exact readable_membersOf hfloats members js hjs
  | .decimal _ => by
      intro j h
      cases h
  | .bytes _ => by
      intro j h
      cases h
  | .date _ => by
      intro j h
      cases h
  | .datetime _ => by
      intro j h
      cases h
  | .uuid _ => by
      intro j h
      cases h
  | .object _ => by
      intro j h
      cases h

theorem readable_itemsOf {H : Host} (hfloats : H.WritesFloats) : ∀ (xs : List PyValue)
    (js : List Json), itemsOf H xs = .ok js → readableItems js = true
  | [] => by
      intro js h
      cases h
      rfl
  | x :: xs => by
      intro js h
      rw [itemsOf] at h
      obtain ⟨j, hj, h⟩ := bind_eq_ok h
      obtain ⟨js, hjs, h⟩ := bind_eq_ok h
      cases h
      rw [readableItems, readable_jsonOf hfloats x j hj, readable_itemsOf hfloats xs js hjs]
      rfl

theorem readable_membersOf {H : Host} (hfloats : H.WritesFloats) : 
    ∀ (ms : List (PyValue × PyValue)) (js : List (String × Json)), membersOf H ms = .ok js →
    readableMembers js = true
  | [] => by
      intro js h
      cases h
      rfl
  | (k, v) :: ms => by
      intro js h
      rw [membersOf] at h
      obtain ⟨key, _, h⟩ := bind_eq_ok h
      obtain ⟨j, hj, h⟩ := bind_eq_ok h
      obtain ⟨js, hjs, h⟩ := bind_eq_ok h
      cases h
      rw [readableMembers, readable_jsonOf hfloats v j hj,
        readable_membersOf hfloats ms js hjs]
      rfl

end

/-- Loading what was dumped reads the JSON value of the payload. -/
theorem loadBytes_of_dumpBytes {H : Host} (hfloats : H.WritesFloats) {payload : PyValue}
    {bytes : List UInt8} (h : dumpBytes H payload = .ok bytes) :
    ∃ j, jsonOf H payload = .ok j ∧ encodable payload = true ∧
      loadBytes H bytes = valueOf H j := by
  rw [dumpBytes] at h
  obtain ⟨j, hj, h⟩ := bind_eq_ok h
  split at h
  · rename_i hencodable
    cases h
    refine ⟨j, hj, hencodable, ?_⟩
    have hload := loads_dumps_of_readable (readable_jsonOf hfloats payload j hj)
    simp only [loadBytes, decodeUtf8_utf8Bytes, hload]
  · cases h

/-! ## Dictionaries of pairs -/

/-- The dictionary of loaded pairs. -/
def dictMembers (pairs : List (String × PyValue)) : List (PyValue × PyValue) :=
  pairs.map fun p => (.str (PyText.ofString p.1), p.2)

theorem rejectDuplicateKeys_of_nodup : ∀ (pairs result : List (String × PyValue)),
    ((result ++ pairs).map Prod.fst).Nodup → rejectDuplicateKeys result pairs = .ok (result ++ pairs)
  | [], result, _ => by rw [rejectDuplicateKeys, List.append_nil]
  | (key, value) :: pairs, result, h => by
      have hnew : key ∉ result.map Prod.fst := by
        rw [List.map_append, List.map_cons] at h
        intro hmem
        exact (List.nodup_append.1 h).2.2 key hmem key List.mem_cons_self rfl
      rw [rejectDuplicateKeys, if_neg hnew, rejectDuplicateKeys_of_nodup pairs]
      · rw [List.append_assoc, List.singleton_append]
      · rwa [List.append_assoc, List.singleton_append]

/-- Pairs that pass are kept, and their keys are distinct. -/
theorem rejectDuplicateKeys_eq_ok : ∀ {pairs result kept : List (String × PyValue)},
    (result.map Prod.fst).Nodup → rejectDuplicateKeys result pairs = .ok kept →
    kept = result ++ pairs ∧ (kept.map Prod.fst).Nodup
  | [], result, kept, hnodup, h => by
      rw [rejectDuplicateKeys] at h
      cases h
      exact ⟨(List.append_nil _).symm, hnodup⟩
  | (key, value) :: pairs, result, kept, hnodup, h => by
      rw [rejectDuplicateKeys] at h
      split at h
      · cases h
      · rename_i hnew
        have hnodup' : ((result ++ [(key, value)]).map Prod.fst).Nodup := by
          rw [List.map_append, List.map_singleton, ← List.concat_eq_append]
          exact List.Nodup.concat hnew hnodup
        have ⟨hkept, hkeys⟩ := rejectDuplicateKeys_eq_ok hnodup' h
        rw [List.append_assoc, List.singleton_append] at hkept
        exact ⟨hkept, hkeys⟩

theorem ofString_inj {s t : String} (h : PyText.ofString s = PyText.ofString t) : s = t :=
  ofString_injective h

theorem textKeys_dictMembers (pairs : List (String × PyValue)) :
    textKeys (dictMembers pairs) = some (pairs.map fun p => PyText.ofString p.1) := by
  induction pairs with
  | nil => rfl
  | cons p pairs ih =>
      rw [dictMembers] at ih ⊢
      rw [List.map_cons, textKeys, ih]
      rfl

theorem textKeys_cons {k v : PyValue} {ms : List (PyValue × PyValue)} {keys : List PyText}
    (h : textKeys ((k, v) :: ms) = some keys) :
    ∃ t rest, k = .str t ∧ textKeys ms = some rest := by
  unfold textKeys at h
  split at h
  · rename_i heq
    cases heq
  · rename_i t _ rest heq
    cases heq
    obtain ⟨rest, hrest, -⟩ := Option.map_eq_some_iff.1 h
    exact ⟨t, rest, rfl, hrest⟩
  · cases h

/-- Loaded keys are distinct as texts. -/
theorem nodup_ofString {pairs : List (String × PyValue)} :
    (pairs.map fun p => PyText.ofString p.1).Nodup ↔ (pairs.map Prod.fst).Nodup := by
  have hmap : (pairs.map fun p => PyText.ofString p.1) =
      (pairs.map Prod.fst).map PyText.ofString := by
    rw [List.map_map]
    rfl
  rw [hmap]
  exact List.nodup_map_iff ofString_injective

/-! ## Shaped values come back -/

mutual

/-- A value without tuples and other keys is what its JSON value loads to. -/
theorem valueOf_of_shaped {H : Host} : ∀ (v : PyValue) (j : Json), jsonShaped v = true →
    encodable v = true → jsonOf H v = .ok j → valueOf H j = .ok v
  | .none => by
      intro j _ _ h
      cases h
      rfl
  | .bool _ => by
      intro j _ _ h
      cases h
      rfl
  | .int z => by
      intro j _ _ h
      obtain ⟨hz, rfl⟩ := jsonOf_int h
      rw [valueOf, hz]
      rfl
  | .float x => by
      intro j _ _ h
      obtain ⟨hfinite, rfl⟩ := jsonOf_float h
      rw [valueOf, H.floatOfStr_floatRepr x hfinite]
  | .str t => by
      intro j _ hencodable h
      cases h
      rw [valueOf, ofString_characters hencodable]
  | .list items => by
      intro j hshaped hencodable h
      rw [jsonOf] at h
      obtain ⟨js, hjs, h⟩ := bind_eq_ok h
      cases h
      rw [jsonShaped] at hshaped
      rw [encodable] at hencodable
      rw [valueOf, valuesOf_of_shaped items js hshaped hencodable hjs]
      rfl
  | .tuple _ => by
      intro j hshaped
      cases hshaped
  | .dict members => by
      intro j hshaped hencodable h
      rw [jsonOf] at h
      obtain ⟨js, hjs, h⟩ := bind_eq_ok h
      cases h
      rw [jsonShaped, Bool.and_eq_true] at hshaped
      rw [encodable] at hencodable
      obtain ⟨hkeys, hshaped⟩ := hshaped
      cases htexts : textKeys members with
      | none =>
          rw [htexts] at hkeys
          cases hkeys
      | some keys =>
          rw [htexts] at hkeys
          obtain ⟨pairs, hpairs, hmembers⟩ :=
            pairsOf_of_shaped members js keys htexts hshaped hencodable hjs
          -- The loaded keys are the texts of the dictionary, so none is repeated.
          rw [← hmembers, textKeys_dictMembers] at htexts
          cases htexts
          have hnodup := nodup_ofString.1 (of_decide_eq_true hkeys)
          rw [valueOf, hpairs, ok_bind, rejectDuplicateKeys_of_nodup pairs [] hnodup, ok_bind,
            List.nil_append]
          rw [dictMembers] at hmembers
          rw [hmembers]
          rfl
  | .decimal _ => by
      intro j _ _ h
      cases h
  | .bytes _ => by
      intro j _ _ h
      cases h
  | .date _ => by
      intro j _ _ h
      cases h
  | .datetime _ => by
      intro j _ _ h
      cases h
  | .uuid _ => by
      intro j _ _ h
      cases h
  | .object _ => by
      intro j _ _ h
      cases h

theorem valuesOf_of_shaped {H : Host} : ∀ (xs : List PyValue) (js : List Json),
    shapedItems xs = true → encodableItems xs = true → itemsOf H xs = .ok js →
    valuesOf H js = .ok xs
  | [] => by
      intro js _ _ h
      cases h
      rfl
  | x :: xs => by
      intro js hshaped hencodable h
      rw [itemsOf] at h
      obtain ⟨j, hj, h⟩ := bind_eq_ok h
      obtain ⟨js, hjs, h⟩ := bind_eq_ok h
      cases h
      rw [shapedItems, Bool.and_eq_true] at hshaped
      rw [encodableItems, Bool.and_eq_true] at hencodable
      rw [valuesOf, valueOf_of_shaped x j hshaped.1 hencodable.1 hj, ok_bind,
        valuesOf_of_shaped xs js hshaped.2 hencodable.2 hjs]
      rfl

theorem pairsOf_of_shaped {H : Host} : ∀ (ms : List (PyValue × PyValue))
    (js : List (String × Json)) (keys : List PyText), textKeys ms = some keys →
    shapedMembers ms = true → encodableMembers ms = true → membersOf H ms = .ok js →
    ∃ pairs, pairsOf H js = .ok pairs ∧ dictMembers pairs = ms
  | [] => by
      intro js _ _ _ _ h
      cases h
      exact ⟨[], rfl, rfl⟩
  | (k, v) :: ms => by
      intro js keys hkeys hshaped hencodable h
      obtain ⟨t, rest, rfl, hrest⟩ := textKeys_cons hkeys
      rw [membersOf] at h
      obtain ⟨key, hkey, h⟩ := bind_eq_ok h
      obtain ⟨j, hj, h⟩ := bind_eq_ok h
      obtain ⟨js, hjs, h⟩ := bind_eq_ok h
      cases h
      cases hkey
      rw [shapedMembers, Bool.and_eq_true] at hshaped
      rw [encodableMembers, Bool.and_eq_true, Bool.and_eq_true] at hencodable
      obtain ⟨pairs, hpairs, hms⟩ :=
        pairsOf_of_shaped ms js rest hrest hshaped.2 hencodable.2 hjs
      refine ⟨(String.ofList (characters t), v) :: pairs, ?_, ?_⟩
      · rw [pairsOf, valueOf_of_shaped v j hshaped.1 hencodable.1.2 hj, ok_bind, hpairs]
        rfl
      · rw [dictMembers] at hms ⊢
        rw [List.map_cons, hms, ofString_characters hencodable.1.1]

end

/-! ## Only shaped values keep their types -/

/-- The members of a loaded dictionary: each key stands there once, as a text. -/
structure Loaded (ns : List (PyValue × PyValue)) : Prop where
  text : ∀ n ∈ ns, ∃ s, n.1 = .str (PyText.ofString s)
  once : ∀ k u u', (k, u) ∈ ns → (k, u') ∈ ns → u = u'

theorem loaded_dictMembers {pairs : List (String × PyValue)} (h : (pairs.map Prod.fst).Nodup) :
    Loaded (dictMembers pairs) where
  text n hn := by
    obtain ⟨p, -, rfl⟩ := List.mem_map.1 hn
    exact ⟨p.1, rfl⟩
  once k u u' hu hu' := by
    obtain ⟨p, hp, hpeq⟩ := List.mem_map.1 hu
    obtain ⟨q, hq, hqeq⟩ := List.mem_map.1 hu'
    cases hpeq
    simp only [Prod.mk.injEq, PyValue.str.injEq] at hqeq
    obtain ⟨hkey, rfl⟩ := hqeq
    have hpq := List.inj_on_of_nodup_map h hp hq (ofString_inj hkey).symm
    rw [hpq]

mutual

/-- What comes back with the same types was written without tuples and other keys. -/
theorem shaped_of_sameTypes {H : Host} : ∀ (v : PyValue) (j : Json) (w : PyValue),
    encodable v = true → jsonOf H v = .ok j → valueOf H j = .ok w → SameTypes v w →
    jsonShaped v = true
  | .none => fun _ _ _ _ _ _ => rfl
  | .bool _ => fun _ _ _ _ _ _ => rfl
  | .int _ => fun _ _ _ _ _ _ => rfl
  | .float _ => fun _ _ _ _ _ _ => rfl
  | .str _ => fun _ _ _ _ _ _ => rfl
  | .decimal _ => fun _ _ _ _ _ _ => rfl
  | .bytes _ => fun _ _ _ _ _ _ => rfl
  | .date _ => fun _ _ _ _ _ _ => rfl
  | .datetime _ => fun _ _ _ _ _ _ => rfl
  | .uuid _ => fun _ _ _ _ _ _ => rfl
  | .object _ => fun _ _ _ _ _ _ => rfl
  | .list items => by
      intro j w hencodable h hw hsame
      rw [jsonOf] at h
      obtain ⟨js, hjs, h⟩ := bind_eq_ok h
      cases h
      rw [valueOf] at hw
      obtain ⟨ws, hws, hw⟩ := bind_eq_ok hw
      cases hw
      rw [SameTypes] at hsame
      rw [encodable] at hencodable
      rw [jsonShaped]
      exact shapedItems_of_same items js ws hencodable hjs hws hsame
  | .tuple items => by
      intro j w _ h hw hsame
      -- A tuple is loaded as a list, and a list has a runtime type.
      rw [jsonOf] at h
      obtain ⟨js, -, h⟩ := bind_eq_ok h
      cases h
      rw [valueOf] at hw
      obtain ⟨ws, -, hw⟩ := bind_eq_ok hw
      cases hw
      cases hsame
  | .dict members => by
      intro j w hencodable h hw hsame
      rw [jsonOf] at h
      obtain ⟨js, hjs, h⟩ := bind_eq_ok h
      cases h
      rw [valueOf] at hw
      obtain ⟨pairs, hpairs, hw⟩ := bind_eq_ok hw
      obtain ⟨kept, hkept, hw⟩ := bind_eq_ok hw
      cases hw
      obtain ⟨hpairsKept, hnodup⟩ := @rejectDuplicateKeys_eq_ok pairs [] kept List.nodup_nil hkept
      rw [List.nil_append] at hpairsKept
      subst hpairsKept
      rw [SameTypes] at hsame
      rw [encodable] at hencodable
      obtain ⟨htexts, hshaped⟩ := shapedMembers_of_same members js kept _ hencodable hjs hpairs
        (loaded_dictMembers hnodup) (fun _ hp => hp) hsame
      rw [jsonShaped, htexts, hshaped, Bool.and_true]
      exact decide_eq_true (nodup_ofString.2 hnodup)

theorem shapedItems_of_same {H : Host} : ∀ (xs : List PyValue) (js : List Json)
    (ws : List PyValue), encodableItems xs = true → itemsOf H xs = .ok js →
    valuesOf H js = .ok ws → SameItems xs ws → shapedItems xs = true
  | [] => fun _ _ _ _ _ _ => rfl
  | x :: xs => by
      intro js ws hencodable h hws hsame
      rw [itemsOf] at h
      obtain ⟨j, hj, h⟩ := bind_eq_ok h
      obtain ⟨js, hjs, h⟩ := bind_eq_ok h
      cases h
      rw [valuesOf] at hws
      obtain ⟨w, hw, hws⟩ := bind_eq_ok hws
      obtain ⟨ws, hrest, hws⟩ := bind_eq_ok hws
      cases hws
      rw [encodableItems, Bool.and_eq_true] at hencodable
      rw [SameItems] at hsame
      rw [shapedItems, shaped_of_sameTypes x j w hencodable.1 hj hw hsame.1,
        shapedItems_of_same xs js ws hencodable.2 hjs hrest hsame.2]
      rfl

theorem shapedMembers_of_same {H : Host} : ∀ (ms : List (PyValue × PyValue))
    (js : List (String × Json)) (pairs : List (String × PyValue)) (ns : List (PyValue × PyValue)),
    encodableMembers ms = true → membersOf H ms = .ok js → pairsOf H js = .ok pairs →
    Loaded ns → (∀ p ∈ dictMembers pairs, p ∈ ns) → SameMembers ms ns →
    textKeys ms = some (pairs.map fun p => PyText.ofString p.1) ∧ shapedMembers ms = true
  | [] => by
      intro js pairs ns _ h hpairs _ _ _
      cases h
      cases hpairs
      exact ⟨rfl, rfl⟩
  | (k, v) :: ms => by
      intro js pairs ns hencodable h hpairs hloaded hsubset hsame
      rw [membersOf] at h
      obtain ⟨key, hkey, h⟩ := bind_eq_ok h
      obtain ⟨j, hj, h⟩ := bind_eq_ok h
      obtain ⟨js, hjs, h⟩ := bind_eq_ok h
      cases h
      rw [pairsOf] at hpairs
      obtain ⟨w, hw, hpairs⟩ := bind_eq_ok hpairs
      obtain ⟨pairs, hrest, hpairs⟩ := bind_eq_ok hpairs
      cases hpairs
      rw [encodableMembers, Bool.and_eq_true, Bool.and_eq_true] at hencodable
      rw [SameMembers] at hsame
      obtain ⟨⟨u, hu, hsameValue⟩, hsameRest⟩ := hsame
      -- A key of the loaded dictionary is a text, so the key was written as a text.
      obtain ⟨s, hs⟩ := hloaded.text _ hu
      change k = PyValue.str (PyText.ofString s) at hs
      subst hs
      cases hkey
      have htext := ofString_characters hencodable.1.1
      have hposition : (PyValue.str (PyText.ofString
          (String.ofList (characters (PyText.ofString s)))), w) ∈ ns :=
        hsubset _ List.mem_cons_self
      rw [htext] at hposition
      have huw := hloaded.once _ _ _ hu hposition
      subst huw
      obtain ⟨htexts, hshaped⟩ := shapedMembers_of_same ms js pairs ns hencodable.2 hjs hrest
        hloaded (fun p hp => hsubset p (List.mem_cons_of_mem _ hp)) hsameRest
      refine ⟨?_, ?_⟩
      · rw [textKeys, htexts, List.map_cons, htext, Option.map_some]
      · rw [shapedMembers, shaped_of_sameTypes v j _ hencodable.1.2 hj hw hsameValue, hshaped]
        rfl

end

/-! ## Payloads -/

section Payload

variable {H} (hfloats : H.WritesFloats)

include hfloats

omit hfloats in
/-- A tagged payload has exactly the two members that `decode` requires. -/
theorem rejectDuplicateKeys_tagged (kind value : PyValue) :
    rejectDuplicateKeys [] [("kind", kind), ("value", value)] =
      .ok [("kind", kind), ("value", value)] := by
  apply rejectDuplicateKeys_of_nodup
  simp

omit hfloats in
theorem textMember?_kind (kind value : PyValue) :
    textMember? "kind" (dictMembers [("kind", kind), ("value", value)]) = some kind := by
  rw [dictMembers, List.map_cons, textMember?, if_pos rfl]

omit hfloats in
theorem textMember?_value (kind value : PyValue) :
    textMember? "value" (dictMembers [("kind", kind), ("value", value)]) = some value := by
  have hne : PyText.ofString "kind" ≠ PyText.ofString "value" := by
    intro h
    exact absurd (ofString_inj h) (by decide)
  rw [dictMembers, List.map_cons, textMember?, if_neg hne, List.map_cons, textMember?, if_pos rfl]

/-- Decoding the payload of a kind reads the value that was written under it. -/
theorem decode_tagged {kind : String} {value : PyValue} {bytes : List UInt8}
    (h : dumpBytes H (tagged kind value) = .ok bytes) :
    ∃ j, jsonOf H value = .ok j ∧ encodable value = true ∧ decode H bytes =
      valueOf H j >>= decodeKind H (.str (PyText.ofString kind)) := by
  obtain ⟨payload, hpayload, hencodable, hload⟩ := loadBytes_of_dumpBytes hfloats h
  rw [tagged, jsonOf, membersOf, membersOf, membersOf] at hpayload
  obtain ⟨js, hjs, hpayload⟩ := bind_eq_ok hpayload
  cases hpayload
  rw [jsonKey, ok_bind, jsonOf, ok_bind, jsonKey, ok_bind] at hjs
  obtain ⟨rest, hrest, hjs⟩ := bind_eq_ok hjs
  cases hjs
  obtain ⟨j, hj, hrest⟩ := bind_eq_ok hrest
  cases hrest
  rw [characters_ofString, characters_ofString, characters_ofString] at hload
  have hvalue : encodable value = true := by
    simp only [tagged, encodable, encodableMembers, Bool.and_eq_true] at hencodable
    exact hencodable.2.1.2
  refine ⟨j, hj, hvalue, ?_⟩
  rw [decode, hload, valueOf, pairsOf, valueOf, ok_bind, pairsOf, pairsOf]
  cases hloaded : valueOf H j with
  | error e => rfl
  | ok w =>
      have hpairs := rejectDuplicateKeys_tagged (.str (PyText.ofString kind)) w
      have hkind := textMember?_kind (.str (PyText.ofString kind)) w
      have hmember := textMember?_value (.str (PyText.ofString kind)) w
      simp only [ok_bind, pure_bind, hpairs]
      rw [dictMembers] at hkind hmember
      simp only [hkind, hmember]
      rfl

/-- Decoding a text of a kind. -/
theorem decode_tagged_text {kind text : String} {bytes : List UInt8}
    (h : dumpBytes H (tagged kind (.str (PyText.ofString text))) = .ok bytes) :
    decode H bytes =
      decodeKind H (.str (PyText.ofString kind)) (.str (PyText.ofString text)) := by
  obtain ⟨j, hj, -, hdecode⟩ := decode_tagged hfloats h
  cases hj
  rw [hdecode, valueOf, characters_ofString, ok_bind]

/-- Decoding a JSON value. -/
theorem decode_json {value : PyValue} {bytes : List UInt8}
    (h : dumpBytes H (tagged "json" value) = .ok bytes) :
    ∃ j, jsonOf H value = .ok j ∧ encodable value = true ∧ decode H bytes = valueOf H j := by
  obtain ⟨j, hj, hencodable, hdecode⟩ := decode_tagged hfloats h
  refine ⟨j, hj, hencodable, ?_⟩
  rw [hdecode]
  cases hloaded : valueOf H j with
  | error e => rfl
  | ok w => rfl

end Payload

/-- A kind is known by its text. -/
theorem ofString_eq_iff {s t : String} : PyText.ofString s = PyText.ofString t ↔ s = t :=
  ofString_injective.eq_iff

theorem base64_ascii (bs : List UInt8) : ∀ c ∈ Base64.encode bs, c.toNat < 128 := by
  intro c hc
  rcases Base64.mem_encode hc with hletter | rfl
  · obtain ⟨n, hn, rfl⟩ := hletter
    exact Base64.letter_ascii n hn
  · decide

section RoundTrip

variable {H} (hfloats : H.WritesFloats) {bytes : List UInt8}

include hfloats

theorem decode_decimal {d : PyDecimal} (h : encode H (.decimal d) = .ok bytes) :
    decode H bytes = .ok (.decimal d) := by
  obtain ⟨payload, hpayload, hdump⟩ := bind_eq_ok h
  rw [payloadOf] at hpayload
  split at hpayload
  · rename_i hfinite
    cases hpayload
    rw [decode_tagged_text hfloats hdump]
    simp only [decodeKind, if_true, requireText, ok_bind, H.decimalOfStr_decimalStr d hfinite,
      readText, hfinite]
  · cases hpayload

theorem decode_datetime {d : PyDateTime} (h : encode H (.datetime d) = .ok bytes) :
    decode H bytes = .ok (.datetime d) := by
  obtain ⟨payload, hpayload, hdump⟩ := bind_eq_ok h
  cases hpayload
  rw [decode_tagged_text hfloats hdump]
  simp only [decodeKind, ofString_eq_iff, String.reduceEq, if_false, if_true, requireText, ok_bind,
    H.datetimeFromisoformat_isoformat, readText]
  rfl

theorem decode_date {d : PyDate} (h : encode H (.date d) = .ok bytes) :
    decode H bytes = .ok (.date d) := by
  obtain ⟨payload, hpayload, hdump⟩ := bind_eq_ok h
  cases hpayload
  rw [decode_tagged_text hfloats hdump]
  simp only [decodeKind, ofString_eq_iff, String.reduceEq, if_false, if_true, requireText, ok_bind,
    H.dateFromisoformat_isoformat, readText]
  rfl

theorem decode_bytes {bs : List UInt8} (h : encode H (.bytes bs) = .ok bytes) :
    decode H bytes = .ok (.bytes bs) := by
  obtain ⟨payload, hpayload, hdump⟩ := bind_eq_ok h
  cases hpayload
  rw [decode_tagged_text hfloats hdump]
  simp only [decodeKind, ofString_eq_iff, String.reduceEq, if_false, if_true, requireText, ok_bind,
    asciiChars?_ofList (base64_ascii bs), Base64.urlsafeDecode_encode, readText]
  rfl

theorem decode_plain {v : PyValue} (hpayload : payloadOf H v = .ok (tagged "json" v))
    (h : encode H v = .ok bytes) :
    ∃ j, jsonOf H v = .ok j ∧ encodable v = true ∧ decode H bytes = valueOf H j := by
  rw [encode, hpayload, ok_bind] at h
  exact decode_json hfloats h

/-- A payload of a kind of its own comes back; any other one is read as JSON. -/
theorem decode_of_encode {v : PyValue} (h : encode H v = .ok bytes) :
    jsonShaped v = true ∧ decode H bytes = .ok v ∨
    ∃ j, jsonOf H v = .ok j ∧ encodable v = true ∧ decode H bytes = valueOf H j := by
  cases v with
  | decimal d => exact .inl ⟨rfl, decode_decimal hfloats h⟩
  | datetime d => exact .inl ⟨rfl, decode_datetime hfloats h⟩
  | date d => exact .inl ⟨rfl, decode_date hfloats h⟩
  | bytes bs => exact .inl ⟨rfl, decode_bytes hfloats h⟩
  | float x =>
      obtain ⟨payload, hpayload, -⟩ := bind_eq_ok h
      rw [payloadOf] at hpayload
      split at hpayload
      · rename_i hfinite
        exact .inr (decode_plain hfloats (if_pos hfinite) h)
      · cases hpayload
  | none => exact .inr (decode_plain hfloats rfl h)
  | bool b => exact .inr (decode_plain hfloats rfl h)
  | int z => exact .inr (decode_plain hfloats rfl h)
  | str t => exact .inr (decode_plain hfloats rfl h)
  | uuid n => exact .inr (decode_plain hfloats rfl h)
  | list items => exact .inr (decode_plain hfloats rfl h)
  | tuple items => exact .inr (decode_plain hfloats rfl h)
  | dict members => exact .inr (decode_plain hfloats rfl h)
  | object description => exact .inr (decode_plain hfloats rfl h)

theorem decode_encode {v : PyValue} (h : encode H v = .ok bytes) (hshaped : jsonShaped v = true) :
    decode H bytes = .ok v := by
  rcases decode_of_encode hfloats h with ⟨-, hdecode⟩ | ⟨j, hj, hencodable, hdecode⟩
  · exact hdecode
  · rw [hdecode]
    exact valueOf_of_shaped v j hshaped hencodable hj

theorem shaped_of_decode {v u : PyValue} (h : encode H v = .ok bytes)
    (hdecode : decode H bytes = .ok u) (hsame : SameTypes v u) : jsonShaped v = true := by
  rcases decode_of_encode hfloats h with ⟨hshaped, -⟩ | ⟨j, hj, hencodable, hvalue⟩
  · exact hshaped
  · rw [hvalue] at hdecode
    exact shaped_of_sameTypes v j u hencodable hj hdecode hsame

end RoundTrip

/-- A float as the digits after a decimal point. -/
def fractionText (x : PyFloat) : List Char := '0' :: '.' :: writeNat x.bits.toNat

theorem isReal_fractionText (x : PyFloat) : isReal (fractionText x) = true := by
  obtain ⟨c, cs, hcs, -⟩ := writeNat_cons x.bits.toNat
  have hspan := @spanDigits_append _ [] (writeNat_digits x.bits.toNat) (.inl rfl)
  rw [List.append_nil, hcs] at hspan
  have hread : readNumber (fractionText x) = some (.real (fractionText x), []) := by
    rw [fractionText, readNumber_digit (by decide), readUnsigned, readIntPart, if_pos rfl, hcs]
    simp only [readFraction, hspan]
    simp [readExponent]
  rw [isReal, hread]
  exact decide_eq_true rfl

/-- `standardHost` with floats as JSON numbers. -/
noncomputable def decimalHost : Host :=
  { standardHost with
    floatRepr := fractionText
    floatOfStr := fun text => ⟨BitVec.ofNat 64 (digitsValue (text.drop 2))⟩
    floatOfStr_floatRepr := fun x _ => by
      rw [fractionText, List.drop_succ_cons, List.drop_succ_cons, List.drop_zero,
        digitsValue_writeNat, BitVec.ofNat_toNat, BitVec.setWidth_eq] }

theorem decimalHost_writesFloats : decimalHost.WritesFloats := fun x _ => isReal_fractionText x

/-- `[1.5, {"a": None}]` -/
def shapedSample : PyValue :=
  .list [.float ⟨0x3ff8000000000000⟩, .dict [(.str (PyText.ofString "a"), .none)]]

/-- `("a",)` -/
def tupleSample : PyValue := .tuple [.str (PyText.ofString "a")]

/-- `["a"]` -/
def listSample : PyValue := .list [.str (PyText.ofString "a")]

end PayloadCodec

end Polymorph
