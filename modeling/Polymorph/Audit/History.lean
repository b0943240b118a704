import Mathlib.Data.List.Range
import Polymorph.Audit.Log
import Polymorph.StandardHost
import Polymorph.Time.Chronology

/-!
# The last hash of an audit log

The last hash of a table that verifies is the tip of the chain of its events' canonical texts, and
chains with one tip have the same texts unless the hash is broken.
-/

set_option autoImplicit false

namespace Polymorph

open JsonText Utc

/-! ## Digests -/

/-- The characters of a digest take one byte each, and none of them is a NUL. -/
theorem digest_chars {text : String} (h : isLowerHex 64 text = true) :
    text.toList.length = 64 ∧ ∀ c ∈ text.toList, 0 < c.toNat ∧ c.toNat < 128 := by
  unfold isLowerHex at h
  rw [Bool.and_eq_true, decide_eq_true_eq, List.all_eq_true] at h
  obtain ⟨hlength, hchars⟩ := h
  refine ⟨hlength, ?_⟩
  intro c hc
  have hall : ("0123456789abcdef".toList.all fun d => 0 < d.toNat ∧ d.toNat < 128) = true := by
    decide
  exact of_decide_eq_true (List.all_eq_true.mp hall c (List.contains_iff_mem.mp (hchars c hc)))

theorem isLowerHex_genesisHash : isLowerHex 64 genesisHash = true := by decide

theorem isLowerHex_chainHash (previousHash encoded : String) :
    isLowerHex 64 (chainHash previousHash encoded) = true :=
  isLowerHex_hexDigest _

theorem hashEncoded_digest {previousHash : String} (h : isLowerHex 64 previousHash = true)
    (encoded : String) :
    hashEncoded previousHash encoded = .ok (chainHash previousHash encoded) := by
  apply if_pos
  rw [List.all_eq_true]
  intro c hc
  exact decide_eq_true ((digest_chars h).2 c hc).2

theorem hashEncoded_ok {previousHash encoded digest : String}
    (h : hashEncoded previousHash encoded = .ok digest) :
    digest = chainHash previousHash encoded := by
  unfold hashEncoded at h
  split at h
  · exact (Except.ok.inj h).symm
  · cases h

theorem utf8Bytes_inj {chars chars' : List Char} (h : utf8Bytes chars = utf8Bytes chars') :
    chars = chars' := by
  have hdecoded := congrArg decodeUtf8 h
  rw [decodeUtf8_utf8Bytes, decodeUtf8_utf8Bytes] at hdecoded
  have htext := congrArg String.toList (Option.some.inj hdecoded)
  rwa [String.toList_ofList, String.toList_ofList] at htext

theorem length_utf8Bytes_ascii {chars : List Char} (h : ∀ c ∈ chars, c.toNat < 128) :
    (utf8Bytes chars).length = chars.length := by
  induction chars with
  | nil => rfl
  | cons c chars ih =>
      obtain ⟨hc, hchars⟩ := List.forall_mem_cons.mp h
      have hrest := ih hchars
      unfold utf8Bytes at hrest ⊢
      rw [List.flatMap_cons, List.length_append, utf8EncodeChar_ascii hc, hrest,
        List.length_singleton, List.length_cons, Nat.add_comm]

/-- The bytes that are hashed for an entry behind a digest. -/
def hashInput (input : String × String) : List UInt8 :=
  utf8Bytes input.1.toList ++ 0 :: utf8Bytes input.2.toList

/-- They determine the digest and the entry. -/
theorem hashInput_inj {x y : String × String} (hx : isLowerHex 64 x.1 = true)
    (hy : isLowerHex 64 y.1 = true) (h : hashInput x = hashInput y) : x = y := by
  -- Digests take 64 bytes, so that the inputs split at the same place.
  have hlength : (utf8Bytes x.1.toList).length = (utf8Bytes y.1.toList).length := by
    rw [length_utf8Bytes_ascii fun c hc => ((digest_chars hx).2 c hc).2,
      length_utf8Bytes_ascii fun c hc => ((digest_chars hy).2 c hc).2, (digest_chars hx).1,
      (digest_chars hy).1]
  obtain ⟨hdigest, hentry⟩ := List.append_inj h hlength
  have hfirst := String.toList_inj.mp (utf8Bytes_inj hdigest)
  have hsecond := String.toList_inj.mp (utf8Bytes_inj (List.cons.inj hentry).2)
  exact Prod.ext hfirst hsecond

/-! ## The tail of a verified table -/

/-- The canonical text of a decoded event. -/
def eventText (event : List (String × Json)) : String := canonical (.obj event)

section Tail

variable {loads : EventLoads} {ed25519 : List UInt8 → ByteArray → List UInt8 → Bool}
  {trustedPublicKey : Option (List UInt8)}

/-- The last hash of verified rows is the tip of the chain of their events. -/
theorem tip_of_verifiedRows {rows : List AuditRow}
    {verified : List (AuditRow × List (String × Json))} {previousHash : String} {sequence : Nat}
    (hdigest : isLowerHex 64 previousHash = true)
    (h : verifiedRows loads ed25519 trustedPublicKey previousHash sequence rows = .ok verified) :
    (rows.getLast?.map AuditRow.eventHash).getD previousHash =
      HashChain.tip chainHash previousHash (verified.map fun v => eventText v.2) := by
  induction rows generalizing previousHash sequence verified with
  | nil =>
      cases h
      rfl
  | cons row rows ih =>
      unfold verifiedRows at h
      obtain ⟨-, h⟩ := guard_eq_ok h
      obtain ⟨event, -, h⟩ := bind_eq_ok h
      obtain ⟨-, h⟩ := guard_eq_ok h
      obtain ⟨expectedHash, hexpected, h⟩ := bind_eq_ok h
      obtain ⟨hhash, h⟩ := guard_eq_ok h
      obtain ⟨_, -, h⟩ := bind_eq_ok h
      obtain ⟨others, hothers, h⟩ := bind_eq_ok h
      cases h
      have hchain := hashEncoded_ok hexpected
      have hnext : isLowerHex 64 expectedHash = true := by
        rw [hchain]
        exact isLowerHex_chainHash _ _
      have htip := ih hnext hothers
      rw [List.map_cons]
      unfold HashChain.tip
      change _ = HashChain.tip chainHash (chainHash previousHash (canonical (.obj event))) _
      rw [← hchain, ← htip, ← not_not.mp hhash]
      cases rows with
      | nil => rfl
      | cons next rest => rw [List.getLast?_cons_cons, List.getLast?_cons]; rfl

/-- What is hashed for a chain of texts. -/
def hashedInputs (texts : List String) : List (List UInt8) :=
  (HashChain.inputs chainHash genesisHash texts).map hashInput

/-- Two different messages, one hashed for each chain, have one digest, or a message has the digest
of 64 zeros. -/
def HashBroken (texts texts' : List String) : Prop :=
  (∃ m ∈ hashedInputs texts, ∃ m' ∈ hashedInputs texts',
    m ≠ m' ∧ Sha256.hexDigest m = Sha256.hexDigest m') ∨
  ∃ m ∈ hashedInputs texts ++ hashedInputs texts', Sha256.hexDigest m = genesisHash

/-- A longer chain hashes more. -/
theorem HashBroken.append_right {texts texts' : List String} (h : HashBroken texts texts')
    (more : List String) : HashBroken texts (texts' ++ more) := by
  have hsubset : hashedInputs texts' ⊆ hashedInputs (texts' ++ more) := by
    unfold hashedInputs
    rw [HashChain.inputs_append, List.map_append]
    exact List.subset_append_left _ _
  rcases h with ⟨m, hm, m', hm', hne, hdigest⟩ | ⟨m, hm, hdigest⟩
  · exact .inl ⟨m, hm, m', hsubset hm', hne, hdigest⟩
  · refine .inr ⟨m, ?_, hdigest⟩
    rcases List.mem_append.mp hm with hm | hm
    · exact List.mem_append_left _ hm
    · exact List.mem_append_right _ (hsubset hm)

/-- Chains of texts with one tip. -/
theorem texts_eq_or_broken {texts texts' : List String}
    (htip : HashChain.tip chainHash genesisHash texts =
      HashChain.tip chainHash genesisHash texts') :
    texts = texts' ∨ HashBroken texts texts' := by
  have hdigests : ∀ {texts : List String} {x : String × String},
      x ∈ HashChain.inputs chainHash genesisHash texts → isLowerHex 64 x.1 = true :=
    fun hx => HashChain.inputs_all (P := fun digest => isLowerHex 64 digest = true)
      isLowerHex_genesisHash isLowerHex_chainHash hx
  rcases HashChain.eq_or_collides htip with hsame | ⟨x, hx, y, hy, hne, hdigest⟩ |
    ⟨x, hx, hstart⟩
  · exact .inl hsame
  · refine .inr (.inl ⟨hashInput x, List.mem_map_of_mem hx, hashInput y, List.mem_map_of_mem hy,
      ?_, hdigest⟩)
    intro hinput
    exact hne (hashInput_inj (hdigests hx) (hdigests hy) hinput)
  · refine .inr (.inr ⟨hashInput x, ?_, hstart⟩)
    unfold hashedInputs
    rw [← List.map_append]
    exact List.mem_map_of_mem hx

end Tail

end Polymorph
