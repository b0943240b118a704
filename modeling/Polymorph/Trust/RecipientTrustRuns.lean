import Mathlib
import Polymorph.Trust.RecipientTrustState

/-!
# Runs of the trust store

In every reachable state the history fits into a state file, and a head with the fingerprint of the
file is the head that the file holds. So whatever `accept` publishes is read back, and a store that
is opened after a successful call has the head of the first one.
-/

set_option autoImplicit false

namespace Polymorph

open JsonText Utc

variable {env : RecipientEnvironment}

namespace RecipientKeyTrustStore

variable {store : RecipientKeyTrustStore}

/-! ## Heads -/

/-- The history can be written and read back. -/
structure HeadInv (head : TrustHead env) : Prop where
  hex : ∀ id ∈ head.usedKeyIds, isLowerHex 64 id = true
  card : head.usedKeyIds.card ≤ maxUsedKeyIds

theorem readMembers_ok {payload : List (String × Json)}
    {state : RecipientKeyCertificate env × Finset String}
    (h : store.readMembers payload = .ok state) :
    (∀ id ∈ state.2, isLowerHex 64 id = true) ∧ state.2.card ≤ maxUsedKeyIds := by
  unfold readMembers at h
  obtain ⟨-, h⟩ := guard_eq_ok h
  obtain ⟨-, h⟩ := guard_eq_ok h
  obtain ⟨_, -, h⟩ := bind_eq_ok h
  obtain ⟨_, -, h⟩ := bind_eq_ok h
  obtain ⟨_, -, h⟩ := bind_eq_ok h
  obtain ⟨-, h⟩ := guard_eq_ok h
  obtain ⟨certificate, -, h⟩ := bind_eq_ok h
  obtain ⟨_, -, h⟩ := bind_eq_ok h
  obtain ⟨usedKeyIds, hhistory, h⟩ := bind_eq_ok h
  obtain ⟨-, h⟩ := guard_eq_ok h
  cases h
  exact historyOf_ok hhistory

theorem readState_ok {content : List UInt8} {state : RecipientKeyCertificate env × Finset String}
    (h : store.readState content = .ok state) :
    (∀ id ∈ state.2, isLowerHex 64 id = true) ∧ state.2.card ≤ maxUsedKeyIds := by
  unfold readState at h
  split at h
  · cases h
  · split at h
    · cases h
    · obtain ⟨payload, -, h⟩ := bind_eq_ok h
      split at h
      · exact readMembers_ok h
      · cases h

/-- The head that a file holds. -/
theorem headOf_ok {file : StateFile} {head : TrustHead env} (h : store.headOf file = .ok head) :
    HeadInv head ∧ head.fingerprint = some file.fingerprint := by
  obtain ⟨⟨certificate, usedKeyIds⟩, hstate, h⟩ := bind_eq_ok h
  cases h
  obtain ⟨hhex, hcard⟩ := readState_ok hstate
  exact ⟨⟨hhex, hcard⟩, rfl⟩

/-! ## The transition -/

/-- The head after a certificate has been accepted. -/
def advanced (head : TrustHead env) (certificate : RecipientKeyCertificate env) :
    TrustHead env :=
  { head with
    current := some certificate
    usedKeyIds := insert certificate.keyId head.usedKeyIds }

/-- What a transition that does not raise does: nothing, for the trusted certificate, or one entry
more in a history that is not full. -/
theorem acceptTransition_cases {head : TrustHead env} {certificate : RecipientKeyCertificate env}
    {now : Instant} {result : Option (TrustHead env)}
    (h : store.acceptTransition head certificate now = .ok result) :
    store.verifyCertificate certificate = .ok () ∧
      ((result = none ∧ ∃ current, head.current = some current ∧
          certificate.toCertificateFields = current.toCertificateFields) ∨
        (result = some (advanced head certificate) ∧ head.usedKeyIds.card < maxUsedKeyIds)) := by
  unfold acceptTransition at h
  obtain ⟨⟨⟩, hverified, h⟩ := bind_eq_ok h
  obtain ⟨_, -, h⟩ := bind_eq_ok h
  refine ⟨hverified, ?_⟩
  cases hcurrent : head.current with
  | none =>
      rw [hcurrent] at h
      obtain ⟨-, h⟩ := guard_eq_ok h
      obtain ⟨hempty, h⟩ := guard_eq_ok h
      cases h
      refine .inr ⟨rfl, ?_⟩
      rw [not_not.mp hempty, Finset.card_empty]
      decide
  | some current =>
      rw [hcurrent] at h
      dsimp only at h
      by_cases hsame : certificate.toCertificateFields = current.toCertificateFields
      · rw [if_pos hsame] at h
        cases h
        exact .inl ⟨rfl, current, rfl, hsame⟩
      · rw [if_neg hsame] at h
        obtain ⟨-, h⟩ := guard_eq_ok h
        obtain ⟨-, h⟩ := guard_eq_ok h
        obtain ⟨-, h⟩ := guard_eq_ok h
        obtain ⟨-, h⟩ := guard_eq_ok h
        obtain ⟨-, h⟩ := guard_eq_ok h
        obtain ⟨hroom, h⟩ := guard_eq_ok h
        cases h
        exact .inr ⟨rfl, Nat.not_le.mp hroom⟩

/-- The first certificate of an empty store. -/
theorem acceptTransition_first {certificate : RecipientKeyCertificate env} {now : Instant}
    (hverified : store.verifyCertificate certificate = .ok ())
    (hvalidity : verifyCurrentValidity certificate now = .ok ())
    (hgeneration : certificate.generation = 1) (hprevious : certificate.previousKeyId = none) :
    store.acceptTransition {} certificate now = .ok (some (advanced {} certificate)) := by
  have hstart : ¬(certificate.generation ≠ 1 ∨ certificate.previousKeyId ≠ none) := by
    rw [hgeneration, hprevious]
    simp
  unfold acceptTransition
  rw [hverified, ok_bind, hvalidity, ok_bind]
  dsimp only
  rw [if_neg hstart, if_neg (not_not.mpr rfl)]
  rfl

/-- Certificates are equal when the arguments of their constructors are. -/
theorem eq_of_fields {c d : RecipientKeyCertificate env}
    (h : c.toCertificateFields = d.toCertificateFields) : c = d := by
  obtain ⟨fields, keyId, _, _, hname, _⟩ := c
  obtain ⟨fields', keyId', _, _, hname', _⟩ := d
  cases h
  rw [hname] at hname'
  cases hname'
  rfl

theorem HeadInv.advanced {head : TrustHead env} (h : HeadInv head)
    (certificate : RecipientKeyCertificate env) (hroom : head.usedKeyIds.card < maxUsedKeyIds) :
    HeadInv (advanced head certificate) where
  hex := by
    intro id hid
    rcases Finset.mem_insert.mp hid with rfl | hid
    · exact certificate.isLowerHex_keyId
    · exact h.hex id hid
  card := Nat.le_trans (Finset.card_insert_le _ _) hroom

/-! ## The state of the system -/

/-- The invariant of the runs. -/
structure WorldInv (store : RecipientKeyTrustStore) (world : TrustWorld env) : Prop where
  head : HeadInv world.head
  fileVersion : ∀ file, world.file = some file → file.fingerprint < world.versions
  headVersion : ∀ n, world.head.fingerprint = some n → n < world.versions
  agrees : ∀ file, world.file = some file →
    world.head.fingerprint = some file.fingerprint → store.headOf file = .ok world.head

/-- A head that a call read from the file, or kept since there is no file. -/
structure Locked (store : RecipientKeyTrustStore) (world : TrustWorld env)
    (locked : TrustHead env) : Prop where
  inv : HeadInv locked
  version : ∀ n, locked.fingerprint = some n → n < world.versions
  fromFile : ∀ file, world.file = some file → store.headOf file = .ok locked
  noFile : world.file = none → locked.current = none

variable {world : TrustWorld env}

theorem reload_locked (h : WorldInv store world) {file : StateFile} (hfile : world.file = some file)
    {locked : TrustHead env} (hlocked : store.reloadStateIfChanged world.head file = .ok locked) :
    Locked store world locked := by
  have hhead : store.headOf file = .ok locked := by
    unfold reloadStateIfChanged at hlocked
    split at hlocked
    · rename_i hsame
      cases hlocked
      exact h.agrees file hfile hsame
    · exact hlocked
  obtain ⟨hinv, hversion⟩ := headOf_ok hhead
  refine ⟨hinv, ?_, ?_, ?_⟩
  · intro n hn
    rw [hversion] at hn
    cases hn
    exact h.fileVersion file hfile
  · intro file' hfile'
    rw [hfile] at hfile'
    cases hfile'
    exact hhead
  · intro hnone
    rw [hfile] at hnone
    cases hnone

theorem lockedHead_locked (h : WorldInv store world) {call : AcceptCall env}
    {locked : TrustHead env}
    (hlocked : store.lockedHead call world.head world.file = .ok locked) :
    Locked store world locked := by
  unfold lockedHead at hlocked
  split at hlocked
  · cases hlocked
  · cases hfile : world.file with
    | some file =>
        rw [hfile] at hlocked
        exact reload_locked h hfile hlocked
    | none =>
        rw [hfile] at hlocked
        dsimp only at hlocked
        split at hlocked
        · cases hlocked
        · rename_i hcurrent
          cases hlocked
          refine ⟨h.head, h.headVersion, ?_, fun _ => Option.not_isSome_iff_eq_none.mp hcurrent⟩
          intro file hsome
          rw [hfile] at hsome
          cases hsome

/-! ## One call -/

/-- The file that a call writes for a head. -/
def written (store : RecipientKeyTrustStore) (call : AcceptCall env) (next : TrustHead env)
    (fingerprint : Nat) : StateFile :=
  ⟨utf8Bytes (store.stateText call.certificate next.usedKeyIds).toList, fingerprint⟩

/-- The head whose state a call hands to `atomic_write_text`, if it gets there. -/
def writtenHead (store : RecipientKeyTrustStore) (call : AcceptCall env) (world : TrustWorld env) :
    Option (TrustHead env) :=
  match store.lockedHead call world.head world.file with
  | .error _ => none
  | .ok locked =>
      match store.acceptTransition locked call.certificate call.now with
      | .ok (some next) => some next
      | _ => none

theorem writtenHead_eq {call : AcceptCall env} {locked next : TrustHead env}
    (hlocked : store.lockedHead call world.head world.file = .ok locked)
    (htransition : store.acceptTransition locked call.certificate call.now = .ok (some next)) :
    writtenHead store call world = some next := by
  unfold writtenHead
  rw [hlocked]
  dsimp only
  rw [htransition]

/-- How a call ends: its result, and the head and the file afterwards. -/
inductive AcceptCase (store : RecipientKeyTrustStore) (call : AcceptCall env)
    (world : TrustWorld env) :
    Except Exn (RecipientKeyCertificate env) × TrustHead env × Option StateFile → Prop
  /-- The state is not looked at, or not there. -/
  | blocked (e : Exn) : AcceptCase store call world (.error e, world.head, world.file)
  /-- The certificate is refused. -/
  | refused (e : Exn) {locked : TrustHead env} (h : Locked store world locked) :
      AcceptCase store call world (.error e, locked, world.file)
  /-- The certificate is trusted already. -/
  | repeated {locked : TrustHead env} (h : Locked store world locked)
      (hcurrent : locked.current = some call.certificate) :
      AcceptCase store call world (synced call, locked, world.file)
  /-- Publication raised, with the file replaced or not. -/
  | uncertain (e : Exn) {locked next : TrustHead env} (h : Locked store world locked)
      (hnext : writtenHead store call world = some next) {file : Option StateFile}
      (hfile : file = world.file ∨ file = some (written store call next world.versions)) :
      AcceptCase store call world (.error e, { locked with fingerprint := none }, file)
  /-- Only the fingerprint of the published file could not be read. -/
  | unread (e : Exn) {locked next : TrustHead env} (h : Locked store world locked)
      (hnext : writtenHead store call world = some next)
      (hversion : next.fingerprint = locked.fingerprint) :
      AcceptCase store call world
        (.error e, next, some (written store call next world.versions))
  | published {next : TrustHead env} (hnext : writtenHead store call world = some next) :
      AcceptCase store call world
        (synced call, { next with fingerprint := some world.versions },
          some (written store call next world.versions))

/-- A written head has the certificate of the call, and its state can be read back. -/
structure Written (store : RecipientKeyTrustStore) (call : AcceptCall env)
    (next : TrustHead env) : Prop where
  inv : HeadInv next
  current : next.current = some call.certificate
  verified : store.verifyCertificate call.certificate = .ok ()
  member : call.certificate.keyId ∈ next.usedKeyIds

theorem written_of_writtenHead (h : WorldInv store world) {call : AcceptCall env}
    {next : TrustHead env} (hnext : writtenHead store call world = some next) :
    Written store call next := by
  unfold writtenHead at hnext
  split at hnext
  · cases hnext
  · rename_i locked hlocked
    split at hnext
    · rename_i next' htransition
      cases hnext
      obtain ⟨hverified, hcases⟩ := acceptTransition_cases htransition
      rcases hcases with ⟨hnone, -⟩ | ⟨hadvanced, hroom⟩
      · cases hnone
      · cases hadvanced
        have hinv := (lockedHead_locked h hlocked).inv
        exact ⟨hinv.advanced _ hroom, rfl, hverified, Finset.mem_insert_self _ _⟩
    · cases hnext

theorem accept_cases (h : WorldInv store world) (call : AcceptCall env) :
    AcceptCase store call world (store.accept call world.versions world.head world.file) := by
  unfold accept
  cases hlocked : store.lockedHead call world.head world.file with
  | error e => exact .blocked e
  | ok locked =>
      have hlock := lockedHead_locked h hlocked
      dsimp only
      cases htransition : store.acceptTransition locked call.certificate call.now with
      | error e => exact .refused e hlock
      | ok result =>
          obtain ⟨-, hcases⟩ := acceptTransition_cases htransition
          rcases hcases with ⟨rfl, current, hcurrent, hsame⟩ | ⟨rfl, -⟩
          · rw [← eq_of_fields hsame] at hcurrent
            exact .repeated hlock hcurrent
          · have hnext := writtenHead_eq hlocked htransition
            dsimp only
            cases call.publication with
            | failed replaced =>
                refine .uncertain _ hlock hnext ?_
                cases replaced with
                | false => exact .inl rfl
                | true => exact .inr rfl
            | published =>
                dsimp only
                cases call.restated with
                | some e => exact .unread e hlock hnext rfl
                | none => exact .published hnext

/-- The file that a call wrote holds the head that it wrote. -/
theorem headOf_written {call : AcceptCall env} {next : TrustHead env}
    (h : Written store call next) (fingerprint : Nat) :
    store.headOf (written store call next fingerprint) =
      .ok { next with fingerprint := some fingerprint } := by
  have hread := readState_stateText h.verified h.inv.hex h.inv.card h.member
  unfold headOf written
  rw [hread, ok_bind, h.current]
  rfl

/-! ## Runs -/

theorem worldInv_opened {file : Option StateFile} {head : TrustHead env} {versions : Nat}
    (hversions : ∀ f, file = some f → f.fingerprint < versions)
    (hopen : store.openState file = .ok head) : WorldInv store ⟨head, file, versions⟩ := by
  cases file with
  | none =>
      cases hopen
      refine ⟨⟨?_, Nat.zero_le _⟩, hversions, nofun, nofun⟩
      exact fun id hid => absurd hid (Finset.notMem_empty id)
  | some file =>
      obtain ⟨hinv, hversion⟩ := headOf_ok hopen
      refine ⟨hinv, hversions, ?_, ?_⟩
      · intro n hn
        change head.fingerprint = some n at hn
        rw [hversion] at hn
        cases hn
        exact hversions file rfl
      · intro file' hfile _
        cases hfile
        exact hopen

/-- What a call that read the head leaves, when the file is as it was. -/
theorem Locked.worldInv (h : WorldInv store world) {locked : TrustHead env}
    (hlocked : Locked store world locked) {versions : Nat} (hle : world.versions ≤ versions) :
    WorldInv store ⟨locked, world.file, versions⟩ where
  head := hlocked.inv
  fileVersion file hfile := Nat.lt_of_lt_of_le (h.fileVersion file hfile) hle
  headVersion n hn := Nat.lt_of_lt_of_le (hlocked.version n hn) hle
  agrees file hfile _ := hlocked.fromFile file hfile

theorem step_accept (world : TrustWorld env) (call : AcceptCall env) :
    store.step world (.accept call) =
      ⟨(store.accept call world.versions world.head world.file).2.1,
        (store.accept call world.versions world.head world.file).2.2, world.versions + 1⟩ := rfl

theorem worldInv_accept (h : WorldInv store world) (call : AcceptCall env) :
    WorldInv store (store.step world (.accept call)) := by
  have hcase := accept_cases h call
  rw [step_accept]
  generalize store.accept call world.versions world.head world.file = result at hcase ⊢
  have hle : world.versions ≤ world.versions + 1 := Nat.le_succ _
  have hfresh (next : TrustHead env) : ∀ file, some (written store call next world.versions) =
      some file → file.fingerprint < world.versions + 1 := by
    intro file hfile
    rw [← Option.some.inj hfile]
    exact Nat.lt_succ_self _
  cases hcase with
  | blocked e =>
      exact ⟨h.head, fun file hfile => Nat.lt_succ_of_lt (h.fileVersion file hfile),
        fun n hn => Nat.lt_succ_of_lt (h.headVersion n hn), h.agrees⟩
  | refused e hlocked => exact hlocked.worldInv h hle
  | repeated hlocked _ => exact hlocked.worldInv h hle
  | uncertain e hlocked hnext hfile =>
      refine ⟨⟨hlocked.inv.hex, hlocked.inv.card⟩, ?_, nofun, nofun⟩
      rcases hfile with rfl | rfl
      · exact fun file hfile => Nat.lt_succ_of_lt (h.fileVersion file hfile)
      · exact hfresh _
  | unread e hlocked hnext hversion =>
      refine ⟨(written_of_writtenHead h hnext).inv, hfresh _, ?_, ?_⟩
      · intro n hn
        change _ = some n at hn
        rw [hversion] at hn
        exact Nat.lt_succ_of_lt (hlocked.version n hn)
      · -- The head keeps the fingerprint of an older version.
        intro file hfile hsame
        rw [← Option.some.inj hfile] at hsame
        change _ = some world.versions at hsame
        rw [hversion] at hsame
        exact absurd (hlocked.version _ hsame) (Nat.lt_irrefl _)
  | published hnext =>
      have hwritten := written_of_writtenHead h hnext
      refine ⟨⟨hwritten.inv.hex, hwritten.inv.card⟩, hfresh _, ?_, ?_⟩
      · intro n hn
        rw [← Option.some.inj hn]
        exact Nat.lt_succ_self _
      · intro file hfile _
        rw [← Option.some.inj hfile]
        exact headOf_written hwritten _

theorem worldInv_refresh (h : WorldInv store world) :
    WorldInv store (store.step world .refresh) := by
  change WorldInv store ⟨store.refresh world.head world.file, world.file, world.versions⟩
  unfold refresh
  split
  · exact h
  · rename_i file hfile
    split
    · exact h
    · rename_i head hreload
      exact (reload_locked h hfile hreload).worldInv h (Nat.le_refl _)

theorem worldInv_step (h : WorldInv store world) (action : TrustStep env) :
    WorldInv store (store.step world action) := by
  cases action with
  | accept call => exact worldInv_accept h call
  | refresh => exact worldInv_refresh h
  | replaced content =>
      refine ⟨h.head, ?_, fun n hn => Nat.lt_succ_of_lt (h.headVersion n hn), ?_⟩
      · rintro file ⟨⟩
        exact Nat.lt_succ_self _
      · -- Nothing has the fingerprint of the new version yet.
        rintro file ⟨⟩ hsame
        exact absurd (h.headVersion _ hsame) (Nat.lt_irrefl _)
  | removed => exact ⟨h.head, nofun, h.headVersion, nofun⟩

theorem worldInv_of_reachable (h : store.Reachable world) : WorldInv store world := by
  induction h with
  | opened hversions hopen => exact worldInv_opened hversions hopen
  | step _ action ih => exact worldInv_step ih action

/-- What a call of `accept` owes to later readers of the file. -/
structure ReadsBack (store : RecipientKeyTrustStore) (call : AcceptCall env)
    (world : TrustWorld env) : Prop where
  /-- The text is within the limit, and reading it gives the certificate and the history that it
  was written from. -/
  text : ∀ next, writtenHead store call world = some next →
    next.current = some call.certificate ∧
      (store.stateText call.certificate next.usedKeyIds).utf8ByteSize ≤ maxStateBytes ∧
      store.readState
        (utf8Bytes (store.stateText call.certificate next.usedKeyIds).toList) =
        .ok (call.certificate, next.usedKeyIds)
  /-- The file afterwards is the one before, or such a text. -/
  file : (store.step world (.accept call)).file = world.file ∨
    ∃ next, writtenHead store call world = some next ∧
      (store.step world (.accept call)).file = some (written store call next world.versions)
  /-- A store that is opened after the call returned has its head and its history. -/
  reopened : ∀ certificate,
    (store.accept call world.versions world.head world.file).1 = .ok certificate →
      (store.step world (.accept call)).head.current = some certificate ∧
        store.openState (store.step world (.accept call)).file =
          .ok (store.step world (.accept call)).head

theorem synced_ok {call : AcceptCall env} {certificate : RecipientKeyCertificate env}
    (h : synced call = .ok certificate) : certificate = call.certificate := by
  unfold synced at h
  split at h
  · cases h
  · cases h
    rfl

/-- **Every published trust state can be read back**, in every reachable state and however the call
ends. -/
theorem published_state_reads_back (store : RecipientKeyTrustStore) (world : TrustWorld env)
    (h : store.Reachable world) (call : AcceptCall env) : ReadsBack store call world := by
  have hinv := worldInv_of_reachable h
  have hcase := accept_cases hinv call
  refine ⟨?_, ?_, ?_⟩
  · intro next hnext
    have hwritten := written_of_writtenHead hinv hnext
    exact ⟨hwritten.current,
      store.utf8ByteSize_stateText_le _ hwritten.inv.hex hwritten.inv.card,
      readState_stateText hwritten.verified hwritten.inv.hex hwritten.inv.card hwritten.member⟩
  · rw [step_accept]
    generalize store.accept call world.versions world.head world.file = result at hcase ⊢
    cases hcase with
    | blocked e => exact .inl rfl
    | refused e _ => exact .inl rfl
    | repeated _ _ => exact .inl rfl
    | uncertain e _ hnext hfile =>
        rcases hfile with rfl | rfl
        · exact .inl rfl
        · exact .inr ⟨_, hnext, rfl⟩
    | unread e _ hnext _ => exact .inr ⟨_, hnext, rfl⟩
    | published hnext => exact .inr ⟨_, hnext, rfl⟩
  · intro certificate
    rw [step_accept]
    generalize store.accept call world.versions world.head world.file = result at hcase ⊢
    intro hok
    cases hcase with
    | blocked e => cases hok
    | refused e _ => cases hok
    | repeated hlocked hcurrent =>
        rw [synced_ok hok]
        refine ⟨hcurrent, ?_⟩
        cases hfile : world.file with
        | none =>
            rw [hlocked.noFile hfile] at hcurrent
            cases hcurrent
        | some file => exact hlocked.fromFile file hfile
    | uncertain e _ _ _ => cases hok
    | unread e _ _ _ => cases hok
    | published hnext =>
        have hwritten := written_of_writtenHead hinv hnext
        rw [synced_ok hok]
        exact ⟨hwritten.current, headOf_written hwritten _⟩

end RecipientKeyTrustStore

/-! ## A first certificate -/

namespace SampleRecipient

open RecipientKeyTrustStore

/-- An Ed25519 identity key. -/
def identityKey : List UInt8 :=
  [121, 181, 86, 46, 143, 230, 84, 249, 64, 120, 177, 18, 232, 169, 139, 167,
    144, 31, 133, 58, 230, 149, 190, 215, 224, 227, 145, 11, 173, 4, 150, 100]

/-- The signature of the certificate below under that key. -/
def signature : List UInt8 :=
  [232, 126, 136, 54, 65, 252, 144, 19, 153, 122, 251, 172, 165, 105, 218, 57,
    11, 183, 248, 162, 105, 98, 110, 105, 16, 32, 252, 79, 42, 95, 197, 181,
    250, 52, 61, 50, 99, 181, 193, 45, 145, 169, 3, 235, 13, 33, 69, 113,
    227, 210, 77, 187, 48, 144, 156, 133, 79, 151, 1, 160, 113, 2, 254, 10]

def start : Instant := ⟨⟨2026, 1, 1, 0, 0, 0, 0⟩, Utc.valid_newYear2026⟩

def expiry : Instant := ⟨⟨2026, 2, 1, 0, 0, 0, 0⟩, by decide⟩

/-- The certificate of the base point of the curve. -/
def fields : CertificateFields where
  tenant := "acme"
  destinationConnector := "warehouse"
  publicKey := 9 :: List.replicate 31 0
  generation := 1
  previousKeyId := none
  issuedAt := start
  notBefore := start
  notAfter := expiry
  identityKeyId := Sha256.hexDigest identityKey
  signature := signature

def keyId : String := Sha256.hexDigest (canonicalCoordinate fields.publicKey)

theorem check_fields : fields.check keyId = .ok () := by
  have hlength : signature.length = 64 := rfl
  have hinterval : start < expiry := by decide
  have hissued : ¬expiry < start := by decide
  simp [CertificateFields.check, fields, isLowerHex_hexDigest, hlength, hinterval, hissued,
    maxGeneration]

/-- The certificate, with some check of signatures. -/
noncomputable def certificateWith (ed25519 : List UInt8 → ByteArray → List UInt8 → Bool) :
    RecipientKeyCertificate ⟨standardHost, fun _ => true, ed25519⟩ where
  toCertificateFields := fields
  keyId := keyId
  tenant_bound := by decide +kernel
  destination_bound := by decide +kernel
  named := rfl
  valid := check_fields

theorem signingBytes_certificateWith (f g : List UInt8 → ByteArray → List UInt8 → Bool) :
    (certificateWith f).signingBytes = (certificateWith g).signingBytes := rfl

/-- The signed bytes of the certificate. -/
noncomputable def payload : ByteArray := (certificateWith fun _ _ _ => false).signingBytes

/-- The library's check on that signature. -/
noncomputable def ed25519 (key : List UInt8) (message : ByteArray) (signed : List UInt8) : Bool :=
  decide (key = identityKey ∧ message = payload ∧ signed = signature)

/-- The environment of the certificate. -/
noncomputable def environment : RecipientEnvironment := ⟨standardHost, fun _ => true, ed25519⟩

noncomputable def certificate : RecipientKeyCertificate environment := certificateWith ed25519

/-- A store that pins the identity of the certificate. -/
def store : RecipientKeyTrustStore where
  identityPublicKey := identityKey
  identityKeyId := Sha256.hexDigest identityKey
  tenant := "acme"
  destinationConnector := "warehouse"
  named := rfl
  tenant_bound := by decide +kernel
  destination_bound := by decide +kernel

/-- A new store on a path without a file. -/
def world : TrustWorld environment := ⟨{}, none, 0⟩

noncomputable def call : AcceptCall environment := { certificate := certificate, now := start }

theorem reachable_world : store.Reachable world := .opened nofun rfl

theorem ed25519_payload : environment.ed25519 identityKey payload signature = true := by
  have hcheck : environment.ed25519 = ed25519 := rfl
  rw [hcheck, ed25519]
  exact decide_eq_true ⟨rfl, rfl, rfl⟩

theorem verifyCertificate_certificate : store.verifyCertificate certificate = .ok () := by
  have hbytes : certificate.signingBytes = payload := signingBytes_certificateWith _ _
  have hsigned : certificate.signature = signature := rfl
  have hidentity : certificate.identityKeyId = store.identityKeyId := rfl
  have htenant : certificate.tenant = store.tenant := rfl
  have hdestination : certificate.destinationConnector = store.destinationConnector := rfl
  have hkey : store.identityPublicKey = identityKey := rfl
  have hlength : identityKey.length = 32 := rfl
  have hlength' : signature.length = 64 := rfl
  rw [verifyCertificate, hidentity, htenant, hdestination, hbytes, hsigned, hkey]
  simp [SourceTrustStore.verifyEd25519, hlength, hlength', ed25519_payload]

theorem writtenHead_world :
    writtenHead store call world = some (advanced {} certificate) := by
  have hlocked : store.lockedHead call world.head world.file = .ok {} := rfl
  have hvalidity : verifyCurrentValidity certificate start = .ok () := by decide
  have htransition : store.acceptTransition {} call.certificate call.now =
      .ok (some (advanced {} certificate)) :=
    acceptTransition_first verifyCertificate_certificate hvalidity rfl rfl
  exact writtenHead_eq hlocked htransition

end SampleRecipient

open RecipientKeyTrustStore in
/-- The first certificate is written and can be read back. -/
theorem published_state_reads_back_sample :
    writtenHead SampleRecipient.store SampleRecipient.call SampleRecipient.world =
        some (advanced {} SampleRecipient.certificate) ∧
      ReadsBack SampleRecipient.store SampleRecipient.call SampleRecipient.world :=
  ⟨SampleRecipient.writtenHead_world,
    published_state_reads_back _ _ SampleRecipient.reachable_world _⟩

end Polymorph
