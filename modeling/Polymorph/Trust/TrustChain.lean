import Polymorph.Trust.SharedTrust

/-!
# Rotation is a monotone chain

Whatever the stores that share a path do, the published certificates are one rotation, and it only
grows. The file holds its last certificate with the key ids of all of them, and every object decides
on exactly that, however stale its head is and however ambiguously an earlier call has failed.
-/

set_option autoImplicit false

namespace Polymorph

open JsonText Utc

namespace RecipientKeyTrustStore

variable {env : RecipientEnvironment} {store : RecipientKeyTrustStore} {ι : Type}

/-! ## The effect of a call -/

/-- How a call of `accept` ends. -/
inductive AcceptEffect (store : RecipientKeyTrustStore) (call : AcceptCall env) (versions : Nat)
    (head : TrustHead env) (file : Option StateFile) :
    Except Exn (RecipientKeyCertificate env) × TrustHead env × Option StateFile → Prop
  /-- The state is not looked at, or cannot be read. -/
  | blocked (e : Exn) : AcceptEffect store call versions head file (.error e, head, file)
  /-- The certificate is refused. -/
  | refused (e : Exn) {locked : TrustHead env}
      (hlocked : store.lockedHead call head file = .ok locked) :
      AcceptEffect store call versions head file (.error e, locked, file)
  /-- The certificate is trusted already. -/
  | repeated {locked : TrustHead env} (hlocked : store.lockedHead call head file = .ok locked)
      (hcurrent : locked.current = some call.certificate) :
      AcceptEffect store call versions head file (synced call, locked, file)
  /-- Publication raised before the file was replaced. -/
  | unwritten (e : Exn) {locked : TrustHead env}
      (hlocked : store.lockedHead call head file = .ok locked) :
      AcceptEffect store call versions head file (.error e, { locked with fingerprint := none }, file)
  /-- The file was replaced, whatever the call returns. -/
  | wrote {result : Except Exn (RecipientKeyCertificate env)} {after locked next : TrustHead env}
      (hlocked : store.lockedHead call head file = .ok locked)
      (hnext : store.acceptTransition locked call.certificate call.now = .ok (some next))
      (hresult : ∀ c, result = .ok c → c = call.certificate) :
      AcceptEffect store call versions head file
        (result, after, some (written store call next versions))

theorem accept_effect (store : RecipientKeyTrustStore) (call : AcceptCall env) (versions : Nat)
    (head : TrustHead env) (file : Option StateFile) :
    AcceptEffect store call versions head file (store.accept call versions head file) := by
  unfold accept
  -- The branches of `accept` in its order: lock and reload, transition, publication, restating.
  cases hlocked : store.lockedHead call head file with
  | error e => exact .blocked e
  | ok locked =>
      dsimp only
      cases htransition : store.acceptTransition locked call.certificate call.now with
      | error e => exact .refused e hlocked
      | ok result =>
          cases result with
          | none =>
              obtain ⟨-, hcases⟩ := acceptTransition_cases htransition
              rcases hcases with ⟨-, current, hcurrent, hsame⟩ | ⟨hnext, -⟩
              · rw [← eq_of_fields hsame] at hcurrent
                exact .repeated hlocked hcurrent
              · cases hnext
          | some next =>
              dsimp only
              cases call.publication with
              | failed replaced =>
                  cases replaced with
                  | false => exact .unwritten _ hlocked
                  | true => exact .wrote hlocked htransition fun _ hc => by cases hc
              | published =>
                  dsimp only
                  cases call.restated with
                  | some e => exact .wrote hlocked htransition fun _ hc => by cases hc
                  | none => exact .wrote hlocked htransition fun c hc => synced_ok hc

/-- A call in which nothing fails. -/
theorem accept_published {call : AcceptCall env} {versions : Nat} {head locked next : TrustHead env}
    {file : Option StateFile} (hlocked : store.lockedHead call head file = .ok locked)
    (hnext : store.acceptTransition locked call.certificate call.now = .ok (some next))
    (hpublication : call.publication = .published) (hrestated : call.restated = none)
    (hsynced : call.unsynced = false) :
    store.accept call versions head file = (.ok call.certificate,
      { next with fingerprint := some versions }, some (written store call next versions)) := by
  unfold accept
  rw [hlocked]
  dsimp only
  rw [hnext]
  dsimp only
  rw [hpublication]
  dsimp only
  rw [hrestated]
  dsimp only
  unfold synced
  rw [if_neg (Bool.eq_false_iff.mp hsynced)]
  rfl

/-! ## The invariant -/

/-- What holds of the shared state between two steps. -/
structure SharedInv (store : RecipientKeyTrustStore) (w : SharedTrust ι env) : Prop where
  rotation : store.Rotation w.published
  unpublished : w.file = none → w.published = []
  /-- The file holds the last certificate and the key ids of all. -/
  stored : ∀ file, w.file = some file → ∃ last, w.published.getLast? = some last ∧
    store.readState file.content = .ok (last, keyIds w.published)
  fileVersion : ∀ file, w.file = some file → file.fingerprint < w.versions
  objects : ∀ i o, w.objects i = some o → WorldInv store ⟨o.head, w.file, w.versions⟩
  empty : w.file = none → ∀ i o, w.objects i = some o →
    o.head.current = none ∧ o.head.usedKeyIds = ∅

variable {w : SharedTrust ι env}

theorem sharedInv_initial : SharedInv store ({} : SharedTrust ι env) where
  rotation := store.rotation_nil
  unpublished _ := rfl
  stored _ hfile := by cases hfile
  fileVersion _ hfile := by cases hfile
  objects _ _ ho := by cases ho
  empty _ _ _ ho := by cases ho

/-- The head that the file holds. -/
theorem SharedInv.headOf (h : SharedInv store w) {file : StateFile} (hfile : w.file = some file) :
    store.headOf file =
      .ok ⟨w.published.getLast?, keyIds w.published, some file.fingerprint⟩ := by
  obtain ⟨last, hlast, hread⟩ := h.stored file hfile
  unfold RecipientKeyTrustStore.headOf
  rw [hread, ok_bind, hlast]
  rfl

theorem SharedInv.reload (h : SharedInv store w) {file : StateFile} (hfile : w.file = some file)
    {i : ι} {o : StoreObject env} (ho : w.objects i = some o) :
    store.reloadStateIfChanged o.head file =
      .ok ⟨w.published.getLast?, keyIds w.published, some file.fingerprint⟩ := by
  unfold reloadStateIfChanged
  split
  · rename_i hsame
    rw [← (h.objects i o ho).agrees file hfile hsame, h.headOf hfile]
  · exact h.headOf hfile

/-- Every object decides on the last certificate, with the key ids of all. -/
theorem SharedInv.decides (h : SharedInv store w) {i : ι} {o : StoreObject env}
    (ho : w.objects i = some o) {call : AcceptCall env} (hcall : call.locked = none) :
    ∃ locked, store.lockedHead call o.head w.file = .ok locked ∧
      locked.current = w.published.getLast? ∧ locked.usedKeyIds = keyIds w.published := by
  unfold lockedHead
  rw [hcall]
  dsimp only
  cases hfile : w.file with
  | none =>
      -- Without a file nothing was published, and no object has seen a certificate.
      obtain ⟨hcurrent, hused⟩ := h.empty hfile i o ho
      refine ⟨o.head, ?_, ?_, ?_⟩
      · dsimp only
        rw [hcurrent]
        rfl
      · rw [hcurrent, h.unpublished hfile]
        rfl
      · rw [hused, h.unpublished hfile]
        rfl
  | some file => exact ⟨_, h.reload hfile ho, rfl, rfl⟩

theorem SharedInv.of_lockedHead (h : SharedInv store w) {i : ι} {o : StoreObject env}
    (ho : w.objects i = some o) {call : AcceptCall env} {locked : TrustHead env}
    (hlocked : store.lockedHead call o.head w.file = .ok locked) :
    locked.current = w.published.getLast? ∧ locked.usedKeyIds = keyIds w.published := by
  -- A lock that raised yields no head.
  have hcall : call.locked = none := by
    unfold lockedHead at hlocked
    cases hraised : call.locked with
    | some e =>
        rw [hraised] at hlocked
        cases hlocked
    | none => rfl
  obtain ⟨locked', hlocked', hdecides⟩ := h.decides ho hcall
  rw [hlocked] at hlocked'
  cases hlocked'
  exact hdecides

/-- What `_refresh_current_locked` returns is the last published certificate. -/
theorem SharedInv.refreshCurrent (h : SharedInv store w) {i : ι} {o : StoreObject env}
    (ho : w.objects i = some o) {locked : Option Exn} {c : RecipientKeyCertificate env}
    (hc : store.refreshCurrent locked o.head w.file = .ok c) :
    locked = none ∧ w.published.getLast? = some c ∧
      ∃ file, w.file = some file ∧ (store.refreshedHead locked o.head w.file).fingerprint =
        some file.fingerprint := by
  unfold RecipientKeyTrustStore.refreshCurrent at hc
  cases locked with
  | some e => cases hc
  | none =>
      cases hfile : w.file with
      | none =>
          rw [hfile] at hc
          cases hc
      | some file =>
          rw [hfile] at hc
          have hreload := h.reload hfile ho
          dsimp only [pure_bind] at hc
          rw [hreload] at hc
          refine ⟨rfl, ?_, file, rfl, ?_⟩
          · cases hlast : w.published.getLast? with
            | none =>
                rw [hlast] at hc
                cases hc
            | some last =>
                rw [hlast] at hc
                cases hc
                rfl
          · unfold refreshedHead refresh
            dsimp only
            rw [hreload]

/-! ## One step -/

variable [DecidableEq ι]

theorem update_some {objects : ι → Option (StoreObject env)} {i j : ι} {o o' : StoreObject env}
    (h : Function.update objects i (some o) j = some o') :
    (j = i ∧ o' = o) ∨ objects j = some o' := by
  by_cases hij : j = i
  · rw [hij, Function.update_self] at h
    cases h
    exact .inl ⟨hij, rfl⟩
  · rw [Function.update_of_ne hij] at h
    exact .inr h

theorem WorldInv.later {head : TrustHead env} {file : Option StateFile} {versions : Nat}
    (h : WorldInv store ⟨head, file, versions⟩) : WorldInv store ⟨head, file, versions + 1⟩ :=
  ⟨h.head, fun f hf => Nat.lt_succ_of_lt (h.fileVersion f hf),
    fun n hn => Nat.lt_succ_of_lt (h.headVersion n hn), h.agrees⟩

theorem sharedInv_opened (h : SharedInv store w) (i : ι) :
    SharedInv store (store.sharedStep w (.opened i)) := by
  unfold sharedStep
  dsimp only
  split
  · exact h
  · rename_i head hopen
    refine ⟨h.rotation, h.unpublished, h.stored, h.fileVersion, ?_, ?_⟩
    · intro j o ho
      rcases update_some ho with ⟨-, rfl⟩ | ho
      · exact worldInv_opened h.fileVersion hopen
      · exact h.objects j o ho
    · intro hnone j o ho
      rcases update_some ho with ⟨-, rfl⟩ | ho
      · change w.file = none at hnone
        rw [hnone] at hopen
        cases hopen
        exact ⟨rfl, rfl⟩
      · exact h.empty hnone j o ho

theorem sharedInv_refreshed (h : SharedInv store w) (i : ι) (locked : Option Exn) :
    SharedInv store (store.sharedStep w (.refreshed i locked)) := by
  unfold sharedStep
  dsimp only
  cases hobject : w.objects i with
  | none => exact h
  | some object =>
      refine ⟨h.rotation, h.unpublished, h.stored, h.fileVersion, ?_, ?_⟩
      · intro j o ho
        rcases update_some ho with ⟨-, rfl⟩ | ho
        · cases locked with
          | some e => exact h.objects i object hobject
          | none => exact worldInv_refresh (h.objects i object hobject)
        · exact h.objects j o ho
      · intro hnone j o ho
        rcases update_some ho with ⟨-, rfl⟩ | ho
        · change w.file = none at hnone
          have hempty := h.empty hnone i object hobject
          rw [hnone]
          cases locked with
          | some e => exact hempty
          | none => exact hempty
        · exact h.empty hnone j o ho

/-- The state after a call of `accept` that left the file as it was. -/
theorem sharedStep_kept (h : SharedInv store w) {i : ι} {object : StoreObject env}
    (hobject : w.objects i = some object) {call : AcceptCall env}
    (hfile : (store.accept call w.versions object.head w.file).2.2 = w.file) :
    (store.sharedStep w (.accept i call)).published = w.published ∧
      (store.sharedStep w (.accept i call)).file = w.file := by
  -- The step counts as a publication by the version, and the one in the file is an older one.
  have hold : w.file.map StateFile.fingerprint ≠ some w.versions := by
    cases hcase : w.file with
    | none =>
        intro hnone
        cases hnone
    | some file =>
        intro hsame
        rw [Option.map_some] at hsame
        exact absurd (h.fileVersion file hcase) (Nat.not_lt.mpr (Option.some.inj hsame).ge)
  unfold sharedStep
  dsimp only
  rw [hobject]
  dsimp only
  rw [hfile, if_neg hold]
  exact ⟨rfl, rfl⟩

/-- The state after a call of `accept` that replaced the file. -/
theorem sharedStep_wrote {i : ι} {object : StoreObject env} (hobject : w.objects i = some object)
    {call : AcceptCall env} {next : TrustHead env}
    (hfile : (store.accept call w.versions object.head w.file).2.2 =
      some (written store call next w.versions)) :
    (store.sharedStep w (.accept i call)).published = w.published ++ [call.certificate] ∧
      (store.sharedStep w (.accept i call)).file = some (written store call next w.versions) := by
  unfold sharedStep
  dsimp only
  rw [hobject]
  dsimp only
  have hsame : (some (written store call next w.versions)).map StateFile.fingerprint =
      some w.versions := rfl
  rw [hfile, if_pos hsame]
  exact ⟨rfl, rfl⟩

/-- The object that a call of `accept` leaves. -/
theorem sharedStep_accept_object (store : RecipientKeyTrustStore) {i : ι}
    {object : StoreObject env} (hobject : w.objects i = some object) (call : AcceptCall env) :
    (store.sharedStep w (.accept i call)).objects i = some { object with
      head := (store.accept call w.versions object.head w.file).2.1
      revision := object.revision + store.acceptRevisions call object.head w.file } := by
  unfold sharedStep
  dsimp only
  rw [hobject]
  exact Function.update_self ..

/-- The object that a refreshing call leaves. -/
theorem sharedStep_refreshed_object (store : RecipientKeyTrustStore) {i : ι}
    {object : StoreObject env} (hobject : w.objects i = some object) (locked : Option Exn) :
    (store.sharedStep w (.refreshed i locked)).objects i =
        some (store.refreshedObject locked object w.file) ∧
      (store.sharedStep w (.refreshed i locked)).file = w.file := by
  unfold sharedStep
  dsimp only
  rw [hobject]
  exact ⟨Function.update_self .., rfl⟩

theorem sharedStep_accept_objects {i : ι} {object : StoreObject env}
    (hobject : w.objects i = some object) {call : AcceptCall env} {j : ι} {o : StoreObject env}
    (ho : (store.sharedStep w (.accept i call)).objects j = some o) :
    (j = i ∧ o.head = (store.accept call w.versions object.head w.file).2.1) ∨
      w.objects j = some o := by
  unfold sharedStep at ho
  dsimp only at ho
  rw [hobject] at ho
  rcases update_some ho with ⟨hj, rfl⟩ | ho
  · exact .inl ⟨hj, rfl⟩
  · exact .inr ho

theorem sharedStep_accept_versions (store : RecipientKeyTrustStore) {i : ι}
    {object : StoreObject env} (hobject : w.objects i = some object) (call : AcceptCall env) :
    (store.sharedStep w (.accept i call)).versions = w.versions + 1 := by
  unfold sharedStep
  dsimp only
  rw [hobject]

/-- The heads of all objects after a call fit the file that it leaves. -/
theorem worldInv_sharedStep (h : SharedInv store w) {i : ι} {object : StoreObject env}
    (hobject : w.objects i = some object) (call : AcceptCall env) {file : Option StateFile}
    (hfile : (store.accept call w.versions object.head w.file).2.2 = file)
    (hcase : file = w.file ∨ ∃ content, file = some ⟨content, w.versions⟩)
    {j : ι} {o : StoreObject env}
    (ho : (store.sharedStep w (.accept i call)).objects j = some o) :
    WorldInv store ⟨o.head, file, w.versions + 1⟩ := by
  rcases sharedStep_accept_objects hobject ho with ⟨-, hhead⟩ | ho
  · rw [hhead, ← hfile]
    exact worldInv_accept (h.objects i object hobject) call
  · -- For the other objects the file is as it was, or a version they have not seen.
    rcases hcase with rfl | ⟨content, rfl⟩
    · exact (h.objects j o ho).later
    · exact worldInv_step (h.objects j o ho) (.replaced content)

theorem sharedInv_kept (h : SharedInv store w) {i : ι} {object : StoreObject env}
    (hobject : w.objects i = some object) {call : AcceptCall env}
    (hfile : (store.accept call w.versions object.head w.file).2.2 = w.file)
    (hempty : w.file = none → (store.accept call w.versions object.head w.file).2.1.current = none ∧
      (store.accept call w.versions object.head w.file).2.1.usedKeyIds = ∅) :
    SharedInv store (store.sharedStep w (.accept i call)) := by
  obtain ⟨hpublished, hsame⟩ := sharedStep_kept h hobject hfile
  have hversions := sharedStep_accept_versions store hobject call
  refine ⟨?_, ?_, ?_, ?_, ?_, ?_⟩
  · rw [hpublished]
    exact h.rotation
  · rw [hpublished, hsame]
    exact h.unpublished
  · rw [hpublished, hsame]
    exact h.stored
  · rw [hsame, hversions]
    exact fun file hf => Nat.lt_succ_of_lt (h.fileVersion file hf)
  · intro j o ho
    rw [hsame, hversions]
    exact worldInv_sharedStep h hobject call hfile (.inl rfl) ho
  · intro hnone j o ho
    rw [hsame] at hnone
    rcases sharedStep_accept_objects hobject ho with ⟨-, hhead⟩ | ho
    · rw [hhead]
      exact hempty hnone
    · exact h.empty hnone j o ho

/-- The state that a call wrote is read back. -/
theorem readState_written {call : AcceptCall env} {next : TrustHead env}
    (h : Written store call next) (versions : Nat) :
    store.readState (written store call next versions).content =
      .ok (call.certificate, next.usedKeyIds) := by
  unfold written
  dsimp only
  exact readState_stateText h.verified h.inv.hex h.inv.card h.member

theorem sharedInv_wrote (h : SharedInv store w) {i : ι} {object : StoreObject env}
    (hobject : w.objects i = some object) {call : AcceptCall env} {locked next : TrustHead env}
    (hlocked : store.lockedHead call object.head w.file = .ok locked)
    (hnext : store.acceptTransition locked call.certificate call.now = .ok (some next))
    (hfile : (store.accept call w.versions object.head w.file).2.2 =
      some (written store call next w.versions)) :
    SharedInv store (store.sharedStep w (.accept i call)) := by
  obtain ⟨hpublished, hnew⟩ := sharedStep_wrote hobject hfile
  have hversions := sharedStep_accept_versions store hobject call
  obtain ⟨hcurrent, hused⟩ := h.of_lockedHead hobject hlocked
  obtain ⟨hadvanced, hsuccessor⟩ := successor_of_acceptTransition hnext
  have hwritten : Written store call next :=
    written_of_writtenHead (h.objects i object hobject) (writtenHead_eq hlocked hnext)
  -- The caller decided on the last certificate, so that the new one continues the rotation.
  have hids : next.usedKeyIds = keyIds (w.published ++ [call.certificate]) := by
    rw [keyIds_concat, ← hused, hadvanced]
    rfl
  have hread := readState_written hwritten w.versions
  refine ⟨?_, ?_, ?_, ?_, ?_, ?_⟩
  · rw [hpublished]
    exact h.rotation.concat hcurrent hused hsuccessor
  · rw [hnew]
    intro hnone
    cases hnone
  · rw [hpublished, hnew]
    intro file hf
    refine ⟨call.certificate, List.getLast?_concat, ?_⟩
    rw [← hids, ← Option.some.inj hf]
    exact hread
  · rw [hnew, hversions]
    intro file hf
    rw [← Option.some.inj hf]
    exact Nat.lt_succ_self _
  · intro j o ho
    rw [hnew, hversions]
    exact worldInv_sharedStep h hobject call hfile (.inr ⟨_, rfl⟩) ho
  · rw [hnew]
    intro hnone
    cases hnone

theorem sharedInv_accept (h : SharedInv store w) (i : ι) (call : AcceptCall env) :
    SharedInv store (store.sharedStep w (.accept i call)) := by
  cases hobject : w.objects i with
  | none =>
      unfold sharedStep
      dsimp only
      rw [hobject]
      exact h
  | some object =>
      have heffect := accept_effect store call w.versions object.head w.file
      have hread {locked : TrustHead env}
          (hlocked : store.lockedHead call object.head w.file = .ok locked)
          (hnone : w.file = none) : locked.current = none ∧ locked.usedKeyIds = ∅ := by
        obtain ⟨hcurrent, hused⟩ := h.of_lockedHead hobject hlocked
        rw [hcurrent, hused, h.unpublished hnone]
        exact ⟨rfl, rfl⟩
      -- Only the last effect replaces the file; the others move at most the head of the caller.
      generalize hafter : store.accept call w.versions object.head w.file = after at heffect
      cases heffect with
      | blocked e =>
          refine sharedInv_kept h hobject (by rw [hafter]) ?_
          rw [hafter]
          exact fun hnone => h.empty hnone i object hobject
      | refused e hlocked =>
          refine sharedInv_kept h hobject (by rw [hafter]) ?_
          rw [hafter]
          exact hread hlocked
      | repeated hlocked _ =>
          refine sharedInv_kept h hobject (by rw [hafter]) ?_
          rw [hafter]
          exact hread hlocked
      | unwritten e hlocked =>
          have hempty := hread hlocked
          refine sharedInv_kept h hobject (by rw [hafter]) ?_
          rw [hafter]
          exact hempty
      | wrote hlocked hnext _ => exact sharedInv_wrote h hobject hlocked hnext (by rw [hafter])

theorem sharedInv_step (h : SharedInv store w) (action : SharedStep ι env) :
    SharedInv store (store.sharedStep w action) := by
  cases action with
  | opened i => exact sharedInv_opened h i
  | accept i call => exact sharedInv_accept h i call
  | refreshed i locked => exact sharedInv_refreshed h i locked

theorem sharedInv_run (actions : List (SharedStep ι env)) :
    SharedInv store (store.sharedRun actions) := by
  induction actions using List.reverseRecOn with
  | nil => exact sharedInv_initial
  | append_singleton actions action ih =>
      rw [sharedRun_concat]
      exact sharedInv_step ih action

/-! ## Runs -/

/-- A step publishes nothing, or the certificate of a successful transition. -/
theorem sharedStep_published (h : SharedInv store w) (action : SharedStep ι env) :
    w.published <+: (store.sharedStep w action).published := by
  cases action with
  | opened i =>
      unfold sharedStep
      dsimp only
      split <;> exact List.prefix_refl _
  | refreshed i locked =>
      unfold sharedStep
      dsimp only
      split <;> exact List.prefix_refl _
  | accept i call =>
      cases hobject : w.objects i with
      | none =>
          unfold sharedStep
          dsimp only
          rw [hobject]
      | some object =>
          have heffect := accept_effect store call w.versions object.head w.file
          generalize hafter : store.accept call w.versions object.head w.file = after at heffect
          cases heffect with
          | wrote _ _ _ =>
              rw [(sharedStep_wrote hobject (by rw [hafter])).1]
              exact List.prefix_append _ _
          | _ =>
              rw [(sharedStep_kept h hobject (by rw [hafter])).1]

theorem sharedRun_published (actions more : List (SharedStep ι env)) :
    (store.sharedRun actions).published <+: (store.sharedRun (actions ++ more)).published := by
  induction more using List.reverseRecOn with
  | nil =>
      rw [List.append_nil]
  | append_singleton more action ih =>
      rw [← List.append_assoc, sharedRun_concat]
      exact ih.trans (sharedStep_published (sharedInv_run _) action)

/-- What rotation promises of a state. -/
structure MonotoneRotation (store : RecipientKeyTrustStore) (w : SharedTrust ι env) : Prop where
  rotation : store.Rotation w.published
  /-- Every object decides on the last certificate, with the key ids of all. -/
  decides : ∀ (i : ι) (o : StoreObject env) (call : AcceptCall env),
    w.objects i = some o → call.locked = none →
      ∃ locked, store.lockedHead call o.head w.file = .ok locked ∧
        locked.current = w.published.getLast? ∧ locked.usedKeyIds = keyIds w.published
  /-- `current` returns nothing but the last certificate. -/
  current : ∀ (i : ι) (o : StoreObject env) (locked : Option Exn) (now : Instant)
    (c : RecipientKeyCertificate env), w.objects i = some o →
      store.current locked now o.head w.file = .ok c → w.published.getLast? = some c
  /-- An accepted certificate is the last one. -/
  accepted : ∀ (i : ι) (o : StoreObject env) (call : AcceptCall env)
    (c : RecipientKeyCertificate env), w.objects i = some o →
      (store.accept call w.versions o.head w.file).1 = .ok c →
        c = call.certificate ∧ (store.sharedStep w (.accept i call)).published.getLast? = some c
  /-- A refused certificate leaves the file and what the objects decide on. -/
  refused : ∀ (i : ι) (o : StoreObject env) (call : AcceptCall env), w.objects i = some o →
    (∀ locked next, store.lockedHead call o.head w.file = .ok locked →
      store.acceptTransition locked call.certificate call.now ≠ .ok (some next)) →
      (store.sharedStep w (.accept i call)).file = w.file ∧
        (store.sharedStep w (.accept i call)).published = w.published

theorem SharedInv.accepted (h : SharedInv store w) {i : ι} {o : StoreObject env}
    (ho : w.objects i = some o) {call : AcceptCall env} {c : RecipientKeyCertificate env}
    (hok : (store.accept call w.versions o.head w.file).1 = .ok c) :
    c = call.certificate ∧ (store.sharedStep w (.accept i call)).published.getLast? = some c := by
  have heffect := accept_effect store call w.versions o.head w.file
  generalize hafter : store.accept call w.versions o.head w.file = after at heffect hok
  cases heffect with
  | blocked e => cases hok
  | refused e _ => cases hok
  | unwritten e _ => cases hok
  | repeated hlocked hcurrent =>
      have hc := synced_ok hok
      refine ⟨hc, ?_⟩
      rw [(sharedStep_kept h ho (by rw [hafter])).1, hc, ← hcurrent]
      exact (h.of_lockedHead ho hlocked).1.symm
  | wrote _ _ hresult =>
      have hc := hresult c hok
      refine ⟨hc, ?_⟩
      rw [(sharedStep_wrote ho (by rw [hafter])).1, hc]
      exact List.getLast?_concat

theorem SharedInv.refused (h : SharedInv store w) {i : ι} {o : StoreObject env}
    (ho : w.objects i = some o) {call : AcceptCall env}
    (hrefused : ∀ locked next, store.lockedHead call o.head w.file = .ok locked →
      store.acceptTransition locked call.certificate call.now ≠ .ok (some next)) :
    (store.sharedStep w (.accept i call)).file = w.file ∧
      (store.sharedStep w (.accept i call)).published = w.published := by
  -- The one effect that replaces the file needs a transition.
  have hfile : (store.accept call w.versions o.head w.file).2.2 = w.file := by
    have heffect := accept_effect store call w.versions o.head w.file
    generalize store.accept call w.versions o.head w.file = after at heffect
    cases heffect with
    | wrote hlocked hnext _ => exact absurd hnext (hrefused _ _ hlocked)
    | _ => rfl
  obtain ⟨hpublished, hsame⟩ := sharedStep_kept h ho hfile
  exact ⟨hsame, hpublished⟩

/-- **Rotation is a monotone chain** across processes, restarts and ambiguous failures: in every
state of every run the published certificates are one rotation on whose end all stores decide, and
they are a beginning of what is published later. -/
theorem rotation_monotone (store : RecipientKeyTrustStore) (actions more : List (SharedStep ι env)) :
    MonotoneRotation store (store.sharedRun actions) ∧
      (store.sharedRun actions).published <+: (store.sharedRun (actions ++ more)).published := by
  have hinv : SharedInv store (store.sharedRun actions) := sharedInv_run actions
  refine ⟨⟨hinv.rotation, fun i o call ho hcall => hinv.decides ho hcall, ?_,
    fun i o call c ho hok => hinv.accepted ho hok,
    fun i o call ho hrefused => hinv.refused ho hrefused⟩, sharedRun_published actions more⟩
  intro i o locked now c ho hc
  unfold RecipientKeyTrustStore.current at hc
  obtain ⟨certificate, hcertificate, hc⟩ := bind_eq_ok hc
  obtain ⟨_, -, hc⟩ := bind_eq_ok hc
  cases hc
  exact (hinv.refreshCurrent ho hcertificate).2.1

end RecipientKeyTrustStore

end Polymorph
