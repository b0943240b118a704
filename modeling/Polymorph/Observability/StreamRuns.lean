import Polymorph.Observability.EventRoundTrip

/-!
# Runs of the event stream

Whatever the writes of a call do, the file is afterwards what it was, or what it was with the whole
batch behind it. Over all calls it is therefore the lines of the events whose calls returned, and
reading it gives these events. The state that a writer has validated plays no part in it.
-/

set_option autoImplicit false

namespace Polymorph

open JsonText Utc

variable {H : Host} {loadsOther : List UInt8 → Option Json}

/-! ## Batches -/

/-- The lines of events. -/
def Encodes (H : Host) (events : List OperationalEvent) (lines : List (List UInt8)) : Prop :=
  List.Forall₂ (fun event line => encodeEvent H event = .ok line) events lines

theorem encodeBatch_ok {α : Type} {maxStreamBytes : Nat}
    {make : Nat → α → Except Exn OperationalEvent} {items : List α} {index : Nat}
    {batch out : List UInt8} {events : List OperationalEvent}
    (h : encodeBatch H maxStreamBytes make index batch items = .ok (events, out)) :
    ∃ lines, Encodes H events lines ∧ out = batch ++ lines.flatten := by
  induction items generalizing index batch events with
  | nil =>
      cases h
      exact ⟨[], .nil, (List.append_nil _).symm⟩
  | cons item items ih =>
      obtain ⟨_, h⟩ := guard_eq_ok h
      obtain ⟨event, _, h⟩ := bind_eq_ok h
      obtain ⟨line, hline, h⟩ := bind_eq_ok h
      obtain ⟨_, h⟩ := guard_eq_ok h
      obtain ⟨⟨later, after⟩, hlater, h⟩ := bind_eq_ok h
      cases h
      obtain ⟨lines, hlines, rfl⟩ := ih hlater
      exact ⟨line :: lines, .cons hline hlines, by rw [List.flatten_cons, List.append_assoc]⟩

theorem prepareBatch_ok {maxStreamBytes : Nat} {runId : String} {drawn : Drawn}
    {request : StreamRequest} {events : List OperationalEvent} {batch : List UInt8}
    (h : prepareBatch H maxStreamBytes runId drawn request = .ok (events, batch)) :
    ∃ lines, Encodes H events lines ∧ batch = lines.flatten := by
  cases request with
  | emit fields => exact encodeBatch_ok h
  | emitMany specifications => exact encodeBatch_ok h
  | appendMany events => exact encodeBatch_ok h

/-! ## Writes -/

/-- Writes that do not raise have written everything. -/
theorem writeRemaining_ok {write : Nat → OsWrite} {index : Nat} {remaining bytes out : List UInt8}
    (h : writeRemaining write index remaining bytes = (out, none)) : out = bytes ++ remaining := by
  induction hlength : remaining.length using Nat.strongRecOn generalizing index remaining bytes with
  | ind length ih =>
      rw [writeRemaining] at h
      split at h
      case isTrue hnil =>
        cases h
        rw [hnil, List.append_nil]
      case isFalse =>
        split at h
        · cases h
        case h_2 count _ =>
          split at h
          · cases h
          case isFalse hprogress =>
            have hshorter : (remaining.drop (min count remaining.length)).length < length := by
              rw [List.length_drop]
              omega
            rw [ih _ hshorter h rfl, List.append_assoc, List.take_append_drop]

/-- After the writes the file has the whole batch behind it, or what it had before. -/
theorem appendOpened_contents {faults : AppendFaults} (hrollback : faults.RollsBack)
    (batch : List UInt8) (file : StreamFile) :
    match (appendOpened faults batch file).outcome with
    | .ok () => contents (appendOpened faults batch file).file = file.bytes ++ batch
    | .error _ => contents (appendOpened faults batch file).file = file.bytes := by
  obtain ⟨htruncate, hsync⟩ := hrollback
  cases hwrites : writeRemaining faults.write 0 batch file.bytes with
  | mk written raised =>
      unfold appendOpened
      rw [hwrites]
      cases hraised : raised <|> faults.sync with
      | none =>
          have hnone : raised = none := by
            cases raised with
            | none => rfl
            | some e => cases hraised
          subst hnone
          simp only [hraised]
          exact writeRemaining_ok hwrites
      | some e =>
          simp only [hraised, htruncate, hsync]
          rfl

/-- A call that raises leaves the bytes as they were; a call that returns has put its batch behind
them, within the limit. -/
theorem appendEncodedBatch_contents {maxStreamBytes : Nat} {faults : AppendFaults}
    (hrollback : faults.RollsBack) {batch : List UInt8} {path : Option StreamFile}
    {validated : Option (Nat × Nat)} {result : AppendResult}
    (h : appendEncodedBatch H loadsOther maxStreamBytes faults batch path validated = result) :
    (result.outcome = .ok () → contents result.file = contents path ++ batch ∧
      (batch = [] ∨ (contents path ++ batch).length ≤ maxStreamBytes)) ∧
    (∀ e, result.outcome = .error e → contents result.file = contents path) := by
  have hopened : contents path = (path.getD { mtime := faults.mtime }).bytes := by
    cases path with
    | none => rfl
    | some file => rfl
  subst h
  unfold appendEncodedBatch
  split
  case isTrue hempty =>
    exact ⟨fun _ => ⟨by rw [hempty, List.append_nil], .inl hempty⟩, fun _ h => (nomatch h)⟩
  case isFalse =>
    split
    · exact ⟨(nomatch ·), fun _ _ => rfl⟩
    · exact ⟨(nomatch ·), fun _ _ => rfl⟩
    · dsimp only
      split
      · exact ⟨(nomatch ·), fun _ _ => hopened.symm⟩
      · exact ⟨(nomatch ·), fun _ _ => hopened.symm⟩
      · split
        case isTrue => exact ⟨(nomatch ·), fun _ _ => hopened.symm⟩
        case isFalse hfits =>
          have happend := appendOpened_contents hrollback batch
            (path.getD { mtime := faults.mtime })
          rw [← hopened] at happend hfits
          refine ⟨fun hok => ?_, fun e herror => ?_⟩
          · rw [hok] at happend
            exact ⟨happend, .inr (by rw [List.length_append]; exact Nat.not_lt.mp hfits)⟩
          · rw [herror] at happend
            exact happend

/-! ## Runs -/

/-- The file is the lines of the events, within the limit, and is read as these events. -/
structure StreamHolds (H : Host) (loadsOther : List UInt8 → Option Json) (maxStreamBytes : Nat)
    (events : List OperationalEvent) (file : Option StreamFile) : Prop where
  written : ∃ lines, Encodes H events lines ∧ contents file = lines.flatten
  bounded : (contents file).length ≤ maxStreamBytes
  read : ∃ found, readStream H loadsOther maxStreamBytes file = .ok found ∧
    List.Forall₂ SameEvent events found

/-- The lines of events are read as the events. -/
theorem iterHandle_encodes (hfloats : H.WritesFloats) {events : List OperationalEvent}
    {lines : List (List UInt8)} (h : Encodes H events lines) :
    ∃ found, iterHandle H loadsOther lines.flatten = .ok found ∧
      List.Forall₂ SameEvent events found := by
  have hlines : ∃ found, List.Forall₂ (fun line event => Bytes.IsLine maxEventBytes line ∧
      ∀ number, readLine H loadsOther number line = .ok event) lines found ∧
      List.Forall₂ SameEvent events found := by
    induction h with
    | nil => exact ⟨[], .nil, .nil⟩
    | cons hline _ ih =>
        obtain ⟨found, hread, hsame⟩ := ih
        obtain ⟨event, hevent, hisLine, hreadLine⟩ := encodeEvent_ok hfloats hline loadsOther
        exact ⟨event :: found, .cons ⟨hisLine, hreadLine⟩ hread, .cons hevent hsame⟩
  obtain ⟨found, hread, hsame⟩ := hlines
  exact ⟨found, Bytes.forLines_flatten _ _ hread 0, hsame⟩

theorem streamHolds_of_written (hfloats : H.WritesFloats) {maxStreamBytes : Nat}
    {events : List OperationalEvent} {lines : List (List UInt8)} {file : Option StreamFile}
    (hlines : Encodes H events lines) (hfile : contents file = lines.flatten)
    (hbounded : (contents file).length ≤ maxStreamBytes) :
    StreamHolds H loadsOther maxStreamBytes events file := by
  refine ⟨⟨lines, hlines, hfile⟩, hbounded, ?_⟩
  obtain ⟨found, hfound, hsame⟩ := @iterHandle_encodes H loadsOther hfloats _ _ hlines
  refine ⟨found, ?_, hsame⟩
  cases file with
  | none =>
      rw [← hfile] at hfound
      rw [iterHandle, contents, Bytes.forLines] at hfound
      exact hfound
  | some file =>
      have hfits : ¬file.bytes.length > maxStreamBytes := Nat.not_lt.mpr hbounded
      rw [readStream, if_neg hfits]
      exact (congrArg _ hfile).trans hfound

/-- A call keeps the stream, with its events behind the others when it returns. -/
theorem performCall_holds (hfloats : H.WritesFloats) {streams : EventStreams} {s : StreamSystem}
    {events : List OperationalEvent} {call : StreamCall} (hrollback : call.faults.RollsBack)
    (hs : StreamHolds H loadsOther streams.maxStreamBytes events s.file) :
    (∀ added, (performCall H loadsOther streams s call).2 = .ok added →
      StreamHolds H loadsOther streams.maxStreamBytes (events ++ added)
        (performCall H loadsOther streams s call).1.file) ∧
    (∀ e, (performCall H loadsOther streams s call).2 = .error e →
      contents (performCall H loadsOther streams s call).1.file = contents s.file) := by
  unfold performCall
  cases hbatch : prepareBatch H streams.maxStreamBytes (streams.runId call.writer) call.drawn
      call.request with
  | error e => exact ⟨fun _ h => (nomatch h), fun _ _ => rfl⟩
  | ok prepared =>
      obtain ⟨added, batch⟩ := prepared
      obtain ⟨addedLines, hadded, rfl⟩ := prepareBatch_ok hbatch
      obtain ⟨lines, hlines, hfile⟩ := hs.written
      obtain ⟨hok, herror⟩ := @appendEncodedBatch_contents H loadsOther streams.maxStreamBytes
        call.faults hrollback addedLines.flatten s.file (s.validated call.writer) _ rfl
      dsimp only
      refine ⟨fun found hfound => ?_, fun e he => ?_⟩
      · cases houtcome : (appendEncodedBatch H loadsOther streams.maxStreamBytes call.faults
            addedLines.flatten s.file (s.validated call.writer)).outcome with
        | error e =>
            rw [houtcome] at hfound
            cases hfound
        | ok =>
            rw [houtcome] at hfound
            cases hfound
            obtain ⟨hcontents, hfits⟩ := hok houtcome
            refine streamHolds_of_written hfloats (List.rel_append hlines hadded) ?_ ?_
            · rw [hcontents, hfile, List.flatten_append]
            · rw [hcontents]
              cases hfits with
              | inl hempty =>
                  rw [hempty, List.append_nil]
                  exact hs.bounded
              | inr hfits => exact hfits
      · cases houtcome : (appendEncodedBatch H loadsOther streams.maxStreamBytes call.faults
            addedLines.flatten s.file (s.validated call.writer)).outcome with
        | error e' => exact herror e' houtcome
        | ok =>
            rw [houtcome] at he
            cases he

def sampleStreams : EventStreams where
  maxStreamBytes := minEventStreamBytes
  runId := fun _ => "0123456789abcdef0123456789abcdef"
  validLimit := by decide
  validRuns := fun _ => rfl

def sampleCall (write : Nat → OsWrite) : StreamCall where
  writer := 0
  request := .emit
    { component := "workflow_benchmark"
      eventType := "batch_completed"
      status := "passed"
      itemCount := .int 2 }
  drawn :=
    { eventId := fun _ => "0123456789abcdef0123456789abcdef"
      correlationId := fun _ => "fedcba9876543210fedcba9876543210"
      clock := fun _ => .aware ⟨⟨2024, 5, 6, 7, 8, 9, 0⟩, by decide⟩ }
  faults :=
    { write := write
      mtime := 1 }

/-- One event is written in two parts, the next one fails after a part of it. -/
def sampleCalls : List StreamCall :=
  [sampleCall fun _ => .wrote 200,
    sampleCall fun index => if index = 0 then .wrote 7 else .raised (.other "ENOSPC")]

end Polymorph
