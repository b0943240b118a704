import Mathlib.Data.List.TakeWhile
import Polymorph.Control.Outcome
import Polymorph.Inspection.Gzip

/-!
# Gzip admission is bounded

Between the turns, the input read so far is a sequence of complete members and padding, followed by
what the open member has taken. Each call of the decompressor takes input, returns output below the
limit, or leaves the loop, so that the scan ends; and input that is admitted consists of members
within all limits.
-/

set_option autoImplicit false

namespace Polymorph

namespace ContentInspector

open Loop

variable {D R : Type} {zlib : Zlib D} {arithmetic : RatioArithmetic R} {policy : FileTrustPolicy R}

/-! ## Members -/

/-- A new decompressor was fed these bytes in some calls, returned this output, and is now `d`. -/
inductive Fed (zlib : Zlib D) : List UInt8 → List UInt8 → D → Prop
  | first {used rest output : List UInt8} {d : D}
      (hcall : zlib.decompress zlib.decompressobj (used ++ rest) gzipStreamChunkBytes =
        some (d, output))
      (hrest : zlib.remainder d = rest) : Fed zlib used output d
  | next {taken output used rest more : List UInt8} {d d' : D} (hbefore : Fed zlib taken output d)
      (hopen : zlib.eof d = false)
      (hcall : zlib.decompress d (used ++ rest) gzipStreamChunkBytes = some (d', more))
      (hrest : zlib.remainder d' = rest) : Fed zlib (taken ++ used) (output ++ more) d'

/-- The bytes of a member and what they decompress to. -/
structure GzipMember where
  bytes : List UInt8
  output : List UInt8

/-- The decompressor reports the end of the member at the end of its bytes. -/
def GzipMember.Complete (zlib : Zlib D) (m : GzipMember) : Prop :=
  ∃ d, Fed zlib m.bytes m.output d ∧ zlib.eof d = true

/-- Bytes that are a sequence of complete members, separated and followed only by zero bytes. -/
inductive GzipMembers (zlib : Zlib D) : List UInt8 → List GzipMember → Prop
  | nil : GzipMembers zlib [] []
  | member {bytes : List UInt8} {members : List GzipMember} {m : GzipMember}
      (hbefore : GzipMembers zlib bytes members) (hm : m.Complete zlib) :
      GzipMembers zlib (bytes ++ m.bytes) (members ++ [m])
  | padding {bytes : List UInt8} {members : List GzipMember}
      (hbefore : GzipMembers zlib bytes members) (hmembers : members ≠ []) :
      GzipMembers zlib (bytes ++ [0]) members

def outputSize (members : List GzipMember) : Nat := (members.map fun m => m.output.length).sum

def inputSize (members : List GzipMember) : Nat := (members.map fun m => m.bytes.length).sum

theorem outputSize_append (members : List GzipMember) (m : GzipMember) :
    outputSize (members ++ [m]) = outputSize members + m.output.length := by
  simp [outputSize]

theorem inputSize_append (members : List GzipMember) (m : GzipMember) :
    inputSize (members ++ [m]) = inputSize members + m.bytes.length := by
  simp [inputSize]

theorem GzipMembers.zeros {bytes : List UInt8} {members : List GzipMember}
    (h : GzipMembers zlib bytes members) (hmembers : members ≠ []) {zeros : List UInt8}
    (hzeros : ∀ b ∈ zeros, b = 0) : GzipMembers zlib (bytes ++ zeros) members := by
  induction zeros generalizing bytes with
  | nil => rwa [List.append_nil]
  | cons b zeros ih =>
      have hb : b = 0 := hzeros b List.mem_cons_self
      have hnext := ih (h.padding hmembers) fun c hc => hzeros c (List.mem_cons_of_mem b hc)
      rwa [List.append_assoc, ← hb] at hnext

/-! ## Reads -/

/-! ## The loop -/

/-- A member within the limits of the policy. -/
def Admitted (arithmetic : RatioArithmetic R) (policy : FileTrustPolicy R) (m : GzipMember) : Prop :=
  m.output.length ≤ policy.maxArchiveMemberBytes ∧
    highRatio arithmetic policy m.output.length m.bytes.length = false

/-- The decompressor of the open member: a new one, or one that was fed and has not ended. -/
def Feeding (zlib : Zlib D) (taken output : List UInt8) (d : D) : Prop :=
  (d = zlib.decompressobj ∧ taken = [] ∧ output = []) ∨
    (Fed zlib taken output d ∧ zlib.eof d = false)

theorem Feeding.call {taken output used rest more : List UInt8} {d d' : D}
    (h : Feeding zlib taken output d)
    (hcall : zlib.decompress d (used ++ rest) gzipStreamChunkBytes = some (d', more))
    (hrest : zlib.remainder d' = rest) : Fed zlib (taken ++ used) (output ++ more) d' := by
  rcases h with ⟨rfl, rfl, rfl⟩ | ⟨hfed, hopen⟩
  · exact .first hcall hrest
  · exact .next hfed hopen hcall hrest

/-- What the counters count, with the complete members and what the open one took and returned. -/
structure Counters (arithmetic : RatioArithmetic R) (policy : FileTrustPolicy R)
    (members : List GzipMember) (taken output : List UInt8) (s : GzipScan D) : Prop where
  completed : s.completedMembers = members.length
  count : members.length ≤ policy.maxArchiveEntries
  admitted : ∀ m ∈ members, Admitted arithmetic policy m
  totalOutput : s.totalOutput = outputSize members + output.length
  totalInput : s.totalCompressedInput = inputSize members + taken.length

/-- What holds between the turns, for the members and the padding before an offset and the open
member behind it. -/
structure Scanning (zlib : Zlib D) (arithmetic : RatioArithmetic R) (policy : FileTrustPolicy R)
    (input before : List UInt8) (members : List GzipMember) (taken output : List UInt8)
    (s : GzipScan D) : Prop where
  layout : GzipMembers zlib before members
  input : input = before ++ (taken ++ (s.pending ++ s.stream.contents))
  counters : Counters arithmetic policy members taken output s
  closed : s.decompressor = none → taken = [] ∧ output = []
  opened : ∀ d, s.decompressor = some d → Feeding zlib taken output d ∧
    s.memberOutput = output.length ∧ s.memberInput = taken.length ∧
    members.length < policy.maxArchiveEntries
  memberLimit : s.memberOutput ≤ policy.maxArchiveMemberBytes
  totalLimit : s.totalOutput ≤ policy.maxArchiveUncompressedBytes

/-- The input that no decompressor has taken. -/
def unread (s : GzipScan D) : Nat := s.pending.length + s.stream.contents.length

/-- What a conforming decompressor cannot use up for ever. -/
def gzipMeasure (policy : FileTrustPolicy R) (s : GzipScan D) : Nat :=
  unread s + (policy.maxArchiveUncompressedBytes - s.totalOutput) +
    (policy.maxArchiveEntries - s.completedMembers)

/-- The loop is left by `break` behind members that use up the input. -/
def Finished (zlib : Zlib D) (arithmetic : RatioArithmetic R) (policy : FileTrustPolicy R)
    (input : List UInt8) (s : GzipScan D) : Prop :=
  ∃ members, GzipMembers zlib input members ∧ Counters arithmetic policy members [] [] s ∧
    s.totalOutput ≤ policy.maxArchiveUncompressedBytes

/-- An exit that does not admit the input, or one behind members that use it up. -/
def Decided (zlib : Zlib D) (arithmetic : RatioArithmetic R) (policy : FileTrustPolicy R)
    (input : List UInt8) : GzipExit D → Prop
  | .finished s => Finished zlib arithmetic policy input s
  | .raised _ => True
  | .limited risks => risks ≠ []

section Open

variable {input before : List UInt8} {members : List GzipMember} {s : GzipScan D}

theorem readGzip_outcome (stream : ByteStream) :
    Outcome (Decided zlib arithmetic policy input) (fun result => stream.read = .ok result)
      (readGzip stream) := by
  rw [readGzip]
  split
  · assumption
  · trivial

theorem refill_outcome (pending : List UInt8) (stream : ByteStream) :
    Outcome (Decided zlib arithmetic policy input)
      (fun result => pending ++ stream.contents = result.1 ++ result.2.contents ∧
        (result.1 = [] → result.2.contents = []))
      (refill pending stream) := by
  rw [refill]
  refine .ite ?_ ?_
  · rintro rfl
    refine (readGzip_outcome stream).mono ?_
    rintro ⟨bytes, rest⟩ hread
    refine ⟨ByteStream.contents_read hread, ?_⟩
    rintro rfl
    rw [(ByteStream.contents_eq_nil hread).2]
    rfl
  · exact fun hpending => ⟨rfl, fun hnil => absurd hnil hpending⟩

theorem takeWhile_zero (pending : List UInt8) : ∀ b ∈ pending.takeWhile (· = 0), b = 0 := by
  intro b hb
  simpa using List.mem_takeWhile_imp hb

/-- What reads of padding have done: they went over zeros. -/
def SkippedTo (pending : List UInt8) (stream : ByteStream) (result : List UInt8 × ByteStream) :
    Prop :=
  ∃ zeros, (∀ b ∈ zeros, b = 0) ∧
    pending ++ stream.contents = zeros ++ (result.1 ++ result.2.contents) ∧
    (result.1 = [] → result.2.contents = [])

/-- One read of padding, when the reads after it skip padding. -/
theorem skipPadding_step {pending : List UInt8} {stream : ByteStream}
    (hend : pending = [] → stream.contents = [])
    (hlater : ∀ first others rest, stream = .chunk first others rest →
      Outcome (Decided zlib arithmetic policy input) (SkippedTo (first :: others) rest)
        (skipPadding (first :: others) rest)) :
    Outcome (Decided zlib arithmetic policy input) (SkippedTo pending stream)
      (skipPadding pending stream) := by
  have hsplit := List.takeWhile_append_dropWhile (p := (· = (0 : UInt8))) (l := pending)
  rw [skipPadding.eq_def]
  refine .ite ?_ ?_
  · intro hpending
    exact ⟨[], nofun, by rw [hpending]; rfl, fun _ => hend hpending⟩
  · intro _
    split
    · rename_i hdrop
      rw [hdrop] at hsplit
      exact ⟨_, takeWhile_zero pending, by rw [← List.append_assoc, hsplit], nofun⟩
    · rename_i hdrop
      rw [hdrop, List.append_nil] at hsplit
      have hzeros : ∀ b ∈ pending, b = 0 := hsplit ▸ takeWhile_zero pending
      cases stream with
      | done => exact ⟨pending, hzeros, rfl, fun _ => rfl⟩
      | failed => trivial
      | chunk first others rest =>
          refine (hlater first others rest rfl).mono ?_
          rintro result ⟨zeros, hall, heq, hnil⟩
          refine ⟨pending ++ zeros, ?_, ?_, hnil⟩
          · intro b hb
            rcases List.mem_append.mp hb with hb | hb
            · exact hzeros b hb
            · exact hall b hb
          · rw [ByteStream.contents, heq, List.append_assoc]

theorem skipPadding_outcome (stream : ByteStream) {pending : List UInt8}
    (hend : pending = [] → stream.contents = []) :
    Outcome (Decided zlib arithmetic policy input) (SkippedTo pending stream)
      (skipPadding pending stream) := by
  induction stream generalizing pending with
  | done => exact skipPadding_step hend nofun
  | failed => exact skipPadding_step hend nofun
  | chunk first others rest ih =>
      refine skipPadding_step hend ?_
      rintro first' others' rest' ⟨⟩
      exact ih nofun

theorem readMagic_outcome (stream : ByteStream) (pending : List UInt8) :
    Outcome (Decided zlib arithmetic policy input) (fun _ => True) (readMagic pending stream) := by
  induction stream generalizing pending with
  | done =>
      rw [readMagic]
      exact .ite (fun _ => trivial) fun _ => trivial
  | failed =>
      rw [readMagic]
      exact .ite (fun _ => trivial) fun _ => trivial
  | chunk first others rest ih =>
      rw [readMagic]
      exact .ite (fun _ => trivial) fun _ => ih _

theorem decided_excessMember (policy : FileTrustPolicy R) (pending : List UInt8) :
    Decided zlib arithmetic policy input (excessMember policy pending : GzipExit D) := by
  rw [excessMember]
  split
  · exact List.cons_ne_nil _ _
  · trivial

/-- The state of a turn, with at most as much unread as at its start and the same counters. -/
structure Within (s s' : GzipScan D) : Prop where
  unread : unread s' ≤ unread s
  totalOutput : s'.totalOutput = s.totalOutput
  completed : s'.completedMembers = s.completedMembers

/-- What follows the padding: a new member, with nothing taken. -/
theorem startMember_outcome
    (h : Scanning zlib arithmetic policy input before members [] [] s)
    (hend : s.pending = [] → s.stream.contents = []) :
    Outcome (Decided zlib arithmetic policy input)
      (fun s' => Scanning zlib arithmetic policy input before members [] [] s' ∧
        s'.decompressor = some zlib.decompressobj ∧ Within s s')
      (startMember zlib policy s) := by
  rw [startMember]
  refine .guard ?_ ?_
  · -- the input is used up
    intro hpending
    refine ⟨members, ?_, h.counters, h.totalLimit⟩
    have hinput := h.input
    rw [hend hpending, hpending] at hinput
    simpa [hinput] using h.layout
  · intro _
    refine .ite ?_ ?_
    · intro _
      refine (readMagic_outcome s.stream s.pending).bind ?_
      exact fun magic _ => decided_excessMember policy magic
    · intro hentries
      have hcompleted := h.counters.completed
      have hcount : members.length < policy.maxArchiveEntries := by
        rw [← hcompleted]
        exact Nat.not_le.mp hentries
      refine ⟨?_, rfl, Nat.le_refl _, rfl, rfl⟩
      exact {
        layout := h.layout
        input := h.input
        counters := ⟨hcompleted, h.counters.count, h.counters.admitted, h.counters.totalOutput,
          h.counters.totalInput⟩
        closed := fun hnone => nomatch hnone
        opened := by
          rintro d ⟨⟩
          exact ⟨.inl ⟨rfl, rfl, rfl⟩, rfl, rfl, hcount⟩
        memberLimit := Nat.zero_le _
        totalLimit := h.totalLimit }

/-- Reads and padding between two members, which belongs to the members before it. -/
theorem Scanning.skip (h : Scanning zlib arithmetic policy input before members [] [] s)
    {pending pending' : List UInt8} {stream stream' : ByteStream}
    (hread : s.pending ++ s.stream.contents = pending ++ stream.contents)
    {zeros : List UInt8} (hzeros : ∀ b ∈ zeros, b = 0) (hmembers : zeros ≠ [] → members ≠ [])
    (heq : pending ++ stream.contents = zeros ++ (pending' ++ stream'.contents))
    (hclosed : s.decompressor = none) :
    Scanning zlib arithmetic policy input (before ++ zeros) members [] []
        { s with pending := pending', stream := stream' } ∧
      Within s { s with pending := pending', stream := stream' } := by
  have hlayout : GzipMembers zlib (before ++ zeros) members := by
    by_cases hnil : zeros = []
    · rw [hnil, List.append_nil]
      exact h.layout
    · exact h.layout.zeros (hmembers hnil) hzeros
  refine ⟨⟨hlayout, ?_, ?_, fun _ => ⟨rfl, rfl⟩, ?_, h.memberLimit, h.totalLimit⟩, ?_, rfl, rfl⟩
  · rw [h.input, hread, heq, List.append_assoc, List.nil_append, List.nil_append]
  · exact ⟨h.counters.completed, h.counters.count, h.counters.admitted, h.counters.totalOutput,
      h.counters.totalInput⟩
  · intro d hd
    exact nomatch hclosed.symm.trans hd
  · have hlength := congrArg List.length (hread.trans heq)
    simp only [List.length_append] at hlength
    change pending'.length + stream'.contents.length ≤ s.pending.length + s.stream.contents.length
    omega

theorem openMember_outcome (h : Scanning zlib arithmetic policy input before members [] [] s)
    (hclosed : s.decompressor = none) :
    Outcome (Decided zlib arithmetic policy input)
      (fun s' => (∃ before', Scanning zlib arithmetic policy input before' members [] [] s') ∧
        s'.decompressor = some zlib.decompressobj ∧ Within s s')
      (openMember zlib policy s) := by
  rw [openMember]
  refine (refill_outcome s.pending s.stream).bind ?_
  rintro ⟨pending, stream⟩ ⟨hread, hend⟩
  have hskip : Outcome (Decided zlib arithmetic policy input)
      (fun result => SkippedTo pending stream result ∧
        (members = [] → result = (pending, stream)))
      (skipBetween s.completedMembers pending stream) := by
    rw [skipBetween, h.counters.completed]
    refine .ite ?_ ?_
    · intro hcompleted
      refine (skipPadding_outcome stream hend).mono fun result hresult => ⟨hresult, ?_⟩
      rintro rfl
      exact absurd rfl hcompleted
    · exact fun _ => ⟨⟨[], nofun, rfl, hend⟩, fun _ => rfl⟩
  refine hskip.bind ?_
  rintro ⟨pending', stream'⟩ ⟨⟨zeros, hzeros, heq, hnil⟩, hsame⟩
  have hmembers : zeros ≠ [] → members ≠ [] := by
    intro hne hmembers
    cases hsame hmembers
    exact hne (List.self_eq_append_left.mp heq)
  obtain ⟨hscan, hwithin⟩ := h.skip hread hzeros hmembers heq hclosed
  refine (startMember_outcome hscan hnil).mono ?_
  rintro s' ⟨hs', hopened, hunread, htotal, hcompleted⟩
  exact ⟨⟨_, hs'⟩, hopened, Nat.le_trans hunread hwithin.unread,
    htotal.trans hwithin.totalOutput, hcompleted.trans hwithin.completed⟩

end Open

section Call

variable {input before taken output : List UInt8} {members : List GzipMember} {s : GzipScan D}

/-- With the decompressor of the turn. -/
theorem withMember_outcome (h : Scanning zlib arithmetic policy input before members taken output s) :
    Outcome (Decided zlib arithmetic policy input)
      (fun s' => (∃ before' taken' output',
          Scanning zlib arithmetic policy input before' members taken' output' s') ∧
        (∃ d, s'.decompressor = some d) ∧ Within s s')
      (withMember zlib policy s) := by
  rw [withMember]
  split
  · rename_i d hd
    exact ⟨⟨before, taken, output, h⟩, ⟨d, hd⟩, Nat.le_refl _, rfl, rfl⟩
  · rename_i hclosed
    obtain ⟨rfl, rfl⟩ := h.closed hclosed
    refine (openMember_outcome h hclosed).mono ?_
    rintro s' ⟨⟨before', hs'⟩, hopened, hwithin⟩
    exact ⟨⟨before', [], [], hs'⟩, ⟨_, hopened⟩, hwithin⟩

/-- What holds after a call, from the state at the start of the turn. -/
structure Called (zlib : Zlib D) (arithmetic : RatioArithmetic R) (policy : FileTrustPolicy R)
    (input before : List UInt8) (members : List GzipMember) (taken output : List UInt8)
    (s : GzipScan D) (call : GzipCall D) : Prop where
  layout : GzipMembers zlib before members
  input : input = before ++ (taken ++ (call.state.pending ++ call.state.stream.contents))
  counters : Counters arithmetic policy members taken output call.state
  count : members.length < policy.maxArchiveEntries
  decompressor : call.state.decompressor = some call.decompressor
  fed : Fed zlib taken output call.decompressor
  memberOutput : call.state.memberOutput = output.length
  memberInput : call.state.memberInput = taken.length
  /-- The output exceeds the limits by at most one chunk. -/
  memberLimit : call.state.memberOutput ≤ policy.maxArchiveMemberBytes + gzipStreamChunkBytes
  totalLimit : call.state.totalOutput ≤
    policy.maxArchiveUncompressedBytes + gzipStreamChunkBytes
  progress : unread call.state + call.consumed ≤ unread s
  produced : call.state.totalOutput = s.totalOutput + call.output.length
  completed : call.state.completedMembers = s.completedMembers

theorem feedDecompressor_outcome (hzlib : zlib.Conforms) {d : D}
    (h : Scanning zlib arithmetic policy input before members taken output s)
    (hd : s.decompressor = some d) :
    Outcome (Decided zlib arithmetic policy input)
      (fun call => ∃ taken' output',
        Called zlib arithmetic policy input before members taken' output' s call)
      (feedDecompressor zlib d s) := by
  obtain ⟨hfeeding, hmemberOutput, hmemberInput, hcount⟩ := h.opened d hd
  rw [feedDecompressor]
  split
  · trivial
  · rename_i d' more hcall
    obtain ⟨used, hused⟩ := hzlib.input _ _ _ _ _ hcall
    have hlength := hzlib.output _ _ _ _ _ hcall
    have hconsumed : s.pending.length - (zlib.remainder d').length = used.length := by
      rw [← hused, List.length_append, Nat.add_sub_cancel]
    rw [← hused] at hcall
    refine ⟨taken ++ used, output ++ more, ?_⟩
    exact {
      layout := h.layout
      input := by
        have hinput := h.input
        rw [← hused] at hinput
        simpa only [List.append_assoc] using hinput
      counters := by
        refine ⟨h.counters.completed, h.counters.count, h.counters.admitted, ?_, ?_⟩
        · change s.totalOutput + more.length = _
          rw [h.counters.totalOutput, List.length_append, Nat.add_assoc]
        · change s.totalCompressedInput + (s.pending.length - _) = _
          rw [hconsumed, h.counters.totalInput, List.length_append, Nat.add_assoc]
      count := hcount
      decompressor := rfl
      fed := hfeeding.call hcall rfl
      memberOutput := by
        change s.memberOutput + more.length = _
        rw [hmemberOutput, List.length_append]
      memberInput := by
        change s.memberInput + (s.pending.length - _) = _
        rw [hconsumed, hmemberInput, List.length_append]
      memberLimit := Nat.add_le_add h.memberLimit hlength
      totalLimit := Nat.add_le_add h.totalLimit hlength
      progress := by
        change (zlib.remainder d').length + s.stream.contents.length + (s.pending.length - _) ≤
          s.pending.length + s.stream.contents.length
        have hle := congrArg List.length hused
        rw [List.length_append] at hle
        omega
      produced := rfl
      completed := rfl }

/-- The first part of a turn. -/
theorem callDecompressor_outcome (hzlib : zlib.Conforms)
    (h : Scanning zlib arithmetic policy input before members taken output s) :
    Outcome (Decided zlib arithmetic policy input)
      (fun call => ∃ before' taken' output',
        Called zlib arithmetic policy input before' members taken' output' s call)
      (callDecompressor zlib policy s) := by
  rw [callDecompressor]
  refine (withMember_outcome h).bind ?_
  rintro s' ⟨⟨before', taken', output', hs'⟩, ⟨d, hd⟩, hwithin⟩
  refine (refill_outcome s'.pending s'.stream).bind ?_
  rintro ⟨pending, stream⟩ ⟨hread, -⟩
  refine .guard (fun _ => trivial) fun _ => ?_
  have hrefilled : Scanning zlib arithmetic policy input before' members taken' output'
      { s' with pending := pending, stream := stream } := {
    layout := hs'.layout
    input := by
      have hinput := hs'.input
      rwa [hread] at hinput
    counters := ⟨hs'.counters.completed, hs'.counters.count, hs'.counters.admitted,
      hs'.counters.totalOutput, hs'.counters.totalInput⟩
    closed := hs'.closed
    opened := hs'.opened
    memberLimit := hs'.memberLimit
    totalLimit := hs'.totalLimit }
  rw [hd, Option.getD_some]
  refine (feedDecompressor_outcome hzlib hrefilled hd).mono ?_
  rintro call ⟨taken'', output'', hcall⟩
  refine ⟨before', taken'', output'', ?_⟩
  have hunread : unread { s' with pending := pending, stream := stream } = unread s' := by
    change pending.length + stream.contents.length = s'.pending.length + s'.stream.contents.length
    rw [← List.length_append, ← List.length_append, hread]
  exact { hcall with
    progress := Nat.le_trans hcall.progress (hunread ▸ hwithin.unread)
    produced := hcall.produced.trans (hwithin.totalOutput ▸ rfl)
    completed := hcall.completed.trans hwithin.completed }

theorem outputRisks_eq_nil {policy : FileTrustPolicy R} {s : GzipScan D}
    (h : outputRisks policy s = []) : s.memberOutput ≤ policy.maxArchiveMemberBytes ∧
      s.totalOutput ≤ policy.maxArchiveUncompressedBytes := by
  rw [outputRisks, List.append_eq_nil_iff] at h
  obtain ⟨hmember, htotal⟩ := h
  constructor
  · split at hmember
    · exact nomatch hmember
    · exact Nat.not_lt.mp ‹_›
  · split at htotal
    · exact nomatch htotal
    · exact Nat.not_lt.mp ‹_›

/-- The second part of a turn leaves the loop, or it keeps the invariant and lowers the measure: a
member ended, input was taken, or output was returned. -/
theorem judgeCall_spec {call : GzipCall D}
    (h : Called zlib arithmetic policy input before members taken output s call) :
    (∃ exit, judgeCall zlib arithmetic policy call = .leave exit ∧
      Decided zlib arithmetic policy input exit) ∨
    ∃ s' before' members' taken' output', judgeCall zlib arithmetic policy call = .again s' ∧
      Scanning zlib arithmetic policy input before' members' taken' output' s' ∧
      gzipMeasure policy s' < gzipMeasure policy s := by
  have hprogress := h.progress
  have hproduced := h.produced
  have hcompleted := h.completed
  have hcount := h.counters.completed ▸ h.count
  rw [judgeCall]
  dsimp only
  split
  · exact .inl ⟨_, rfl, ‹_›⟩
  · rename_i hrisks
    obtain ⟨hmember, htotal⟩ := outputRisks_eq_nil (of_not_not hrisks)
    split
    · rename_i heof
      split
      · exact .inl ⟨_, rfl, List.cons_ne_nil _ _⟩
      · -- the member is complete
        rename_i hratio
        have hratio := eq_false_of_ne_true hratio
        rw [h.memberOutput, h.memberInput] at hratio
        rw [h.memberOutput] at hmember
        refine .inr ⟨_, before ++ taken, members ++ [⟨taken, output⟩], [], [], rfl, ?_, ?_⟩
        · exact {
            layout := @GzipMembers.member _ _ _ _ ⟨taken, output⟩ h.layout ⟨_, h.fed, heof⟩
            input := by
              have hinput := h.input
              rwa [← List.append_assoc] at hinput
            counters := {
              completed := by
                change call.state.completedMembers + 1 = _
                rw [h.counters.completed, List.length_append]
                rfl
              count := by
                rw [List.length_append]
                exact h.count
              admitted := by
                intro m hm
                rcases List.mem_append.mp hm with hm | hm
                · exact h.counters.admitted m hm
                · rw [List.mem_singleton.mp hm]
                  exact ⟨hmember, hratio⟩
              totalOutput := by
                rw [outputSize_append]
                exact h.counters.totalOutput
              totalInput := by
                rw [inputSize_append]
                exact h.counters.totalInput }
            closed := fun _ => ⟨rfl, rfl⟩
            opened := fun _ hd => nomatch hd
            memberLimit := h.memberOutput ▸ hmember
            totalLimit := htotal }
        · change unread call.state +
              (policy.maxArchiveUncompressedBytes - call.state.totalOutput) +
              (policy.maxArchiveEntries - (call.state.completedMembers + 1)) < gzipMeasure policy s
          rw [gzipMeasure]
          omega
    · rename_i hopen
      have hopen := eq_false_of_ne_true hopen
      split
      · exact .inl ⟨_, rfl, trivial⟩
      · rename_i hsome
        refine .inr ⟨_, before, members, taken, output, rfl, ?_, ?_⟩
        · exact {
            layout := h.layout
            input := h.input
            counters := h.counters
            closed := fun hnone => nomatch h.decompressor.symm.trans hnone
            opened := by
              intro d hd
              cases h.decompressor.symm.trans hd
              exact ⟨.inr ⟨h.fed, hopen⟩, h.memberOutput, h.memberInput, h.count⟩
            memberLimit := hmember
            totalLimit := htotal }
        · rw [gzipMeasure, gzipMeasure]
          by_cases hconsumed : call.consumed = 0
          · have hpos : 0 < call.output.length :=
              List.length_pos_iff.mpr fun hnil => hsome ⟨hconsumed, hnil⟩
            omega
          · omega

end Call

/-- A state of the loop, whatever the members are. -/
def Scans (zlib : Zlib D) (arithmetic : RatioArithmetic R) (policy : FileTrustPolicy R)
    (input : List UInt8) (s : GzipScan D) : Prop :=
  ∃ before members taken output,
    Scanning zlib arithmetic policy input before members taken output s

section Run

variable {input : List UInt8} {s : GzipScan D}

theorem gzipTurn_spec (hzlib : zlib.Conforms) (h : Scans zlib arithmetic policy input s) :
    (∃ exit, gzipTurn zlib arithmetic policy s = .leave exit ∧
      Decided zlib arithmetic policy input exit) ∨
    ∃ s', gzipTurn zlib arithmetic policy s = .again s' ∧
      Scans zlib arithmetic policy input s' ∧ gzipMeasure policy s' < gzipMeasure policy s := by
  obtain ⟨before, members, taken, output, h⟩ := h
  have hcall := callDecompressor_outcome hzlib h
  rw [gzipTurn]
  split
  · rename_i exit hexit
    exact .inl ⟨exit, rfl, hcall.of_error hexit⟩
  · rename_i call hok
    obtain ⟨before', taken', output', hcalled⟩ := hcall.of_ok hok
    rcases judgeCall_spec hcalled with hleave | ⟨s', b, ms, t, o, hagain, hs', hlt⟩
    · exact .inl hleave
    · exact .inr ⟨s', hagain, ⟨b, ms, t, o, hs'⟩, hlt⟩

theorem gzipTurn_again (hzlib : zlib.Conforms) {s' : GzipScan D}
    (h : Scans zlib arithmetic policy input s) (hturn : gzipTurn zlib arithmetic policy s = .again s') :
    Scans zlib arithmetic policy input s' ∧ gzipMeasure policy s' < gzipMeasure policy s := by
  rcases gzipTurn_spec hzlib h with ⟨_, hleave, -⟩ | ⟨t, hagain, ht⟩
  · exact nomatch hleave.symm.trans hturn
  · cases hagain.symm.trans hturn
    exact ht

theorem scans_start (stream : ByteStream) :
    Scans zlib arithmetic policy stream.contents (startGzip stream) :=
  ⟨[], [], [], [], {
    layout := .nil
    input := rfl
    counters := ⟨rfl, Nat.zero_le _, nofun, rfl, rfl⟩
    closed := fun _ => ⟨rfl, rfl⟩
    opened := fun _ hd => nomatch hd
    memberLimit := Nat.zero_le _
    totalLimit := Nat.zero_le _ }⟩

/-- The loop is left, after at most as many turns as the measure has and one. -/
theorem run_gzipTurn (hzlib : zlib.Conforms) (arithmetic : RatioArithmetic R)
    (policy : FileTrustPolicy R) (stream : ByteStream) :
    ∃ exit, run (gzipTurn zlib arithmetic policy)
      (gzipMeasure policy (startGzip stream : GzipScan D) + 1) (startGzip stream) = some exit :=
  run_of_measure (fun _ _ hs hturn => (gzipTurn_again hzlib hs hturn).1)
    (fun _ _ hs hturn => (gzipTurn_again hzlib hs hturn).2) (scans_start stream)

/-- The loop is left with an exit that is decided. -/
theorem leaves_decided (hzlib : zlib.Conforms) {stream : ByteStream} {exit : GzipExit D}
    (h : Leaves (gzipTurn zlib arithmetic policy) (startGzip stream) exit) :
    Decided zlib arithmetic policy stream.contents exit := by
  obtain ⟨s, hs, hleave⟩ :=
    h.invariant (fun _ _ hs hturn => (gzipTurn_again hzlib hs hturn).1) (scans_start stream)
  rcases gzipTurn_spec hzlib hs with ⟨exit', hexit, hdecided⟩ | ⟨_, hagain, -⟩
  · cases hexit.symm.trans hleave
    exact hdecided
  · exact nomatch hagain.symm.trans hleave

/-- The input of a report without risks. -/
theorem settleGzip_admitted {stream : ByteStream} {exit : GzipExit D}
    (h : Decided zlib arithmetic policy stream.contents exit)
    (hrisks : (settleGzip arithmetic policy exit).risks = []) :
    ∃ members, GzipMembers zlib stream.contents members ∧ members ≠ [] ∧
      members.length ≤ policy.maxArchiveEntries ∧
      (∀ m ∈ members, Admitted arithmetic policy m) ∧
      outputSize members ≤ policy.maxArchiveUncompressedBytes ∧
      highRatio arithmetic policy (outputSize members) (inputSize members) = false := by
  cases exit with
  | raised e => exact nomatch hrisks
  | limited risks => exact absurd hrisks h
  | finished s =>
      obtain ⟨members, hmembers, hcounters, htotal⟩ := h
      rw [settleGzip] at hrisks
      split at hrisks
      · exact nomatch hrisks
      · rename_i hcompleted
        split at hrisks
        · exact nomatch hrisks
        · rename_i hratio
          rw [hcounters.totalOutput] at htotal hratio
          rw [hcounters.totalInput] at hratio
          refine ⟨members, hmembers, ?_, hcounters.count, hcounters.admitted, htotal,
            eq_false_of_ne_true hratio⟩
          rintro rfl
          exact hcompleted hcounters.completed

/-- Gzip admission ends, admits only members within the limits, and never holds more output than a
chunk above them. -/
theorem gzip_admission (hzlib : zlib.Conforms) (arithmetic : RatioArithmetic R)
    (policy : FileTrustPolicy R) (stream : ByteStream) (head tail : List UInt8) (size : Nat) :
    (∃ turns result, inspectGzip turns zlib arithmetic policy stream head tail size = some result) ∧
      (∀ turns result, inspectGzip turns zlib arithmetic policy stream head tail size = some result →
        result.risks = [] →
        ∃ members, GzipMembers zlib stream.contents members ∧ members ≠ [] ∧
          members.length ≤ policy.maxArchiveEntries ∧
          (∀ m ∈ members, m.output.length ≤ policy.maxArchiveMemberBytes ∧
            highRatio arithmetic policy m.output.length m.bytes.length = false) ∧
          outputSize members ≤ policy.maxArchiveUncompressedBytes ∧
          highRatio arithmetic policy (outputSize members) (inputSize members) = false) ∧
      ∀ s, Reaches (gzipTurn zlib arithmetic policy) (startGzip stream) s →
        s.memberOutput ≤ policy.maxArchiveMemberBytes ∧
        s.totalOutput ≤ policy.maxArchiveUncompressedBytes ∧
        ∀ call, callDecompressor zlib policy s = .ok call →
          call.state.memberOutput ≤ policy.maxArchiveMemberBytes + gzipStreamChunkBytes ∧
          call.state.totalOutput ≤ policy.maxArchiveUncompressedBytes + gzipStreamChunkBytes := by
  refine ⟨?_, ?_, ?_⟩
  · obtain ⟨exit, hrun⟩ := run_gzipTurn hzlib arithmetic policy stream
    refine ⟨gzipMeasure policy (startGzip stream : GzipScan D) + 1, ?_⟩
    rw [inspectGzip]
    split
    · exact ⟨_, rfl⟩
    · split
      · exact ⟨_, rfl⟩
      · exact ⟨_, by rw [hrun]; rfl⟩
  · intro turns result hresult hrisks
    rw [inspectGzip] at hresult
    split at hresult
    · cases hresult
      exact nomatch hrisks
    · split at hresult
      · cases hresult
        exact nomatch hrisks
      · obtain ⟨exit, hrun, rfl⟩ := Option.map_eq_some_iff.mp hresult
        exact settleGzip_admitted (leaves_decided hzlib ⟨turns, hrun⟩) hrisks
  · intro s hs
    have hscans := hs.invariant (fun _ _ hs hturn => (gzipTurn_again hzlib hs hturn).1)
      (scans_start stream)
    obtain ⟨before, members, taken, output, hscanning⟩ := hscans
    refine ⟨hscanning.memberLimit, hscanning.totalLimit, ?_⟩
    intro call hcall
    have houtcome := callDecompressor_outcome hzlib hscanning
    obtain ⟨_, _, _, hcalled⟩ := houtcome.of_ok hcall
    exact ⟨hcalled.memberLimit, hcalled.totalLimit⟩

end Run

/-! ## A stream with one member -/

/-- The gzip stream of no bytes. -/
def emptyMember : List UInt8 :=
  [0x1f, 0x8b, 8, 0, 0, 0, 0, 0, 0, 3, 3, 0, 0, 0, 0, 0, 0, 0, 0, 0]

/-- What `zlib` does with this stream: the decompressor has ended with some unused data, or it is
new; other input is refused. -/
def emptyMemberZlib : Zlib (Option (List UInt8)) where
  decompressobj := none
  decompress _ data _ :=
    if emptyMember <+: data then some (some (data.drop emptyMember.length), []) else none
  eof := Option.isSome
  unusedData d := d.getD []
  unconsumedTail _ := []

theorem emptyMemberZlib_conforms : emptyMemberZlib.Conforms where
  output := by
    intro d data limit d' output h
    simp only [emptyMemberZlib] at h
    split at h
    · cases h
      exact Nat.zero_le _
    · exact nomatch h
  input := by
    intro d data limit d' output h
    simp only [emptyMemberZlib] at h
    split at h
    · cases h
      exact List.drop_suffix _ _
    · exact nomatch h

/-- Exact ratios, as fractions. -/
def exactRatios : RatioArithmetic (Nat × Nat) where
  divide output input := (output, input)
  exceeds ratio limit := limit.1 * ratio.2 < ratio.1 * limit.2
  format ratio := toString ratio.1 ++ "/" ++ toString ratio.2

/-- The default policy. -/
def defaultPolicy : FileTrustPolicy (Nat × Nat) where
  maxCompressionRatio := (200, 1)
  positive := FileTrustPolicy.default_positive

theorem gzip_admission_sample :
    ∃ members, GzipMembers emptyMemberZlib (emptyMember ++ [0]) members ∧ members ≠ [] ∧
      members.length ≤ 4096 := by
  have hrisks : (inspectGzip 2 emptyMemberZlib exactRatios defaultPolicy
      (.chunk 0x1f (emptyMember.tail ++ [0]) .done) (emptyMember ++ [0])
      [0, 0, 0, 0, 0, 0, 0, 0] 21).map Identification.risks = some [] := by decide +kernel
  obtain ⟨result, hrun, hnil⟩ := Option.map_eq_some_iff.mp hrisks
  obtain ⟨members, hmembers, hne, hlength, -⟩ := (gzip_admission emptyMemberZlib_conforms exactRatios
    defaultPolicy _ _ _ _).2.1 2 result hrun hnil
  exact ⟨members, hmembers, hne, hlength⟩

end ContentInspector

end Polymorph
