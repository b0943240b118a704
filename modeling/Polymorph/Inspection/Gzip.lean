import Polymorph.Control.Loop
import Polymorph.Inspection.Content

/-!
# Streaming validation of gzip input

`_inspect_gzip` decompresses every member in chunks and stops at the first limit that the output
exceeds. The decompressor is the one of `zlib`: it takes part of its input, returns at most as many
bytes as asked for, and keeps the input that it has not taken. The numbers of the compression ratios
are those of the interpreter.
-/

set_option autoImplicit false

namespace Polymorph

open Loop

def gzipMinSize : Nat := 18
def gzipReservedFlags : UInt8 := 0xe0
def gzipDeflateMethod : UInt8 := 8
def gzipStreamChunkBytes : Nat := 64 * 1024
def gzipRatioMinOutputBytes : Nat := 1024 * 1024

/-- `zlib.decompressobj(16 + zlib.MAX_WBITS)` and the attributes of the object. A call of
`decompress` returns no value when it raises `zlib.error`. -/
structure Zlib (D : Type) where
  decompressobj : D
  decompress : D → List UInt8 → Nat → Option (D × List UInt8)
  eof : D → Bool
  unusedData : D → List UInt8
  unconsumedTail : D → List UInt8

/-- The input that the decompressor has not taken. -/
def Zlib.remainder {D : Type} (zlib : Zlib D) (d : D) : List UInt8 :=
  if zlib.eof d then zlib.unusedData d else zlib.unconsumedTail d

/-- The contract of a call: it takes a prefix of its input, keeps the rest, and returns at most as
many bytes as it was asked for. -/
structure Zlib.Conforms {D : Type} (zlib : Zlib D) : Prop where
  output : ∀ d data limit d' output, zlib.decompress d data limit = some (d', output) →
    output.length ≤ limit
  input : ∀ d data limit d' output, zlib.decompress d data limit = some (d', output) →
    zlib.remainder d' <:+ data

/-- Division of integers, comparison and formatting of the interpreter's numbers. -/
structure RatioArithmetic (R : Type) where
  divide : Nat → Nat → R
  exceeds : R → R → Bool
  format : R → String

namespace ContentInspector

variable {D R : Type}

/-- The variables of the loop. -/
structure GzipScan (D : Type) where
  stream : ByteStream
  pending : List UInt8
  decompressor : Option D
  totalOutput : Nat
  totalCompressedInput : Nat
  completedMembers : Nat
  memberOutput : Nat
  memberInput : Nat

/-- How the loop is left: by `break`, by an exception that the function catches, or by `return` with
risks. -/
inductive GzipExit (D : Type) where
  | finished (s : GzipScan D)
  | raised (e : Exn)
  | limited (risks : List ContentRisk)

/-- A read that raises leaves the loop. -/
def readGzip (stream : ByteStream) : Except (GzipExit D) (List UInt8 × ByteStream) :=
  match stream.read with
  | .ok result => .ok result
  | .error e => .error (.raised e)

/-- `pending`, or what the next read returns when there is nothing pending. -/
def refill (pending : List UInt8) (stream : ByteStream) :
    Except (GzipExit D) (List UInt8 × ByteStream) :=
  if pending = [] then readGzip stream else .ok (pending, stream)

/-- The zero padding after a member: `pending` without leading zeros, from as many reads as that
takes. -/
def skipPadding : List UInt8 → ByteStream → Except (GzipExit D) (List UInt8 × ByteStream)
  | pending, stream =>
      if pending = [] then .ok ([], stream)
      else
        match pending.dropWhile (· = 0) with
        | b :: rest => .ok (b :: rest, stream)
        | [] =>
            match stream with
            | .done => .ok ([], .done)
            | .failed => .error (.raised (.other "OSError"))
            | .chunk first others rest => skipPadding (first :: others) rest
termination_by structural _ stream => stream

/-- Padding is allowed after a member. -/
def skipBetween (completedMembers : Nat) (pending : List UInt8) (stream : ByteStream) :
    Except (GzipExit D) (List UInt8 × ByteStream) :=
  if completedMembers ≠ 0 then skipPadding pending stream else .ok (pending, stream)

/-- At least two bytes, when there are as many. -/
def readMagic : List UInt8 → ByteStream → Except (GzipExit D) (List UInt8)
  | pending, stream =>
      if 2 ≤ pending.length then .ok pending
      else
        match stream with
        | .done => .ok pending
        | .failed => .error (.raised (.other "OSError"))
        | .chunk first others rest => readMagic (pending ++ first :: others) rest
termination_by structural _ stream => stream

/-- How the loop is left when something follows the last member that is allowed. -/
def excessMember (policy : FileTrustPolicy R) (pending : List UInt8) : GzipExit D :=
  if [0x1f, 0x8b] <+: pending then
    .limited [{
      code := .archiveTooManyEntries
      detail := "gzip stream contains more than " ++ toString policy.maxArchiveEntries ++
        " members" }]
  else .raised (.valueError "non-padding data follows the final gzip member")

/-- What follows the padding is a member, or the end of the input. -/
def startMember (zlib : Zlib D) (policy : FileTrustPolicy R) (s : GzipScan D) :
    Except (GzipExit D) (GzipScan D) := do
  if s.pending = [] then throw (.finished s)
  if policy.maxArchiveEntries ≤ s.completedMembers then
    throw (excessMember policy (← readMagic s.pending s.stream))
  return { s with decompressor := some zlib.decompressobj, memberOutput := 0, memberInput := 0 }

/-- The branch without a decompressor. -/
def openMember (zlib : Zlib D) (policy : FileTrustPolicy R) (s : GzipScan D) :
    Except (GzipExit D) (GzipScan D) := do
  let (pending, stream) ← refill s.pending s.stream
  let (pending, stream) ← skipBetween s.completedMembers pending stream
  startMember zlib policy { s with pending := pending, stream := stream }

/-- A member is opened when there is none. -/
def withMember (zlib : Zlib D) (policy : FileTrustPolicy R) (s : GzipScan D) :
    Except (GzipExit D) (GzipScan D) :=
  match s.decompressor with
  | some _ => .ok s
  | none => openMember zlib policy s

/-- The state after a call of the decompressor, with the input that the call took and the bytes that
it returned. -/
structure GzipCall (D : Type) where
  state : GzipScan D
  decompressor : D
  consumed : Nat
  output : List UInt8

/-- The call of a decompressor, and the counters after it. -/
def feedDecompressor (zlib : Zlib D) (d : D) (s : GzipScan D) : Except (GzipExit D) (GzipCall D) :=
  match zlib.decompress d s.pending gzipStreamChunkBytes with
  | none => .error (.raised (.other "zlib.error"))
  | some (decompressor, output) =>
      let remainder := zlib.remainder decompressor
      let consumed := s.pending.length - remainder.length
      .ok {
        state := { s with
          pending := remainder
          decompressor := some decompressor
          memberOutput := s.memberOutput + output.length
          totalOutput := s.totalOutput + output.length
          memberInput := s.memberInput + consumed
          totalCompressedInput := s.totalCompressedInput + consumed }
        decompressor := decompressor
        consumed := consumed
        output := output }

/-- The first part of a turn, up to the counters after the call. -/
def callDecompressor (zlib : Zlib D) (policy : FileTrustPolicy R) (s : GzipScan D) :
    Except (GzipExit D) (GzipCall D) := do
  let s ← withMember zlib policy s
  let (pending, stream) ← refill s.pending s.stream
  if pending = [] then throw (.raised (.valueError "truncated gzip member"))
  feedDecompressor zlib (s.decompressor.getD zlib.decompressobj)
    { s with pending := pending, stream := stream }

/-- The limits on the output. -/
def outputRisks (policy : FileTrustPolicy R) (s : GzipScan D) : List ContentRisk :=
  (if policy.maxArchiveMemberBytes < s.memberOutput then [{
      code := .archiveMemberTooLarge
      detail := "gzip member " ++ toString (s.completedMembers + 1) ++ " exceeds " ++
        toString policy.maxArchiveMemberBytes ++ " bytes" }] else []) ++
  (if policy.maxArchiveUncompressedBytes < s.totalOutput then [{
      code := .archiveTooLarge
      detail := "gzip stream expands beyond " ++ toString policy.maxArchiveUncompressedBytes ++
        " bytes" }] else [])

/-- A ratio above the limit, of an output that is not small. -/
def highRatio (arithmetic : RatioArithmetic R) (policy : FileTrustPolicy R) (output input : Nat) :
    Bool :=
  gzipRatioMinOutputBytes ≤ output &&
    arithmetic.exceeds (arithmetic.divide output (max 1 input)) policy.maxCompressionRatio

/-- The second part of a turn. -/
def judgeCall (zlib : Zlib D) (arithmetic : RatioArithmetic R) (policy : FileTrustPolicy R)
    (call : GzipCall D) : Turn (GzipExit D) (GzipScan D) :=
  let s := call.state
  let risks := outputRisks policy s
  if risks ≠ [] then .leave (.limited risks)
  else if zlib.eof call.decompressor then
    let completedMembers := s.completedMembers + 1
    if highRatio arithmetic policy s.memberOutput s.memberInput then
      .leave (.limited [{
        code := .archiveHighCompressionRatio
        detail := "gzip member " ++ toString completedMembers ++ " compression ratio is " ++
          arithmetic.format (arithmetic.divide s.memberOutput (max 1 s.memberInput)) }])
    else .again { s with completedMembers := completedMembers, decompressor := none }
  else if call.consumed = 0 ∧ call.output = [] then
    .leave (.raised (.valueError "gzip decompressor made no progress"))
  else .again s

/-- A turn of the loop. -/
def gzipTurn (zlib : Zlib D) (arithmetic : RatioArithmetic R) (policy : FileTrustPolicy R)
    (s : GzipScan D) : Turn (GzipExit D) (GzipScan D) :=
  match callDecompressor zlib policy s with
  | .error exit => .leave exit
  | .ok call => judgeCall zlib arithmetic policy call

/-- The variables before the loop, after `handle.seek(0)`. -/
def startGzip (stream : ByteStream) : GzipScan D where
  stream := stream
  pending := []
  decompressor := none
  totalOutput := 0
  totalCompressedInput := 0
  completedMembers := 0
  memberOutput := 0
  memberInput := 0

def gzipStopped : String := "gzip streaming stopped at a configured safety limit"

/-- The rest of `_inspect_gzip` after the loop. -/
def settleGzip (arithmetic : RatioArithmetic R) (policy : FileTrustPolicy R) :
    GzipExit D → Identification
  | .raised _ => {
      kind := .gzip, confidence := 60, signals := ["gzip magic signature"]
      risks := [{ code := .malformedArchive, detail := "gzip structure could not be read" }] }
  | .limited risks => {
      kind := .gzip, confidence := 100, signals := ["gzip magic signature", gzipStopped]
      risks := risks }
  | .finished s =>
      if s.completedMembers = 0 then {
        kind := .gzip, confidence := 60, signals := ["gzip magic signature"]
        risks := [{ code := .malformedArchive, detail := "gzip contains no complete member" }] }
      else if highRatio arithmetic policy s.totalOutput s.totalCompressedInput then {
        kind := .gzip, confidence := 100, signals := ["gzip magic signature", gzipStopped]
        risks := [{
          code := .archiveHighCompressionRatio
          detail := "aggregate gzip compression ratio exceeds " ++
            arithmetic.format
              (arithmetic.divide s.totalOutput (max 1 s.totalCompressedInput)) }] }
      else {
        kind := .gzip, confidence := 100
        signals := ["gzip magic signature", "validated " ++ toString s.completedMembers ++
          " gzip member(s) with bounded streaming"]
        risks := [] }

/-- The framing that `_inspect_gzip` rejects before it reads anything. -/
def gzipFramingMalformed (head tail : List UInt8) (size : Nat) : Bool :=
  size < gzipMinSize || head.length < 4 || head[2]? ≠ some gzipDeflateMethod ||
    head[3]?.any (fun flags => flags &&& gzipReservedFlags ≠ 0) || tail.length < 8

/-- `_inspect_gzip`, with a bound on the turns of its loop. -/
def inspectGzip (turns : Nat) (zlib : Zlib D) (arithmetic : RatioArithmetic R)
    (policy : FileTrustPolicy R) (stream : ByteStream) (head tail : List UInt8) (size : Nat) :
    Option Identification :=
  if gzipFramingMalformed head tail size then
    some {
      kind := .gzip, confidence := 60, signals := ["gzip magic signature"]
      risks := [{ code := .malformedArchive, detail := "gzip framing is malformed" }] }
  else if policy.maxGzipScanBytes < size then
    some {
      kind := .gzip, confidence := 80
      signals := ["gzip magic signature",
        "gzip streaming skipped above the configured input budget"]
      risks := [{
        code := .archiveScanBudgetExceeded
        detail := "gzip input exceeds the " ++ toString policy.maxGzipScanBytes ++
          "-byte streaming validation budget" }] }
  else (run (gzipTurn zlib arithmetic policy) turns (startGzip stream)).map
    (settleGzip arithmetic policy)

end ContentInspector

end Polymorph
