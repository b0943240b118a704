import Polymorph.Inspection.Identify
import Polymorph.Text.JsonDocument

/-!
# The inspection of a source file

`ContentInspector.inspect` of a regular file that nobody else changes, and `require`, with which
the file connectors refuse unsafe input and other kinds of content.
-/

set_option autoImplicit false

namespace Polymorph

open JsonText

/-! ## Files -/

/-- `FileIdentity` -/
structure FileIdentity where
  device : Nat
  inode : Nat
  sizeBytes : Nat
  mtimeNs : Nat
deriving DecidableEq

/-- A regular file: its bytes, and what else `stat` reports. -/
structure StoredFile where
  bytes : List UInt8
  device : Nat
  inode : Nat
  mtimeNs : Nat

/-- `FileIdentity.from_stat` -/
def StoredFile.identity (file : StoredFile) : FileIdentity where
  device := file.device
  inode := file.inode
  sizeBytes := file.bytes.length
  mtimeNs := file.mtimeNs

/-- What an inspection runs on: whether a directory above the path is a link, and the parsers and
inspections of libraries. -/
structure InspectionEnvironment where
  linkedParent : Bool
  /-- `json5.loads(text)` -/
  json5Accepts : String → Parsed
  saxParse : String → Nat → Nat → Nat → XmlParsed
  inspectZip : List UInt8 → Identification
  inspectGzip : List UInt8 → List UInt8 → List UInt8 → Nat → Identification

namespace ContentInspector

variable {R : Type} (env : InspectionEnvironment) (policy : FileTrustPolicy R)

/-! ## Inspection -/

/-- The parsers of the inspector; `json.loads` with a hook that rejects non-finite constants. -/
def parsers : Parsers where
  jsonLoads text :=
    match loads text with
    | some j => if constantFree j && shortIntegers j then .accepted else .rejected
    | none => .rejected
  json5Loads := env.json5Accepts
  saxParse := env.saxParse

/-- The handle of a file. -/
def openFile (file : StoredFile) : OpenFile where
  read n := .ok (file.bytes.take n)
  inspectZip := env.inspectZip file.bytes
  inspectGzip := env.inspectGzip file.bytes

/-- The risks that the inspector finds before it reads. -/
def admissionRisks (file : StoredFile) : List ContentRisk :=
  (if env.linkedParent = true then
    [{ code := .symlinkInput, detail := "input path has a symbolic link parent" }] else []) ++
  (if policy.maxFileBytes < file.bytes.length then
    [{ code := .fileTooLarge
       detail := "input exceeds " ++ toString policy.maxFileBytes ++ " bytes" }]
    else [])

/-- The last bytes, for a size that is not tiny. -/
def tailOf (bytes : List UInt8) : List UInt8 :=
  if 4 ≤ bytes.length then bytes.drop (bytes.length - min bytes.length 8) else []

/-- `ContentInspector.inspect` -/
def inspect (file : StoredFile) : Identification :=
  match admissionRisks env policy file with
  | [] =>
      identify (parsers env) policy (some (openFile env file))
        (file.bytes.take policy.maxProbeBytes) (tailOf file.bytes) file.bytes.length
  | risk :: risks => {
      kind := .unknown, confidence := 0
      signals := ["structured inspection skipped after blocking admission risk"]
      risks := risk :: risks }

/-- `ContentInspector.require`; the allowed kinds in the order of their names. -/
def require (purpose : String) (allowed : List ContentKind) (file : StoredFile) :
    Except Exn Unit :=
  let report := inspect env policy file
  match report.risks.filter (·.blocking) with
  | risk :: risks => .error (.connectorError (purpose ++ " rejected unsafe input (" ++
      ", ".intercalate ((risk :: risks).map (·.code.value)) ++ ")"))
  | [] =>
      if report.kind ∈ allowed then .ok ()
      else .error (.connectorError (purpose ++ " expected content type [" ++
        ", ".intercalate (allowed.map (·.value)) ++ "], detected " ++ report.kind.value))

/-- The file is the one that a connector was made for, if it was made for one. -/
def checkExpected (purpose : String) (expected : Option FileIdentity) (identity : FileIdentity) :
    Except Exn Unit :=
  match expected with
  | none => .ok ()
  | some expected =>
      if identity = expected then .ok ()
      else .error (.connectorError
        (purpose ++ " rejected input changed after accepted content inspection"))

/-- `_ensure_source_safe` of a connector. -/
def ensureSourceSafe (purpose : String) (allowed : List ContentKind)
    (expected : Option FileIdentity) (file : StoredFile) : Except Exn Unit := do
  require env policy purpose allowed file
  checkExpected purpose expected file.identity

/-! ## What passes -/

variable {env policy} {purpose : String} {allowed : List ContentKind} {file : StoredFile}

/-- The kind of what passes is one of the allowed ones. -/
theorem kind_of_require (h : require env policy purpose allowed file = .ok ()) :
    (inspect env policy file).kind ∈ allowed := by
  rw [require] at h
  split at h
  · cases h
  · split at h
    · assumption
    · cases h

theorem inspect_of_unlinked (hlinked : env.linkedParent = false)
    (hsize : file.bytes.length ≤ policy.maxFileBytes) :
    inspect env policy file = identify (parsers env) policy (some (openFile env file))
      (file.bytes.take policy.maxProbeBytes) (tailOf file.bytes) file.bytes.length := by
  rw [inspect, admissionRisks, hlinked, if_neg Bool.false_ne_true,
    if_neg (Nat.not_lt.mpr hsize), List.append_nil]

/-- Behind a link nothing passes. -/
theorem unlinked_of_require (h : require env policy purpose allowed file = .ok ()) :
    env.linkedParent = false := by
  cases hlinked : env.linkedParent with
  | false => rfl
  | true =>
      rw [require, inspect, admissionRisks, hlinked] at h
      exact nomatch h

theorem checkExpected_eq_ok_iff {expected : Option FileIdentity} {identity : FileIdentity} :
    checkExpected purpose expected identity = .ok () ↔ ∀ e ∈ expected, identity = e := by
  cases expected with
  | none => exact iff_of_true rfl fun _ h => nomatch h
  | some e =>
      rw [checkExpected]
      split
      case isTrue heq => exact iff_of_true rfl fun _ h => Option.some.inj h ▸ heq
      case isFalse hne => exact iff_of_false (fun h => nomatch h) fun h => hne (h e rfl)

theorem ensureSourceSafe_eq_ok_iff {expected : Option FileIdentity} :
    ensureSourceSafe env policy purpose allowed expected file = .ok () ↔
      require env policy purpose allowed file = .ok () ∧ ∀ e ∈ expected, file.identity = e := by
  rw [ensureSourceSafe, ← @checkExpected_eq_ok_iff purpose]
  constructor
  · intro h
    obtain ⟨_, hrequired, hexpected⟩ := bind_eq_ok h
    exact ⟨hrequired, hexpected⟩
  · rintro ⟨hrequired, hexpected⟩
    rw [hrequired, ok_bind, hexpected]

end ContentInspector

end Polymorph
