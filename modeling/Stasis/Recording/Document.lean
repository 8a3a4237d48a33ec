import Stasis.Lib.Effects
import Stasis.Lib.Timeline
import Stasis.Lib.Word

namespace Stasis.Recording

def replaySchemaVersion : ℕ := 1
def compactReplaySchemaVersion : ℕ := 2
def compactReplaySchemaVersionV3 : ℕ := 3
def maxReplayFrames : ℕ := 1000000
def maxReplayFileBytes : ℕ := 256 * 1024 * 1024
def maxHostFrameValues : ℕ := 4096
def maxCompactCheckpoints : ℕ := 4096
def maxCompactFieldTextBytes : ℕ := 4096
def maxCompactChangesPerSegment : ℕ := maxHostFrameValues * 2
def compactCheckpointInterval : ℕ := 256

structure Lanes (α : Type) where
  i32 : α
  f32 : α
  deriving DecidableEq

/-- The values of a host frame, or of its observed fields; an `f32` by its bits. -/
abbrev Frame := Lanes (List Word)

structure Field where
  slot : ℕ
  index : ℕ
  path : String
  family : String
  deriving DecidableEq

inductive StateLocation
  | scalar (path : String)
  | collection (path field : String) (index : ℤ)
  deriving DecidableEq

structure EncodedScalar where
  typeName : String
  bits : String
  deriving DecidableEq

structure StateEntry where
  location : StateLocation
  value : EncodedScalar
  deriving DecidableEq

structure InitialState where
  values : List StateEntry
  stateSha256 : String
  deriving DecidableEq

structure ReplayIdentity where
  stasisVersion : String
  releaseId : String
  target : String
  sourceSha256 : String
  stateLayoutSha256 : String
  hostCount : Lanes ℕ

structure ReplayFrame where
  tick : ℕ
  changes : Lanes (List (Change Word))
  stateSha256 : String

structure ReplayDocument where
  schemaVersion : ℕ
  identity : ReplayIdentity
  initialState : InitialState
  frames : List ReplayFrame

structure CompactReplayCompatibility where
  stasisVersion : String
  releaseId : String
  sourceSha256 : String
  stateLayoutSha256 : String
  compilerLayoutSha256 : String
  assetManifestSha256 : Option String
  hostSchemaVersion : ℕ
  hostCount : Lanes ℕ
  inputUsageSha256 : String
  tickRateHz : ℕ
  determinismProfile : String
  controllerSchemaVersion : Option ℕ
  observed : Lanes (List Field)

structure CompactReplayProducer where
  target : String
  runtimeSha256 : String

structure CompactReplayIdentityV3 where
  compatibility : CompactReplayCompatibility
  producer : CompactReplayProducer

structure CompactReplayIdentity where
  stasisVersion : String
  releaseId : String
  target : String
  sourceSha256 : String
  stateLayoutSha256 : String
  compilerLayoutSha256 : String
  runtimeSha256 : String
  assetManifestSha256 : Option String
  hostSchemaVersion : ℕ
  hostCount : Lanes ℕ
  inputUsageSha256 : String
  tickRateHz : ℕ
  determinismProfile : String
  controllerSchemaVersion : Option ℕ
  observed : Lanes (List Field)

abbrev CompactInputSegment := Segment (Lanes (List (Change Word)))

structure CompactReplayCheckpoint where
  tick : ℕ
  stateSha256 : String

/-- What both compact schemas hold besides their version and identity. -/
structure CompactReplayBody where
  initialState : InitialState
  initialInput : Frame
  segments : List CompactInputSegment
  checkpoints : List CompactReplayCheckpoint
  totalTicks : ℕ
  finalState : CompactReplayCheckpoint

structure CompactReplayDocument extends CompactReplayBody where
  schemaVersion : ℕ
  identity : CompactReplayIdentity

structure CompactReplayDocumentV3 extends CompactReplayBody where
  schemaVersion : ℕ
  identity : CompactReplayIdentityV3

inductive VersionedReplayDocument
  | legacyV1 (document : ReplayDocument)
  | compactV2 (document : CompactReplayDocument)
  | compactV3 (document : CompactReplayDocumentV3)

/-- The digest of the observed fields and the lengths of the JSON texts. -/
structure Codec where
  inputUsageHash : Lanes (List Field) → String
  documentBytes : CompactReplayDocumentV3 → ℕ
  baselineBytes : Frame → ℕ
  segmentBytes : CompactInputSegment → ℕ
  checkpointBytes : CompactReplayCheckpoint → ℕ

def checkedAdd (a b : ℕ) (message : String) : Except String ℕ :=
  if a + b < 2 ^ 64 then pure (a + b) else throw message

variable {a b : ℕ} {message : String} {failed : Bool}

lemma checkedAdd_of_lt (h : a + b < 2 ^ 64) : checkedAdd a b message = .ok (a + b) := if_pos h

lemma checkedAdd_eq_ok (h : checkedAdd a b message = .ok c) : c = a + b := by
  rw [checkedAdd] at h
  split at h
  · exact (pure_ok_iff.mp h).symm
  · cases h

/-- The checks of the source, each with the message of its failure. -/
def check (failed : Bool) (message : String) : Except String Unit :=
  if failed then throw message else pure ()

lemma check_eq_ok_iff : check failed message = .ok u ↔ failed = false := by
  cases failed with
  | true => simp [check, throw, throwThe, MonadExceptOf.throw]
  | false => simp [check, pure, Except.pure]

lemma check_of_false (h : failed = false) : check failed message = .ok () := check_eq_ok_iff.mpr h

def validateCompactFieldText (label value : String) : Except String Unit := do
  check value.isEmpty s!"compact replay {label} must not be empty"
  check (value.utf8ByteSize > maxCompactFieldTextBytes)
    s!"compact replay {label} exceeds {maxCompactFieldTextBytes} bytes"

def isLowercaseHex (c : Char) : Bool := c.isDigit || ('a' ≤ c && c ≤ 'f')

def isCompactHash (value : String) : Bool :=
  value.utf8ByteSize == 64 && value.toList.all isLowercaseHex

def validateCompactHash (label value : String) : Except String Unit :=
  check (!isCompactHash value) s!"compact replay {label} must be lowercase 64-hex"

lemma validateCompactHash_of_isCompactHash (h : isCompactHash value = true) :
    validateCompactHash label value = .ok () :=
  check_of_false (by rw [h]; rfl)

def validateCompactBitText (label value : String) : Except String Unit := do
  check value.isEmpty s!"compact replay {label} must not be empty"
  check (value.utf8ByteSize > maxCompactFieldTextBytes)
    s!"compact replay {label} exceeds {maxCompactFieldTextBytes} bytes"
  check (!value.toList.all isLowercaseHex)
    s!"compact replay {label} must contain lowercase hexadecimal text"

/-- `u64::from_str_radix(_, 16)` of lowercase hexadecimal text. -/
def hexValue (text : String) : ℕ :=
  text.toList.foldl
    (fun n c => 16 * n + if c.isDigit then c.toNat - '0'.toNat else c.toNat - 'a'.toNat + 10) 0

def scalarWidth : String → Option ℕ
  | "i32" | "f32" | "u32" => some 8
  | "f64" => some 16
  | "bool" | "u8" => some 2
  | "u16" => some 4
  | _ => none

def validateCompactScalarEncoding (entryIndex : ℕ) (value : EncodedScalar) :
    Except String Unit := do
  let some width := scalarWidth value.typeName
    | throw (s!"compact replay initial state entry {entryIndex} has unsupported scalar type " ++
        value.typeName.quote)
  let label := s!"initial state entry {entryIndex} bits"
  validateCompactBitText label value.bits
  check (value.bits.utf8ByteSize != width)
    s!"compact replay {label} must contain exactly {width} lowercase hexadecimal characters"
  let bits := hexValue value.bits
  check (value.typeName == "bool" && bits > 1)
    s!"compact replay {label} bool value must be 00 or 01"
  check (value.typeName == "u8" && bits > 255) s!"compact replay {label} u8 value is out of range"
  check (value.typeName == "u16" && bits > 65535)
    s!"compact replay {label} u16 value is out of range"

namespace StateLocation

def kind : StateLocation → ℕ
  | scalar _ => 0
  | collection .. => 1

def path : StateLocation → String
  | scalar path | collection path .. => path

def field : StateLocation → String
  | scalar _ => ""
  | collection _ field _ => field

def index : StateLocation → ℤ
  | scalar _ => 0
  | collection _ _ index => index

/-- The lexicographic order of kind, path, field and index. -/
def before (a b : StateLocation) : Bool :=
  a.kind < b.kind || a.kind == b.kind && (a.path < b.path || a.path == b.path &&
    (a.field < b.field || a.field == b.field && a.index < b.index))

def validate (entryIndex : ℕ) : StateLocation → Except String Unit
  | scalar path => validateCompactFieldText "initial state scalar path" path
  | collection path field index => do
    validateCompactFieldText "initial state collection path" path
    check (field.utf8ByteSize > maxCompactFieldTextBytes)
      ("compact replay initial state collection field exceeds the " ++
        s!"{maxCompactFieldTextBytes}-byte limit")
    check (index < 0)
      s!"compact replay initial state entry {entryIndex} has a negative collection index"

end StateLocation

def validateCompactEntries (previousLocation : Option StateLocation) (entryIndex : ℕ) :
    List StateEntry → Except String Unit
  | [] => pure ()
  | entry :: entries => do
    check (previousLocation.any fun previous => !previous.before entry.location)
      s!"compact replay initial state entry {entryIndex} is duplicate or out of order"
    entry.location.validate entryIndex
    validateCompactFieldText "initial state type" entry.value.typeName
    validateCompactScalarEncoding entryIndex entry.value
    check (entry.value.bits.toList.all (· == '0'))
      s!"compact replay initial state entry {entryIndex} explicitly stores a default value"
    validateCompactEntries (some entry.location) (entryIndex + 1) entries

def validateCompactInitialState (state : InitialState) : Except String Unit := do
  validateCompactHash "initial state_sha256" state.stateSha256
  check (state.values.length > maxReplayFrames)
    s!"compact replay initial state exceeds the {maxReplayFrames}-entry limit"
  validateCompactEntries none 0 state.values

/-- `validate_compact_i32_fields` and its `f32` twin, from a position on. -/
def validateCompactFields (lane : String) (hostCount : ℕ) (previousIndex : Option ℕ) (slot : ℕ) :
    List Field → Except String Unit
  | [] => pure ()
  | field :: fields => do
    check (field.slot != slot)
      s!"compact replay {lane} descriptor slot {field.slot} is not canonical position {slot}"
    check (hostCount ≤ field.index)
      s!"compact replay {lane} descriptor slot {slot} index {field.index} is out of range"
    check (previousIndex.any (field.index ≤ ·))
      s!"compact replay {lane} descriptors must be sorted and unique"
    validateCompactFieldText s!"{lane} descriptor path" field.path
    validateCompactFieldText s!"{lane} descriptor family" field.family
    validateCompactFields lane hostCount (some field.index) (slot + 1) fields

def validateHostCount (hostCount : Lanes ℕ) : Except String Unit :=
  check (hostCount.i32 == 0 || hostCount.f32 == 0 || hostCount.i32 > maxHostFrameValues ||
      hostCount.f32 > maxHostFrameValues)
    ("compact replay HostFrame dimensions must be between 1 and " ++ s!"{maxHostFrameValues}")

def validateCompactI32Fields (fields : List Field) (hostCount : ℕ) : Except String Unit :=
  validateCompactFields "i32" hostCount none 0 fields

def validateCompactF32Fields (fields : List Field) (hostCount : ℕ) : Except String Unit :=
  validateCompactFields "f32" hostCount none 0 fields

/-- The part of `validate_compact_document` that reads the identity. -/
def validateCompactIdentity (codec : Codec) (identity : CompactReplayIdentity) :
    Except String Unit := do
  validateCompactFieldText "identity stasis_version" identity.stasisVersion
  validateCompactFieldText "identity release_id" identity.releaseId
  validateCompactFieldText "identity target" identity.target
  validateCompactFieldText "identity determinism_profile" identity.determinismProfile
  validateCompactHash "source_sha256" identity.sourceSha256
  validateCompactHash "state_layout_sha256" identity.stateLayoutSha256
  validateCompactHash "compiler_layout_sha256" identity.compilerLayoutSha256
  validateCompactHash "runtime_sha256" identity.runtimeSha256
  validateCompactHash "input_usage_sha256" identity.inputUsageSha256
  if let some hash := identity.assetManifestSha256 then
    validateCompactHash "asset_manifest_sha256" hash
  check (identity.hostSchemaVersion == 0) "compact replay host_schema_version must be positive"
  validateHostCount identity.hostCount
  check (identity.tickRateHz == 0) "compact replay tick_rate_hz must be positive"
  check (identity.controllerSchemaVersion.any (· == 0))
    "compact replay controller_schema_version must be positive when present"
  validateCompactI32Fields identity.observed.i32 identity.hostCount.i32
  validateCompactF32Fields identity.observed.f32 identity.hostCount.f32
  let actualUsageHash := codec.inputUsageHash identity.observed
  check (identity.inputUsageSha256 != actualUsageHash)
    ("compact replay input_usage_sha256 does not match its observed field descriptors: " ++
      s!"expected {identity.inputUsageSha256}, found {actualUsageHash}")

def validateCompactChanges (lane : String) (segmentIndex : ℕ) (values : List Word)
    (previousSlot : Option ℕ) : List (Change Word) → Except String Unit
  | [] => pure ()
  | change :: changes => do
    check (values.length ≤ change.slot)
      s!"compact replay segment {segmentIndex} has an out-of-range {lane} slot {change.slot}"
    check (previousSlot.any (change.slot ≤ ·))
      s!"compact replay segment {segmentIndex} {lane} changes must be sorted and unique"
    check (values[change.slot]? == some change.value)
      s!"compact replay segment {segmentIndex} {lane} change at slot {change.slot} is redundant"
    validateCompactChanges lane segmentIndex values (some change.slot) changes

/-- Changes of both lanes; an index out of range panics in the source and is ignored here. -/
def applyCompactChanges (snapshot : Frame) (changes : Lanes (List (Change Word))) : Frame where
  i32 := Change.applyAll snapshot.i32 changes.i32
  f32 := Change.applyAll snapshot.f32 changes.f32

def validateAndApplyCompactChanges (snapshot : Frame) (segment : CompactInputSegment)
    (segmentIndex : ℕ) : Except String Frame := do
  validateCompactChanges "i32" segmentIndex snapshot.i32 none segment.changes.i32
  validateCompactChanges "f32" segmentIndex snapshot.f32 none segment.changes.f32
  pure (applyCompactChanges snapshot segment.changes)

/-- The loop over the segments; the result is the tick at which they end. -/
def validateCompactSegments (totalTicks segmentIndex cursor : ℕ) (snapshot : Frame) :
    List CompactInputSegment → Except String ℕ
  | [] => pure cursor
  | segment :: segments => do
    check (segmentIndex == 0 && segment.tickGap != 0)
      "compact replay first segment must have tick_gap=0"
    check (segment.runTicks == 0)
      s!"compact replay segment {segmentIndex} must have run_ticks >= 1"
    let changeCount ← checkedAdd segment.changes.i32.length segment.changes.f32.length
      s!"compact replay segment {segmentIndex} change count overflows"
    check (changeCount > maxCompactChangesPerSegment)
      s!"compact replay segment {segmentIndex} has too many changes"
    let gapEnd ← checkedAdd cursor segment.tickGap
      s!"compact replay segment {segmentIndex} tick_gap overflows"
    let runEnd ← checkedAdd gapEnd segment.runTicks
      s!"compact replay segment {segmentIndex} run_ticks overflows"
    check (runEnd > totalTicks) s!"compact replay segment {segmentIndex} exceeds total_ticks"
    let snapshot ← validateAndApplyCompactChanges snapshot segment segmentIndex
    validateCompactSegments totalTicks (segmentIndex + 1) runEnd snapshot segments

def validateCompactCheckpoints (index : ℕ) : List CompactReplayCheckpoint → Except String Unit
  | [] => pure ()
  | checkpoint :: checkpoints => do
    let expectedTick := (index + 1) * compactCheckpointInterval
    check (checkpoint.tick != expectedTick)
      (s!"compact replay checkpoint {index} must be at tick {expectedTick}, " ++
        s!"found {checkpoint.tick}")
    validateCompactHash "checkpoint state_sha256" checkpoint.stateSha256
    validateCompactCheckpoints (index + 1) checkpoints

/-- The part of `validate_compact_document` that reads the recorded ticks. -/
def validateCompactTicks (observed : Lanes (List Field)) (body : CompactReplayBody) :
    Except String Unit := do
  check (body.initialInput.i32.length != observed.i32.length ||
      body.initialInput.f32.length != observed.f32.length)
    "compact replay initial_input lengths must match observed field descriptors"
  check (body.totalTicks == 0 || body.totalTicks > maxReplayFrames)
    s!"compact replay total_ticks must be between 1 and {maxReplayFrames}"
  check body.segments.isEmpty "compact replay must contain at least one input segment"
  check (body.segments.length > maxReplayFrames)
    s!"compact replay exceeds the {maxReplayFrames}-segment limit"
  let cursor ← validateCompactSegments body.totalTicks 0 0 body.initialInput body.segments
  check (cursor != body.totalTicks)
    s!"compact replay segment coverage ends at tick {cursor}, expected {body.totalTicks}"
  check (body.checkpoints.length > maxCompactCheckpoints)
    s!"compact replay exceeds the {maxCompactCheckpoints}-checkpoint limit"
  let expectedCheckpointCount := body.totalTicks / compactCheckpointInterval
  check (body.checkpoints.length != expectedCheckpointCount)
    (s!"compact replay must contain exactly {expectedCheckpointCount} checkpoints for " ++
      s!"{body.totalTicks} ticks")
  validateCompactCheckpoints 0 body.checkpoints
  check (body.finalState.tick != body.totalTicks)
    (s!"compact replay final tick {body.finalState.tick} does not equal total_ticks " ++
      s!"{body.totalTicks}")
  validateCompactHash "final state_sha256" body.finalState.stateSha256
  check (body.checkpoints.getLast?.any fun checkpoint =>
      checkpoint.tick == body.totalTicks && checkpoint.stateSha256 != body.finalState.stateSha256)
    "compact replay final checkpoint does not match final state"

def validateCompactDocument (codec : Codec) (document : CompactReplayDocument) :
    Except String Unit := do
  check (document.schemaVersion != compactReplaySchemaVersion)
    (s!"unsupported compact replay schema {document.schemaVersion} " ++
      s!"(expected {compactReplaySchemaVersion})")
  validateCompactIdentity codec document.identity
  validateCompactInitialState document.initialState
  validateCompactTicks document.identity.observed document.toCompactReplayBody

def compactV2IdentityFromV3 (identity : CompactReplayIdentityV3) : CompactReplayIdentity where
  stasisVersion := identity.compatibility.stasisVersion
  releaseId := identity.compatibility.releaseId
  target := identity.producer.target
  sourceSha256 := identity.compatibility.sourceSha256
  stateLayoutSha256 := identity.compatibility.stateLayoutSha256
  compilerLayoutSha256 := identity.compatibility.compilerLayoutSha256
  runtimeSha256 := identity.producer.runtimeSha256
  assetManifestSha256 := identity.compatibility.assetManifestSha256
  hostSchemaVersion := identity.compatibility.hostSchemaVersion
  hostCount := identity.compatibility.hostCount
  inputUsageSha256 := identity.compatibility.inputUsageSha256
  tickRateHz := identity.compatibility.tickRateHz
  determinismProfile := identity.compatibility.determinismProfile
  controllerSchemaVersion := identity.compatibility.controllerSchemaVersion
  observed := identity.compatibility.observed

def CompactReplayDocumentV3.normalized (document : CompactReplayDocumentV3) :
    CompactReplayDocument where
  toCompactReplayBody := document.toCompactReplayBody
  schemaVersion := compactReplaySchemaVersion
  identity := compactV2IdentityFromV3 document.identity

def validateCompactDocumentV3 (codec : Codec) (document : CompactReplayDocumentV3) :
    Except String Unit := do
  check (document.schemaVersion != compactReplaySchemaVersionV3)
    (s!"unsupported compact replay schema {document.schemaVersion} " ++
      s!"(expected {compactReplaySchemaVersionV3})")
  validateCompactFieldText "producer target" document.identity.producer.target
  validateCompactHash "producer runtime_sha256" document.identity.producer.runtimeSha256
  validateCompactDocument codec document.normalized

def validateFrames (hostCount : Lanes ℕ) (tick : ℕ) : List ReplayFrame → Except String Unit
  | [] => pure ()
  | frame :: frames => do
    check (frame.tick != tick)
      ("replay frames must contain consecutive ticks starting at 1; found " ++
        s!"{frame.tick} at position {tick}")
    check (frame.stateSha256.utf8ByteSize != 64) s!"replay tick {tick} has an invalid state hash"
    check (frame.changes.i32.any (hostCount.i32 ≤ ·.slot))
      s!"replay tick {tick} has an out-of-range i32 change"
    check (frame.changes.f32.any (hostCount.f32 ≤ ·.slot))
      s!"replay tick {tick} has an out-of-range f32 change"
    validateFrames hostCount (tick + 1) frames

def validateDocument (document : ReplayDocument) : Except String Unit := do
  check (document.schemaVersion != replaySchemaVersion)
    s!"unsupported replay schema {document.schemaVersion} (expected {replaySchemaVersion})"
  check (document.frames.length > maxReplayFrames)
    s!"replay exceeds the {maxReplayFrames}-frame limit"
  check document.frames.isEmpty "replay must contain at least one completed tick"
  let hostCount := document.identity.hostCount
  check (hostCount.i32 == 0 || hostCount.f32 == 0 || hostCount.i32 > maxHostFrameValues ||
      hostCount.f32 > maxHostFrameValues)
    s!"replay HostFrame dimensions must be between 1 and {maxHostFrameValues}"
  validateFrames hostCount 1 document.frames

end Stasis.Recording
