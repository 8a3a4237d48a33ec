import Stasis.Recording.Document

namespace Stasis.Recording

structure StateHash where
  text : String
  wellFormed : isCompactHash text = true

structure CompactPendingTick where
  tick : ℕ
  input : Frame

/-- A `ReplayRecorder` as `start_compact` starts it.  Its other variant, of schema 1, is
only started by tests. -/
structure CompactReplayRecorder where
  document : CompactReplayDocumentV3
  encodedBytes : ℕ
  previousInput : Option Frame
  activeSnapshot : Option Frame
  activeSegment : Option CompactInputSegment
  pending : Option CompactPendingTick

structure CompactReplayMetadata where
  runtimeSha256 : String
  assetManifestSha256 : Option String
  hostSchemaVersion : ℕ
  tickRateHz : ℕ
  determinismProfile : String
  controllerSchemaVersion : Option ℕ

structure ProgramIdentity where
  stasisVersion : String
  releaseId : String
  target : String
  sourceSha256 : String
  stateLayoutSha256 : String
  compilerLayoutSha256 : String
  inputUsageSha256 : String
  observed : Lanes (List Field)

def zeroFrame (hostCount : Lanes ℕ) : Frame where
  i32 := List.replicate hostCount.i32 0
  f32 := List.replicate hostCount.f32 0

def validateCompactMetadata (metadata : CompactReplayMetadata) : Except String Unit := do
  validateCompactHash "runtime_sha256" metadata.runtimeSha256
  if let some hash := metadata.assetManifestSha256 then
    validateCompactHash "asset_manifest_sha256" hash
  check (metadata.hostSchemaVersion == 0) "compact replay host_schema_version must be positive"
  check (metadata.tickRateHz == 0) "compact replay tick_rate_hz must be positive"
  validateCompactFieldText "determinism_profile" metadata.determinismProfile
  check (metadata.controllerSchemaVersion.any (· == 0))
    "compact replay controller_schema_version must be positive when present"

def compactReplayCompatibilityFromSnapshot (program : ProgramIdentity) (hostCount : Lanes ℕ)
    (metadata : CompactReplayMetadata) : CompactReplayCompatibility where
  stasisVersion := program.stasisVersion
  releaseId := program.releaseId
  sourceSha256 := program.sourceSha256
  stateLayoutSha256 := program.stateLayoutSha256
  compilerLayoutSha256 := program.compilerLayoutSha256
  assetManifestSha256 := metadata.assetManifestSha256
  hostSchemaVersion := metadata.hostSchemaVersion
  hostCount := hostCount
  inputUsageSha256 := program.inputUsageSha256
  tickRateHz := metadata.tickRateHz
  determinismProfile := metadata.determinismProfile
  controllerSchemaVersion := metadata.controllerSchemaVersion
  observed := program.observed

def emptyDocument (program : ProgramIdentity) (initialState : InitialState)
    (hostCount : Lanes ℕ) (metadata : CompactReplayMetadata) : CompactReplayDocumentV3 where
  schemaVersion := compactReplaySchemaVersionV3
  identity :=
    { compatibility := compactReplayCompatibilityFromSnapshot program hostCount metadata
      producer := { target := program.target, runtimeSha256 := metadata.runtimeSha256 } }
  initialState := initialState
  initialInput := { i32 := [], f32 := [] }
  segments := []
  checkpoints := []
  totalTicks := 0
  finalState := { tick := 0, stateSha256 := "" }

def CompactReplayRecorder.startCompact (codec : Codec) (program : ProgramIdentity)
    (initialState : InitialState) (hostCount : Lanes ℕ) (observed : Lanes (List Field))
    (metadata : CompactReplayMetadata) : Except String CompactReplayRecorder := do
  validateHostCount hostCount
  validateCompactI32Fields observed.i32 hostCount.i32
  validateCompactF32Fields observed.f32 hostCount.f32
  validateCompactMetadata metadata
  check (program.observed != observed)
    "compact replay observed descriptors do not match the compiler-owned input usage"
  let document := emptyDocument program initialState hostCount metadata
  let encodedBytes ← checkedAdd (codec.documentBytes document) 4096
    "compact replay size estimate overflowed"
  check (encodedBytes > maxReplayFileBytes)
    s!"compact replay header exceeds the {maxReplayFileBytes}-byte limit"
  pure
    { document := document
      encodedBytes := encodedBytes
      previousInput := none
      activeSnapshot := none
      activeSegment := none
      pending := none }

def compactDiff (previous current : Frame) : Lanes (List (Change Word)) where
  i32 := Change.diff previous.i32 current.i32
  f32 := Change.diff previous.f32 current.f32

def observe (lane : String) (fields : List Field) (host : List Word) :
    Except String (List Word) :=
  fields.mapM fun field =>
    match host[field.index]? with
    | some value => pure value
    | none => throw s!"compact replay {lane} index {field.index} is out of range"

def compactSnapshotFromHost (identity : CompactReplayCompatibility) (host : Frame) :
    Except String Frame := do
  check (host.i32.length != identity.hostCount.i32 || host.f32.length != identity.hostCount.f32)
    "HostFrame size changed while recording compact replay"
  let i32Values ← observe "i32" identity.observed.i32 host.i32
  let f32Bits ← observe "f32" identity.observed.f32 host.f32
  pure { i32 := i32Values, f32 := f32Bits }

namespace CompactReplayRecorder

variable (codec : Codec)

def reserveCompactBytes (recorder : CompactReplayRecorder) (additional : ℕ) (label : String) :
    Except String CompactReplayRecorder := do
  let next ← checkedAdd recorder.encodedBytes additional "compact replay size estimate overflowed"
  check (next > maxReplayFileBytes)
    s!"compact replay {label} exceeds the {maxReplayFileBytes}-byte limit"
  pure { recorder with encodedBytes := next }

def flushCompactSegment (recorder : CompactReplayRecorder) :
    Except String CompactReplayRecorder := do
  let some segment := recorder.activeSegment | pure recorder
  let recorder := { recorder with activeSegment := none, activeSnapshot := none }
  check (maxReplayFrames ≤ recorder.document.segments.length)
    s!"compact replay exceeds the {maxReplayFrames}-segment limit"
  let recorder ← recorder.reserveCompactBytes (codec.segmentBytes segment + 1) "input segment"
  pure { recorder with
    document := { recorder.document with segments := recorder.document.segments ++ [segment] } }

def appendCompactInput (recorder : CompactReplayRecorder) (input : Frame) :
    Except String CompactReplayRecorder := do
  if recorder.activeSnapshot = some input then
    let some segment := recorder.activeSegment
      | throw "compact replay active snapshot has no segment"
    let runTicks ← checkedAdd segment.runTicks 1 "compact replay run length overflowed"
    pure { recorder with
      activeSegment := some { segment with runTicks := runTicks }
      previousInput := recorder.previousInput <|> some input }
  else
    let recorder ← recorder.flushCompactSegment codec
    let changes :=
      match recorder.previousInput with
      | some previous => compactDiff previous input
      | none => { i32 := [], f32 := [] }
    pure { recorder with
      activeSegment := some { tickGap := 0, runTicks := 1, changes := changes }
      activeSnapshot := some input
      previousInput := some input }

def beginTick (recorder : CompactReplayRecorder) (tick : ℕ) (host : Frame) :
    Except String CompactReplayRecorder := do
  check (maxReplayFrames ≤ recorder.document.totalTicks)
    s!"compact replay recording exceeds the {maxReplayFrames}-tick limit"
  check recorder.pending.isSome s!"replay tick {tick} has not been completed"
  let expected ← checkedAdd recorder.document.totalTicks 1 "compact replay tick counter overflowed"
  check (tick != expected)
    s!"compact replay tick sequence mismatch: expected {expected}, found {tick}"
  let input ← compactSnapshotFromHost recorder.document.identity.compatibility host
  pure { recorder with pending := some { tick := tick, input := input } }

def setBaseline (recorder : CompactReplayRecorder) (input : Frame) :
    Except String CompactReplayRecorder :=
  if recorder.previousInput.isNone then
    { recorder with document := { recorder.document with initialInput := input } :
      CompactReplayRecorder }.reserveCompactBytes (codec.baselineBytes input) "input baseline"
  else pure recorder

def addCheckpoint (recorder : CompactReplayRecorder) (checkpoint : CompactReplayCheckpoint) :
    Except String CompactReplayRecorder := do
  check (maxCompactCheckpoints ≤ recorder.document.checkpoints.length)
    s!"compact replay exceeds the {maxCompactCheckpoints}-checkpoint limit"
  let recorder ←
    recorder.reserveCompactBytes (codec.checkpointBytes checkpoint + 1) "checkpoint"
  pure { recorder with
    document :=
      { recorder.document with checkpoints := recorder.document.checkpoints ++ [checkpoint] } }

def finishTick (recorder : CompactReplayRecorder) (hash : StateHash) :
    Except String CompactReplayRecorder := do
  let some pending := recorder.pending | throw "replay recorder has no active tick"
  let recorder := { recorder with pending := none }
  let recorder ← recorder.setBaseline codec pending.input
  let recorder ← recorder.appendCompactInput codec pending.input
  let state : CompactReplayCheckpoint := { tick := pending.tick, stateSha256 := hash.text }
  let recorder := { recorder with
    document := { recorder.document with totalTicks := pending.tick, finalState := state } }
  if pending.tick % compactCheckpointInterval = 0 then recorder.addCheckpoint codec state
  else pure recorder

def discardTick (recorder : CompactReplayRecorder) (tick : ℕ) :
    Except String CompactReplayRecorder :=
  if recorder.pending.any (·.tick == tick) then pure { recorder with pending := none }
  else throw s!"compact replay tick {tick} is not an unfinished active tick"

def publish (recorder : CompactReplayRecorder) : Except String CompactReplayDocumentV3 := do
  check recorder.pending.isSome "cannot publish an incomplete replay tick"
  let recorder ← recorder.flushCompactSegment codec
  check (recorder.document.totalTicks == 0) "cannot publish a replay without a completed tick"
  validateCompactDocumentV3 codec recorder.document
  check (codec.documentBytes recorder.document > maxReplayFileBytes)
    (s!"compact replay is too large ({codec.documentBytes recorder.document} bytes; maximum " ++
      s!"{maxReplayFileBytes})")
  pure recorder.document

end CompactReplayRecorder

inductive Call
  | beginTick (tick : ℕ) (host : Frame)
  | finishTick (hash : StateHash)
  | discardTick (tick : ℕ)

namespace CompactReplayRecorder

def call (codec : Codec) (recorder : CompactReplayRecorder) :
    Call → Except String CompactReplayRecorder
  | .beginTick tick host => recorder.beginTick tick host
  | .finishTick hash => recorder.finishTick codec hash
  | .discardTick tick => recorder.discardTick tick

def calls (codec : Codec) (recorder : CompactReplayRecorder) (sequence : List Call) :
    Except String CompactReplayRecorder :=
  sequence.foldlM (fun recorder call => recorder.call codec call) recorder

end CompactReplayRecorder

end Stasis.Recording
