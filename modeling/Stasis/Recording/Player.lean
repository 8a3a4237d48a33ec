import Stasis.Recording.Recorder

namespace Stasis.Recording

def maxCompactDiagnosticBytes : ℕ := 512

inductive ReplayPlaybackDocument
  | legacy (document : ReplayDocument)
  | compact (document : CompactReplayDocument)

structure CompactCursor where
  segmentIndex : ℕ
  segmentCursor : ℕ
  segmentApplied : Bool
  snapshot : Frame

structure ReplayPlayer where
  document : ReplayPlaybackDocument
  nextFrame : ℕ
  nextTick : ℕ
  host : Frame
  compactCursor : Option CompactCursor
  nextCheckpoint : ℕ
  lastVerifiedTick : ℕ
  firstDivergence : Option String

/-- `decode_versioned_replay`: the validated document in the form the player works on. -/
def decodeVersionedReplay (codec : Codec) :
    VersionedReplayDocument → Except String ReplayPlaybackDocument
  | .legacyV1 document => do
    validateDocument document
    pure (.legacy document)
  | .compactV2 document => do
    validateCompactDocument codec document
    pure (.compact document)
  | .compactV3 document => do
    validateCompactDocumentV3 codec document
    pure (.compact document.normalized)

namespace ReplayPlaybackDocument

def hostCount : ReplayPlaybackDocument → Lanes ℕ
  | legacy document => document.identity.hostCount
  | compact document => document.identity.hostCount

def initialCursor : ReplayPlaybackDocument → Option CompactCursor
  | legacy _ => none
  | compact document => some
      { segmentIndex := 0
        segmentCursor := 0
        segmentApplied := false
        snapshot := document.initialInput }

def frameCount : ReplayPlaybackDocument → ℕ
  | legacy document => document.frames.length
  | compact document => document.totalTicks

end ReplayPlaybackDocument

/-- The loop of `advance_compact_snapshot` over the segments from the current one on. -/
def advanceFrom (tick : ℕ) :
    List CompactInputSegment → CompactCursor → Except String CompactCursor
  | [], _ => throw s!"compact replay has no segment for tick {tick}"
  | segment :: segments, cursor => do
    let gapEnd ← checkedAdd cursor.segmentCursor segment.tickGap
      "compact replay tick gap overflows during playback"
    if tick ≤ gapEnd then pure cursor
    else
      let runEnd ← checkedAdd gapEnd segment.runTicks
        "compact replay run length overflows during playback"
      if tick ≤ runEnd then
        if cursor.segmentApplied then pure cursor
        else pure { cursor with
          snapshot := applyCompactChanges cursor.snapshot segment.changes
          segmentApplied := true }
      else
        advanceFrom tick segments
          { cursor with
            segmentIndex := cursor.segmentIndex + 1
            segmentCursor := runEnd
            segmentApplied := false }

def advanceCompactSnapshot (document : CompactReplayDocument) (tick : ℕ)
    (cursor : CompactCursor) : Except String CompactCursor :=
  advanceFrom tick (document.segments.drop cursor.segmentIndex) cursor

/-- Writes one lane of the snapshot; a slot out of range panics in the source and reads
zero here. -/
def writeObserved (lane : String) (snapshot : List Word) (host : List Word) :
    List Field → Except String (List Word)
  | [] => pure host
  | field :: fields => do
    check (host.length ≤ field.index) s!"compact replay {lane} index {field.index} is out of range"
    writeObserved lane snapshot (host.set field.index (snapshot.getD field.slot 0)) fields

def applyCompactSnapshot (identity : CompactReplayIdentity) (snapshot host : Frame) :
    Except String Frame := do
  let hostI32 ← writeObserved "i32" snapshot.i32 host.i32 identity.observed.i32
  let hostF32 ← writeObserved "f32" snapshot.f32 host.f32 identity.observed.f32
  pure { i32 := hostI32, f32 := hostF32 }

def writeChanges (lane : String) (host : List Word) :
    List (Change Word) → Except String (List Word)
  | [] => pure host
  | change :: changes => do
    check (host.length ≤ change.slot) s!"replay {lane} index {change.slot} is out of range"
    writeChanges lane (host.set change.slot change.value) changes

def applyChanges (host : Frame) (frame : ReplayFrame) : Except String Frame := do
  let hostI32 ← writeChanges "i32" host.i32 frame.changes.i32
  let hostF32 ← writeChanges "f32" host.f32 frame.changes.f32
  pure { i32 := hostI32, f32 := hostF32 }

/-- The loops over `next_checkpoint`: past the checkpoints for which `skip` holds. -/
def skipCheckpoints (checkpoints : List CompactReplayCheckpoint) (skip : ℕ → Bool)
    (nextCheckpoint : ℕ) : ℕ :=
  nextCheckpoint + ((checkpoints.drop nextCheckpoint).takeWhile fun c => skip c.tick).length

/-- The hash expected after a tick, and the next checkpoint. -/
def compactExpectedCheckpoint (document : CompactReplayDocument) (tick nextCheckpoint : ℕ) :
    Option String × ℕ :=
  let next := skipCheckpoints document.checkpoints (· < tick) nextCheckpoint
  if tick = document.finalState.tick then
    (some document.finalState.stateSha256, skipCheckpoints document.checkpoints (· ≤ tick) next)
  else
    match document.checkpoints[next]? with
    | some checkpoint =>
      if checkpoint.tick = tick then (some checkpoint.stateSha256, next + 1) else (none, next)
    | none => (none, next)

namespace ReplayPlayer

def opened (document : ReplayPlaybackDocument) : ReplayPlayer where
  document := document
  nextFrame := 0
  nextTick := 1
  host := zeroFrame document.hostCount
  compactCursor := document.initialCursor
  nextCheckpoint := 0
  lastVerifiedTick := 0
  firstDivergence := none

def load (codec : Codec) (file : VersionedReplayDocument) : Except String ReplayPlayer :=
  opened <$> decodeVersionedReplay codec file

/-- The input supplied for a tick; of the active host frame only its size is read. -/
def applyNext (player : ReplayPlayer) (tick : ℕ) (active : Lanes ℕ) :
    Except String (Frame × ReplayPlayer) := do
  check (active.i32 != player.host.i32.length || active.f32 != player.host.f32.length)
    "active HostFrame size does not match replay"
  match player.document with
  | .legacy document =>
    let some frame := document.frames[player.nextFrame]?
      | throw s!"replay has no frame for tick {tick}"
    check (frame.tick != tick)
      s!"replay tick sequence mismatch: expected {tick}, found {frame.tick}"
    let host ← applyChanges player.host frame
    pure (host, { player with host := host, nextFrame := player.nextFrame + 1 })
  | .compact document =>
    check (tick != player.nextTick)
      s!"compact replay tick sequence mismatch: expected {player.nextTick}, found {tick}"
    check (tick > document.totalTicks)
      s!"compact replay has no frame for tick {tick} (total {document.totalTicks})"
    let some cursor := player.compactCursor | throw "compact replay has no input baseline"
    let cursor ← advanceCompactSnapshot document tick cursor
    let host ← applyCompactSnapshot document.identity cursor.snapshot
      (zeroFrame document.identity.hostCount)
    let nextTick ← checkedAdd player.nextTick 1 "compact replay tick counter overflowed"
    pure (host, { player with host := host, compactCursor := some cursor, nextTick := nextTick })

def expected (player : ReplayPlayer) (tick : ℕ) : Option String :=
  match player.document with
  | .legacy document => (document.frames[player.nextFrame - 1]?).map (·.stateSha256)
  | .compact document => (compactExpectedCheckpoint document tick player.nextCheckpoint).1

/-- The player after the comparison, also where the comparison fails. -/
def verifyTick (player : ReplayPlayer) (tick : ℕ) (actual : String) :
    ReplayPlayer × Except String Unit :=
  match player.firstDivergence, player.document with
  | some error, _ => (player, throw error)
  | none, .legacy _ =>
    match player.expected tick with
    | none => (player, throw s!"replay has no completed frame for tick {tick}")
    | some expected =>
      (player, check (actual != expected)
        s!"replay diverged at tick {tick}: expected state {expected}, found {actual}")
  | none, .compact document =>
    let completedTick := player.nextTick - 1
    if tick ≠ completedTick ∨ tick = 0 then
      (player, throw ("compact replay verification sequence mismatch: expected " ++
        s!"{completedTick}, found {tick}"))
    else
      let advanced := { player with
        nextCheckpoint := (compactExpectedCheckpoint document tick player.nextCheckpoint).2 }
      match player.expected tick with
      | none => (advanced, pure ())
      | some expected =>
        if actual = expected then ({ advanced with lastVerifiedTick := tick }, pure ())
        else
          let diagnostic :=
            s!"replay diverged within ticks {player.lastVerifiedTick + 1}..={tick}; " ++
              s!"detected at checkpoint {tick}: expected state {expected}, found {actual}"
          let truncated := String.ofList (diagnostic.toList.take maxCompactDiagnosticBytes)
          ({ advanced with firstDivergence := some truncated }, throw truncated)

/-- Plays the first ticks in order, each checked against the hash of the replayed state. -/
def replay (player : ReplayPlayer) (active : Lanes ℕ) (actual : ℕ → String) :
    ℕ → Except String (List Frame × ReplayPlayer)
  | 0 => pure ([], player)
  | tick + 1 => do
    let (frames, player) ← replay player active actual tick
    let (frame, player) ← player.applyNext (tick + 1) active
    let (player, verdict) := player.verifyTick (tick + 1) (actual (tick + 1))
    verdict
    pure (frames ++ [frame], player)

end ReplayPlayer
end Stasis.Recording
