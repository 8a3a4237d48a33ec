import Stasis.Recording.Playback

namespace Stasis.Recording

open CompactReplayRecorder
open CompactReplayDocumentV3
open List

section Compact

variable {codec : Codec} {program : ProgramIdentity} {initialState : InitialState}
  {hostCount : Lanes ℕ} {observed : Lanes (List Field)} {metadata : CompactReplayMetadata}
  {header document : CompactReplayDocumentV3} {recorder recorder' : CompactReplayRecorder}
  {session : Session}

lemma startCompact_eq_ok
    (h : startCompact codec program initialState hostCount observed metadata =
      .ok started) :
    validateHostCount hostCount = .ok () ∧ ObservedFields hostCount.i32 observed.i32 ∧
      ObservedFields hostCount.f32 observed.f32 ∧ program.observed = observed ∧
      ∃ bytes, started =
        { document := emptyDocument program initialState hostCount metadata, encodedBytes := bytes
          previousInput := none
          activeSnapshot := none
          activeSegment := none
          pending := none } := by
  obtain ⟨_, hcount, h⟩ := bind_ok_iff.mp h
  obtain ⟨_, hi32, h⟩ := bind_ok_iff.mp h
  obtain ⟨_, hf32, h⟩ := bind_ok_iff.mp h
  obtain ⟨_, -, h⟩ := bind_ok_iff.mp h
  obtain ⟨_, hobs, h⟩ := bind_ok_iff.mp h
  obtain ⟨bytes, -, h⟩ := bind_ok_iff.mp h
  obtain ⟨_, -, h⟩ := bind_ok_iff.mp h
  exact ⟨hcount, observedFields_of_validate hi32, observedFields_of_validate hf32,
    by simpa using check_eq_ok_iff.mp hobs, bytes, (pure_ok_iff.mp h).symm⟩

lemma tracks_start (bytes : ℕ) :
    Tracks (emptyDocument program initialState hostCount metadata)
      { document := emptyDocument program initialState hostCount metadata, encodedBytes := bytes
        previousInput := none
        activeSnapshot := none
        activeSegment := none
        pending := none } .empty where
  schemaVersion := rfl
  identity := rfl
  initialState := rfl
  records :=
    { totalTicks := rfl, limit := Nat.zero_le _, finalState := by simp [recorded, Session.empty]
      checkpoints := rfl
      inputs := .inl ⟨rfl, rfl, rfl, rfl, rfl⟩ }
  pending := rfl
  room := by simp [Session.empty]
  pendingSized := by simp [Session.empty]
  completedSized := by simp [Session.empty]

variable (h : Tracks header recorder session)
include h

lemma Tracks.calls {sequence : List Call} (hcalls : recorder.calls codec sequence = .ok recorder') :
    Tracks header recorder' (sequence.foldl Session.step session) := by
  induction sequence generalizing recorder session with
  | nil =>
    obtain rfl := pure_ok_iff.mp hcalls
    exact h
  | cons call sequence ih =>
    rw [CompactReplayRecorder.calls, foldlM_cons] at hcalls
    obtain ⟨next, hnext, hcalls⟩ := bind_ok_iff.mp hcalls
    exact ih (h.call hnext) hcalls

variable {flushed : CompactReplayRecorder}

lemma Tracks.spells (hflush : recorder.flushCompactSegment codec = .ok flushed)
    (hdone : session.completed ≠ [])
    (hi32 : ObservedFields header.identity.compatibility.hostCount.i32
      header.identity.compatibility.observed.i32)
    (hf32 : ObservedFields header.identity.compatibility.hostCount.f32
      header.identity.compatibility.observed.f32) :
    Spells flushed.document.normalized session.completed ∧
      flushed.document.schemaVersion = header.schemaVersion ∧
      flushed.document.identity = header.identity ∧
      flushed.document.initialState = header.initialState ∧
      Sized (observedSize header.identity.compatibility.observed) flushed.document.initialInput ∧
      WellFormedSegments flushed.document.initialInput flushed.document.segments := by
  have hr := h.records
  obtain ⟨hnil, -⟩ | ⟨last, segment, hh⟩ := hr.inputs
  · exact absurd (map_eq_nil_iff.mp hnil) hdone
  obtain ⟨bytes, rfl⟩ := flushCompactSegment_eq_ok hh.activeSegment hflush
  have hlen := Tracks.length_recorded header.identity.compatibility.observed session
  refine ⟨?_, h.schemaVersion, h.identity, h.initialState, hh.initialSized, hh.wellFormed⟩
  constructor
  · simp only [normalized, h.identity]
    exact hi32
  · simp only [normalized, h.identity]
    exact hf32
  · simp only [normalized, h.identity]
    exact h.completedSized
  · exact hr.totalTicks.trans hlen
  · exact hlen ▸ hr.limit
  · intro x hx
    rw [← hlen]
    refine hr.finalState (snapshotOf header.identity.compatibility.observed x.1, x.2) ?_
    rw [recorded, getLast?_map, hx]
    rfl
  · refine hr.checkpoints.trans ?_
    rw [recorded, map_map]
    rfl
  · exact append_ne_nil_of_right_ne_nil _ (cons_ne_nil _ _)
  · exact fun s hs => (Segment.along_forall hh.wellFormed s hs).elim fun _ hw => hw.runTicks
  · simp only [normalized, h.identity]
    refine hh.timeline.trans ?_
    rw [recorded, map_map]
    rfl

omit h in
lemma length_le_timeline (h : ∀ segment ∈ segments, 0 < segment.runTicks) :
    segments.length ≤ (timeline initial segments).length := by
  induction segments generalizing initial with
  | nil => exact Nat.zero_le _
  | cons segment segments ih =>
    have hrun := h segment (.head _)
    have hrest : segments.length ≤
        (timeline (applyCompactChanges initial segment.changes) segments).length :=
      ih fun s hs => h s (.tail _ hs)
    rw [length_timeline_cons, length_cons]
    omega

omit h in
lemma validateCompactTicks_of_spells {document : CompactReplayDocument} (h : Spells document done)
    (hne : done ≠ []) (hcount : validateHostCount document.identity.hostCount = .ok ())
    (hsized : Sized (observedSize document.identity.observed) document.initialInput)
    (hwell : WellFormedSegments document.initialInput document.segments) :
    validateCompactTicks document.identity.observed document.toCompactReplayBody = .ok () := by
  have hlimit := h.limit
  have hlen : (timeline document.initialInput document.segments).length = done.length := by
    rw [h.timeline, length_map]
  have hseg : document.segments.length ≤ done.length := hlen ▸ length_le_timeline h.runTicks
  have hbou : document.identity.hostCount.i32 ≤ maxHostFrameValues ∧
      document.identity.hostCount.f32 ≤ maxHostFrameValues := by
    have hfalse := check_eq_ok_iff.mp hcount
    simp only [Bool.or_eq_false_iff, decide_eq_false_iff_not, gt_iff_lt, Nat.not_lt] at hfalse
    exact ⟨hfalse.1.2, hfalse.2⟩
  have hcur : validateCompactSegments document.totalTicks 0 0 document.initialInput
      document.segments = .ok (0 + (timeline document.initialInput document.segments).length) :=
    validateCompactSegments_of_wellFormed hsized
      (Nat.le_trans h.observedI32.length_le hbou.1)
      (Nat.le_trans h.observedF32.length_le hbou.2) hwell
      (Nat.le_of_eq ((Nat.zero_add _).trans (hlen.trans h.totalTicks.symm)))
      (h.totalTicks ▸ h.limit)
  obtain ⟨x, hx⟩ : ∃ x, done.getLast? = some x := ⟨_, getLast?_eq_some_getLast hne⟩
  have hfinal := h.finalState x hx
  have hchecks : document.checkpoints.length = done.length / compactCheckpointInterval := by
    rw [h.checkpoints, length_checkpointsOf, length_map]
  have hcon : (document.checkpoints.getLast?.any fun checkpoint =>
      checkpoint.tick == document.totalTicks &&
        checkpoint.stateSha256 != document.finalState.stateSha256) = false := by
    rw [Option.any_eq_false]
    intro checkpoint hlast
    rw [getLast?_eq_getElem?, h.checkpoints] at hlast
    obtain ⟨-, y, hy, hhash⟩ := getElem?_checkpointsOf hlast
    rw [hfinal, h.totalTicks, hhash]
    rw [Bool.and_eq_false_imp]
    intro htick
    rw [beq_iff_eq.mp htick, List.getElem?_map] at hy
    rw [getLast?_eq_getElem?] at hx
    rw [hx] at hy
    cases hy
    exact bne_self_eq_false _
  have hfew : done.length / compactCheckpointInterval ≤ maxCompactCheckpoints := by
    rw [maxReplayFrames] at hlimit
    rw [compactCheckpointInterval, maxCompactCheckpoints]
    omega
  rw [validateCompactTicks,
    bind_ok (check_of_false (by simpa [observedSize] using ⟨hsized.i32, hsized.f32⟩)),
    bind_ok (check_of_false (by simp [h.totalTicks, hne, hlimit])),
    bind_ok (check_of_false (by simpa using h.nonempty)),
    bind_ok (check_of_false (by simpa using Nat.le_trans hseg hlimit)),
    bind_ok hcur,
    bind_ok (check_of_false (by simp [hlen, h.totalTicks])),
    bind_ok (check_of_false (by simpa [hchecks] using hfew)),
    bind_ok (check_of_false (by simp [hchecks, h.totalTicks])),
    h.checkpoints, bind_ok (validateCompactCheckpoints_checkpointsOf _),
    ← h.checkpoints, bind_ok (check_of_false (by simp [hfinal, h.totalTicks])),
    bind_ok (validateCompactHash_of_isCompactHash (by rw [hfinal]; exact x.2.wellFormed)),
    check_of_false hcon]

lemma Tracks.totalTicks_flushed (hflush : recorder.flushCompactSegment codec = .ok flushed) :
    flushed.document.totalTicks = session.completed.length := by
  have htotal := h.records.totalTicks.trans (Tracks.length_recorded _ session)
  cases hact : recorder.activeSegment with
  | none =>
    rw [flushCompactSegment_of_none hact] at hflush
    cases hflush
    exact htotal
  | some segment =>
    obtain ⟨bytes, rfl⟩ := flushCompactSegment_eq_ok hact hflush
    exact htotal

omit h in
lemma publish_eq_ok (h : recorder.publish codec = .ok document) :
    recorder.pending = none ∧ document.totalTicks ≠ 0 ∧
      validateCompactDocumentV3 codec document = .ok () ∧
      ∃ flushed, recorder.flushCompactSegment codec = .ok flushed ∧
        flushed.document = document := by
  obtain ⟨_, hpend, h⟩ := bind_ok_iff.mp h
  obtain ⟨flushed, hflush, h⟩ := bind_ok_iff.mp h
  obtain ⟨_, htotal, h⟩ := bind_ok_iff.mp h
  obtain ⟨_, hvalid, h⟩ := bind_ok_iff.mp h
  obtain ⟨_, -, h⟩ := bind_ok_iff.mp h
  obtain rfl := pure_ok_iff.mp h
  exact ⟨by simpa using check_eq_ok_iff.mp hpend, by simpa using check_eq_ok_iff.mp htotal,
    hvalid, flushed, hflush, rfl⟩

omit h in
lemma playsBack_of_spells (hvalid : validateCompactDocumentV3 codec document = .ok ())
    (h : Spells document.normalized done) :
    PlaysBack codec (.compactV3 document) document.identity.compatibility.hostCount
      (done.map fun x => (suppliedFrame document.identity.compatibility.observed x.1, x.2)) := by
  have hload : ReplayPlayer.load codec (.compactV3 document) =
      .ok (.opened (.compact document.normalized)) := by
    rw [ReplayPlayer.load, decodeVersionedReplay, bind_ok hvalid]
    rfl
  obtain ⟨segment, after, hseg⟩ := exists_cons_of_ne_nil h.nonempty
  have hpla : Playing document.normalized (.opened (.compact document.normalized)) 0 0 :=
    { plays := rfl, nextTick := rfl, host := ⟨length_replicate, length_replicate⟩
      compactCursor := ⟨_, rfl, [], segment, after, hseg, rfl, rfl, Nat.le_refl 0,
        Nat.zero_le _, rfl, rfl⟩
      nextCheckpoint := rfl
      firstDivergence := rfl }
  refine ⟨_, hload, ?_, ?_, ?_⟩
  · rw [length_map]
    exact h.totalTicks
  · intro tick y hy actual frames before hrep
    rw [List.getElem?_map, Option.map_eq_some_iff] at hy
    obtain ⟨x, hx, rfl⟩ := hy
    have hlt := (List.getElem?_eq_some_iff.mp hx).1
    obtain ⟨-, hbef⟩ := replay_playing h hpla (Nat.le_of_lt hlt) hrep
    obtain ⟨supplied, happly, hsup⟩ := applyNext_playing h hbef hx
    refine ⟨supplied, happly, fun hcom => ?_⟩
    rw [length_map] at hcom
    rw [expected_playing h hsup hx, if_pos hcom]
  · obtain ⟨frames, last, hrep⟩ := replay_recordedHash h hpla (Nat.le_refl _)
    obtain ⟨hfra, -⟩ := replay_playing h hpla (Nat.le_refl _) hrep
    refine ⟨last, ?_⟩
    rw [recordedHash_map, length_map]
    refine hrep.trans ?_
    rw [hfra, take_length, map_map]
    rfl

/-- A header that validates, and a document under the limit of its size. -/
structure Fits (codec : Codec) (recorder : CompactReplayRecorder) : Prop where
  identity : validateCompactIdentity codec
    (compactV2IdentityFromV3 recorder.document.identity) = .ok ()
  initialState : validateCompactInitialState recorder.document.initialState = .ok ()
  bytes : ∃ flushed, recorder.flushCompactSegment codec = .ok flushed ∧
    codec.documentBytes flushed.document ≤ maxReplayFileBytes

omit h in
lemma validateCompactIdentity_producer {identity : CompactReplayIdentity}
    (h : validateCompactIdentity codec identity = .ok ()) (label : String) :
    validateCompactFieldText label identity.target = .ok () ∧
      validateCompactHash label identity.runtimeSha256 = .ok () := by
  simp only [validateCompactIdentity, unit_bind_ok_iff] at h
  obtain ⟨-, -, htar, -, -, -, -, hrun, -⟩ := h
  obtain ⟨_, hempty, hlong⟩ := bind_ok_iff.mp htar
  refine ⟨?_, check_of_false (check_eq_ok_iff.mp hrun)⟩
  rw [validateCompactFieldText, bind_ok (check_of_false (check_eq_ok_iff.mp hempty))]
  exact check_of_false (check_eq_ok_iff.mp hlong)

lemma Tracks.publish (hver : header.schemaVersion = compactReplaySchemaVersionV3)
    (hcount : validateHostCount header.identity.compatibility.hostCount = .ok ())
    (hi32 : ObservedFields header.identity.compatibility.hostCount.i32
      header.identity.compatibility.observed.i32)
    (hf32 : ObservedFields header.identity.compatibility.hostCount.f32
      header.identity.compatibility.observed.f32) (hpend : session.pending = none)
    (hdone : session.completed ≠ []) (hfits : Fits codec recorder) :
    ∃ document, recorder.publish codec = .ok document := by
  obtain ⟨flushed, hflush, hbytes⟩ := hfits.bytes
  obtain ⟨hspe, hver', hident, hinit, hsized, hwell⟩ := h.spells hflush hdone hi32 hf32
  have hhead := hfits.identity
  rw [h.identity, ← hident] at hhead
  have hstate := hfits.initialState
  rw [h.initialState, ← hinit] at hstate
  have htar : validateCompactFieldText "producer target"
      flushed.document.identity.producer.target = .ok () :=
    (validateCompactIdentity_producer hhead _).1
  have hrun : validateCompactHash "producer runtime_sha256"
      flushed.document.identity.producer.runtimeSha256 = .ok () :=
    (validateCompactIdentity_producer hhead _).2
  rw [← hident] at hsized hcount
  have hticks := validateCompactTicks_of_spells hspe hdone hcount hsized hwell
  have hvalid : validateCompactDocumentV3 codec flushed.document = .ok () := by
    rw [validateCompactDocumentV3, bind_ok (check_of_false (by simp [hver'.trans hver])),
      bind_ok htar, bind_ok hrun, validateCompactDocument,
      bind_ok (check_of_false (by rfl))]
    exact (bind_ok hhead).trans ((bind_ok hstate).trans hticks)
  have htotal : (flushed.document.totalTicks == 0) = false := by
    have hlen : flushed.document.totalTicks = session.completed.length := hspe.totalTicks
    rw [hlen]
    simpa using hdone
  refine ⟨flushed.document, ?_⟩
  rw [CompactReplayRecorder.publish, bind_ok (check_of_false (by rw [h.pending, hpend]; rfl)),
    bind_ok hflush, bind_ok (check_of_false htotal), bind_ok hvalid,
    bind_ok (check_of_false (by simpa using hbytes))]
  rfl

end Compact

/-- Completed recordings are published, and a published recording passes its own
validation and plays back the completed ticks, whatever was discarded. -/
theorem published_playsBack {codec : Codec} {program : ProgramIdentity}
    {initialState : InitialState} {hostCount : Lanes ℕ} {observed : Lanes (List Field)}
    {metadata : CompactReplayMetadata} {recorder ended : CompactReplayRecorder}
    {sequence : List Call}
    (hstart : startCompact codec program initialState hostCount observed metadata = .ok recorder)
    (hcalls : recorder.calls codec sequence = .ok ended) :
    ((Session.of sequence).pending = none → (Session.of sequence).completed ≠ [] →
        Fits codec ended → ∃ document, ended.publish codec = .ok document) ∧
      ∀ document, ended.publish codec = .ok document →
        validateCompactDocumentV3 codec document = .ok () ∧
        PlaysBack codec (.compactV3 document) hostCount
          ((Session.of sequence).completed.map fun x => (suppliedFrame observed x.1, x.2)) := by
  obtain ⟨hcount, hi32, hf32, rfl, bytes, rfl⟩ := startCompact_eq_ok hstart
  have h := (tracks_start bytes).calls hcalls
  refine ⟨fun hpending hcompleted hfits => ?_, fun document hpublish => ?_⟩
  · exact h.publish rfl hcount hi32 hf32 hpending hcompleted hfits
  · obtain ⟨-, htotal, hvalid, flushed, hflush, rfl⟩ := publish_eq_ok hpublish
    rw [h.totalTicks_flushed hflush] at htotal
    obtain ⟨hspells, -, hidentity, -⟩ :=
      h.spells hflush (fun hnil => htotal (by rw [hnil]; rfl)) hi32 hf32
    have hplays := playsBack_of_spells hvalid hspells
    rw [hidentity] at hplays
    exact ⟨hvalid, hplays⟩

section Discarded

def zeroHash : StateHash where
  text := "0000000000000000000000000000000000000000000000000000000000000000"
  wellFormed := rfl

def smallCodec : Codec where
  inputUsageHash _ := zeroHash.text
  documentBytes _ := 0
  baselineBytes _ := 0
  segmentBytes _ := 0
  checkpointBytes _ := 0

def smallProgram : ProgramIdentity where
  stasisVersion := "0.1"
  releaseId := "development"
  target := "x86_64-linux"
  sourceSha256 := zeroHash.text
  stateLayoutSha256 := zeroHash.text
  compilerLayoutSha256 := zeroHash.text
  inputUsageSha256 := zeroHash.text
  observed :=
    { i32 := [{ slot := 0, index := 1, path := "host_i32.buttons", family := "mouse" }], f32 := [] }

def smallState : InitialState := { values := [], stateSha256 := zeroHash.text }

def smallMetadata : CompactReplayMetadata where
  runtimeSha256 := zeroHash.text
  assetManifestSha256 := none
  hostSchemaVersion := 4
  tickRateHz := 60
  determinismProfile := "input_only_no_external_observations"
  controllerSchemaVersion := none

/-- A button held down before and after its first tick is discarded. -/
def heldButton : List Call :=
  [.beginTick 1 { i32 := [3, 5], f32 := [0] }, .discardTick 1,
    .beginTick 1 { i32 := [4, 5], f32 := [0] }, .finishTick zeroHash]

/-- The player supplies it at its observed index. -/
theorem published_playsBack_held :
    ∃ started ended document, startCompact smallCodec smallProgram smallState ⟨2, 1⟩
        smallProgram.observed smallMetadata = .ok started ∧
      started.calls smallCodec heldButton = .ok ended ∧
      ended.publish smallCodec = .ok document ∧
      PlaysBack smallCodec (.compactV3 document) ⟨2, 1⟩
        [({ i32 := [0, 5], f32 := [0] }, zeroHash)] := by
  have hrun : (do
      let started ← startCompact smallCodec smallProgram smallState ⟨2, 1⟩
        smallProgram.observed smallMetadata
      let ended ← started.calls smallCodec heldButton
      ended.publish smallCodec).isOk = true := by decide +kernel
  obtain ⟨document, hdocument⟩ := except_exists_of_isOk hrun
  obtain ⟨started, hstarted, hrest⟩ := bind_ok_iff.mp hdocument
  obtain ⟨ended, hcalls, hpublish⟩ := bind_ok_iff.mp hrest
  exact ⟨started, ended, document, hstarted, hcalls, hpublish,
    ((published_playsBack hstarted hcalls).2 document hpublish).2⟩

end Discarded
end Stasis.Recording
