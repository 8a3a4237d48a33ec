import Stasis.Recording.Recorder

namespace Stasis.Recording

open Change
open Segment
open List

structure Session where
  pending : Option Frame
  completed : List (Frame × StateHash)

namespace Session

def empty : Session := ⟨none, []⟩

def step (session : Session) : Call → Session
  | .beginTick _ host => { session with pending := some host }
  | .finishTick hash =>
    match session.pending with
    | some host => ⟨none, session.completed ++ [(host, hash)]⟩
    | none => session
  | .discardTick _ => { session with pending := none }

/-- The ticks completed in a sequence of calls, with their inputs and state hashes. -/
def of (sequence : List Call) : Session := sequence.foldl step empty

end Session

structure ObservedFields (hostCount : ℕ) (fields : List Field) : Prop where
  slot : ∀ i (field : Field), fields[i]? = some field → field.slot = i
  inRange : ∀ field ∈ fields, field.index < hostCount
  sorted : fields.Pairwise fun a b => a.index < b.index

variable {size : Lanes ℕ}

lemma ObservedFields.length_le (h : ObservedFields hostCount fields) :
    fields.length ≤ hostCount := by
  have hnodup : (fields.map Field.index).Nodup :=
    pairwise_map.mpr (h.sorted.imp fun hlt => Nat.ne_of_lt hlt)
  have hsub : fields.map Field.index ⊆ range hostCount := by
    intro i hi
    obtain ⟨field, hfield, rfl⟩ := mem_map.mp hi
    exact mem_range.mpr (h.inRange field hfield)
  simpa using (List.Nodup.subperm hnodup hsub).length_le

lemma validateCompactFields_eq_ok {slot : ℕ}
    (h : validateCompactFields lane hostCount previous slot fields = .ok ()) :
    (∀ i field, fields[i]? = some field → field.slot = slot + i) ∧
      (∀ field ∈ fields, field.index < hostCount) ∧
      (fields.Pairwise fun a b => a.index < b.index) ∧
      ∀ p ∈ previous, ∀ field ∈ fields, p < field.index := by
  induction fields generalizing previous slot with
  | nil => exact ⟨by simp, by simp, .nil, by simp⟩
  | cons field fields ih =>
    simp only [validateCompactFields, unit_bind_ok_iff, check_eq_ok_iff] at h
    obtain ⟨hslot, hindex, hprev, -, -, hrest⟩ := h
    obtain ⟨hslots, hrange, hsor, habove⟩ := ih hrest
    have hfield : field.slot = slot := by simpa using hslot
    have hlt : field.index < hostCount := by simpa using hindex
    have habove' : ∀ p ∈ previous, p < field.index := by
      intro p hp
      rw [Option.mem_def] at hp
      simpa [hp] using hprev
    refine ⟨?_, ?_, ?_, ?_⟩
    · intro i f hf
      cases i with
      | zero =>
        cases hf
        exact hfield
      | succ i =>
        rw [hslots i f hf]
        omega
    · intro f hf
      obtain rfl | hf := mem_cons.mp hf
      · exact hlt
      · exact hrange f hf
    · exact pairwise_cons.mpr ⟨habove field.index rfl, hsor⟩
    · intro p hp f hf
      obtain rfl | hf := mem_cons.mp hf
      · exact habove' p hp
      · exact Nat.lt_trans (habove' p hp) (habove field.index rfl f hf)

lemma observedFields_of_validate (h : validateCompactFields lane hostCount none 0 fields = .ok ()) :
    ObservedFields hostCount fields := by
  obtain ⟨hslot, hrange, hsor, -⟩ := validateCompactFields_eq_ok h
  exact ⟨fun i field hfield => by simpa using hslot i field hfield, hrange, hsor⟩

lemma validateCompactChanges_of_canonical {changes : List (Change Word)}
    (h : Change.Canonical values changes) (hprev : ∀ p ∈ previous, ∀ c ∈ changes, p < c.slot) :
    validateCompactChanges lane segmentIndex values previous changes = .ok () := by
  induction changes generalizing previous with
  | nil => rfl
  | cons change changes ih =>
    obtain ⟨habove, hsor⟩ := pairwise_cons.mp h.sorted
    have hrange := h.inRange change (.head _)
    have heff := h.effective change (.head _)
    have hsor' : previous.any (change.slot ≤ ·) = false := by
      cases previous with
      | none => rfl
      | some p => simpa using hprev p rfl change (.head _)
    rw [validateCompactChanges, bind_ok (check_of_false (by simpa using hrange)),
      bind_ok (check_of_false hsor'),
      bind_ok (check_of_false (by simpa using heff))]
    refine ih ⟨hsor, ?_, ?_⟩ ?_
    · exact fun c hc => h.inRange c (.tail _ hc)
    · exact fun c hc => h.effective c (.tail _ hc)
    · intro p hp c hc
      cases hp
      exact habove c hc

/-- A segment as the recorder makes it, from the snapshot it starts from. -/
structure WellFormedSegment (snapshot : Frame) (segment : CompactInputSegment) : Prop where
  tickGap : segment.tickGap = 0
  runTicks : 0 < segment.runTicks
  i32 : Change.Canonical snapshot.i32 segment.changes.i32
  f32 : Change.Canonical snapshot.f32 segment.changes.f32

abbrev timeline (initial : Frame) (segments : List CompactInputSegment) : List Frame :=
  Segment.timeline applyCompactChanges initial segments

lemma timeline_append (initial : Frame) (segments rest : List CompactInputSegment) :
    timeline initial (segments ++ rest) = timeline initial segments ++
      timeline (Segment.final applyCompactChanges initial segments) rest :=
  Segment.timeline_append

abbrev WellFormedSegments (initial : Frame) (segments : List CompactInputSegment) : Prop :=
  Segment.Along applyCompactChanges WellFormedSegment initial segments

structure Sized (size : Lanes ℕ) (snapshot : Frame) : Prop where
  i32 : snapshot.i32.length = size.i32
  f32 : snapshot.f32.length = size.f32

lemma Sized.applyCompactChanges (h : Sized size snapshot) (changes : Lanes (List (Change Word))) :
    Sized size (applyCompactChanges snapshot changes) :=
  ⟨(length_applyAll _ _).trans h.i32, (length_applyAll _ _).trans h.f32⟩

lemma applyCompactChanges_compactDiff (hp : Sized size previous) (hc : Sized size current) :
    applyCompactChanges previous (compactDiff previous current) = current := by
  have hi32 := applyAll_diff (hp.i32.trans hc.i32.symm)
  have hf32 := applyAll_diff (hp.f32.trans hc.f32.symm)
  simp only [applyCompactChanges, compactDiff, hi32, hf32]

lemma length_timeline_cons (snapshot : Frame) (segment : CompactInputSegment)
    (segments : List CompactInputSegment) :
    (timeline snapshot (segment :: segments)).length = segment.tickGap + (segment.runTicks +
      (timeline (applyCompactChanges snapshot segment.changes) segments).length) := by
  simp only [Segment.timeline, length_append, length_replicate]

lemma validateCompactSegments_of_wellFormed (hsize : Sized size snapshot)
    (hi32 : size.i32 ≤ maxHostFrameValues) (hf32 : size.f32 ≤ maxHostFrameValues)
    (h : WellFormedSegments snapshot segments)
    (hend : cursor + (timeline snapshot segments).length ≤ totalTicks)
    (htotal : totalTicks ≤ maxReplayFrames) :
    validateCompactSegments totalTicks segmentIndex cursor snapshot segments =
      .ok (cursor + (timeline snapshot segments).length) := by
  induction segments generalizing segmentIndex cursor snapshot with
  | nil => rfl
  | cons segment segments ih =>
    obtain ⟨hseg, hrest⟩ := h
    have hcount := hseg.i32.length_le
    have hcount' := hseg.f32.length_le
    have hrun := hseg.runTicks
    rw [hsize.i32] at hcount
    rw [hsize.f32] at hcount'
    rw [length_timeline_cons, hseg.tickGap] at hend
    rw [maxReplayFrames] at htotal
    rw [maxHostFrameValues] at hi32 hf32
    have hchg : validateAndApplyCompactChanges snapshot segment segmentIndex =
        .ok (applyCompactChanges snapshot segment.changes) := by
      rw [validateAndApplyCompactChanges, validateCompactChanges_of_canonical hseg.i32 (by simp),
        validateCompactChanges_of_canonical hseg.f32 (by simp)]
      rfl
    have hfew : decide (segment.changes.i32.length + segment.changes.f32.length >
        maxCompactChangesPerSegment) = false := by
      simp only [maxCompactChangesPerSegment, maxHostFrameValues, gt_iff_lt,
        decide_eq_false_iff_not]
      omega
    have hins : decide (cursor + 0 + segment.runTicks > totalTicks) = false := by
      simp only [gt_iff_lt, decide_eq_false_iff_not]
      omega
    rw [validateCompactSegments, hseg.tickGap, bind_ok (check_of_false (by simp)),
      bind_ok (check_of_false (by simpa using Nat.ne_of_gt hrun)),
      bind_ok (checkedAdd_of_lt (by omega)), bind_ok (check_of_false hfew),
      bind_ok (checkedAdd_of_lt (by omega)),
      bind_ok (checkedAdd_of_lt (by omega)),
      bind_ok (check_of_false hins), bind_ok hchg,
      ih (hsize.applyCompactChanges _) hrest (by omega), length_timeline_cons, hseg.tickGap]
    congr 1
    omega

def checkpointsOf (hashes : List StateHash) : List CompactReplayCheckpoint :=
  (hashes.zipIdx 1).filterMap fun (x, tick) =>
    if tick % compactCheckpointInterval = 0 then some { tick := tick, stateSha256 := x.text }
    else none

lemma checkpointsOf_snoc (hashes : List StateHash) (x : StateHash) :
    checkpointsOf (hashes ++ [x]) = checkpointsOf hashes ++
      if (hashes.length + 1) % compactCheckpointInterval = 0 then
        [{ tick := hashes.length + 1, stateSha256 := x.text }]
      else [] := by
  rw [checkpointsOf, zipIdx_append, filterMap_append, Nat.add_comm 1]
  by_cases h : (hashes.length + 1) % compactCheckpointInterval = 0 <;> simp [checkpointsOf, h]

lemma length_checkpointsOf (hashes : List StateHash) :
    (checkpointsOf hashes).length = hashes.length / compactCheckpointInterval := by
  induction hashes using reverseRecOn with
  | nil => rfl
  | append_singleton hashes x ih =>
    rw [checkpointsOf_snoc, length_append, ih, length_append, length_singleton,
      compactCheckpointInterval]
    split
    · rw [length_singleton]
      omega
    · rw [length_nil]
      omega

lemma getElem?_checkpointsOf (h : (checkpointsOf hashes)[i]? = some checkpoint) :
    checkpoint.tick = (i + 1) * compactCheckpointInterval ∧
      ∃ x, hashes[checkpoint.tick - 1]? = some x ∧ checkpoint.stateSha256 = x.text := by
  induction hashes using reverseRecOn with
  | nil => simp [checkpointsOf] at h
  | append_singleton hashes x ih =>
    rw [checkpointsOf_snoc] at h
    by_cases hi : i < (checkpointsOf hashes).length
    · rw [List.getElem?_append_left hi] at h
      obtain ⟨htick, y, hy, hhash⟩ := ih h
      refine ⟨htick, y, ?_, hhash⟩
      rw [List.getElem?_append_left (List.getElem?_eq_some_iff.mp hy).1, hy]
    · rw [List.getElem?_append_right (by omega)] at h
      split at h
      · rename_i hmul
        obtain ⟨hzero, hche⟩ := List.getElem?_eq_some_iff.mp h
        rw [List.getElem_singleton] at hche
        subst hche
        rw [length_checkpointsOf] at hi hzero
        rw [length_singleton] at hzero
        refine ⟨?_, x, by simp, rfl⟩
        rw [compactCheckpointInterval] at hi hzero hmul ⊢
        dsimp only
        omega
      · cases h

lemma validateCompactCheckpoints_of_forall (h : ∀ i checkpoint, checkpoints[i]? = some checkpoint →
      checkpoint.tick = (index + i + 1) * compactCheckpointInterval ∧
        isCompactHash checkpoint.stateSha256 = true) :
    validateCompactCheckpoints index checkpoints = .ok () := by
  induction checkpoints generalizing index with
  | nil => rfl
  | cons checkpoint checkpoints ih =>
    obtain ⟨htick, hhash⟩ := h 0 checkpoint rfl
    rw [validateCompactCheckpoints, bind_ok (check_of_false (by simp [htick])),
      bind_ok (validateCompactHash_of_isCompactHash hhash)]
    refine ih fun i c hc => ?_
    rw [Nat.add_right_comm index 1 i]
    exact h (i + 1) c hc

lemma validateCompactCheckpoints_checkpointsOf (hashes : List StateHash) :
    validateCompactCheckpoints 0 (checkpointsOf hashes) = .ok () := by
  refine validateCompactCheckpoints_of_forall fun i checkpoint h => ?_
  obtain ⟨htick, x, -, hhash⟩ := getElem?_checkpointsOf h
  rw [Nat.zero_add, hhash]
  exact ⟨htick, x.wellFormed⟩

structure Untouched (recorder : CompactReplayRecorder) : Prop where
  previousInput : recorder.previousInput = none
  activeSnapshot : recorder.activeSnapshot = none
  activeSegment : recorder.activeSegment = none
  segments : recorder.document.segments = []

/-- The inputs up to `last` are the timeline of the segments and the one under way. -/
structure Holds (size : Lanes ℕ) (recorder : CompactReplayRecorder) (inputs : List Frame)
    (last : Frame) (segment : CompactInputSegment) : Prop where
  previousInput : recorder.previousInput = some last
  activeSnapshot : recorder.activeSnapshot = some last
  activeSegment : recorder.activeSegment = some segment
  initialSized : Sized size recorder.document.initialInput
  lastSized : Sized size last
  timeline : timeline recorder.document.initialInput (recorder.document.segments ++ [segment]) =
    inputs
  final : Segment.final applyCompactChanges recorder.document.initialInput
    (recorder.document.segments ++ [segment]) = last
  wellFormed : WellFormedSegments recorder.document.initialInput
    (recorder.document.segments ++ [segment])

lemma Untouched.of_same (h : Untouched recorder)
    (hprev : recorder'.previousInput = recorder.previousInput)
    (hsnap : recorder'.activeSnapshot = recorder.activeSnapshot)
    (hseg : recorder'.activeSegment = recorder.activeSegment)
    (hsegm : recorder'.document.segments = recorder.document.segments) :
    Untouched recorder' :=
  ⟨hprev.trans h.previousInput, hsnap.trans h.activeSnapshot,
    hseg.trans h.activeSegment, hsegm.trans h.segments⟩

lemma Holds.of_same {segment : CompactInputSegment} (h : Holds size recorder inputs last segment)
    (hprev : recorder'.previousInput = recorder.previousInput)
    (hsnap : recorder'.activeSnapshot = recorder.activeSnapshot)
    (hseg : recorder'.activeSegment = recorder.activeSegment)
    (hinit : recorder'.document.initialInput = recorder.document.initialInput)
    (hsegm : recorder'.document.segments = recorder.document.segments) :
    Holds size recorder' inputs last segment := by
  refine ⟨hprev.trans h.previousInput, hsnap.trans h.activeSnapshot,
    hseg.trans h.activeSegment, ?_, h.lastSized, ?_, ?_, ?_⟩
  all_goals rw [hinit]
  · exact h.initialSized
  all_goals rw [hsegm]
  · exact h.timeline
  · exact h.final
  · exact h.wellFormed

/-- The recorder holds the completed ticks, given by their snapshots and hashes. -/
structure Records (size : Lanes ℕ) (recorder : CompactReplayRecorder)
    (done : List (Frame × StateHash)) : Prop where
  totalTicks : recorder.document.totalTicks = done.length
  limit : done.length ≤ maxReplayFrames
  finalState : ∀ x ∈ done.getLast?,
    recorder.document.finalState = { tick := done.length, stateSha256 := x.2.text }
  checkpoints : recorder.document.checkpoints = checkpointsOf (done.map Prod.snd)
  inputs : done = [] ∧ Untouched recorder ∨
    ∃ last segment, Holds size recorder (done.map Prod.fst) last segment

lemma Records.with_pending (h : Records size recorder done) (pending : Option CompactPendingTick) :
    Records size { recorder with pending := pending } done := by
  refine ⟨h.totalTicks, h.limit, h.finalState, h.checkpoints, ?_⟩
  obtain ⟨hnil, hu⟩ | ⟨last, segment, hh⟩ := h.inputs
  · exact .inl ⟨hnil, hu.of_same rfl rfl rfl rfl⟩
  · exact .inr ⟨last, segment, hh.of_same rfl rfl rfl rfl rfl⟩

namespace CompactReplayRecorder

variable {recorder recorder' : CompactReplayRecorder}

lemma reserveCompactBytes_eq_ok
    (h : recorder.reserveCompactBytes additional label = .ok recorder') :
    ∃ bytes, recorder' = { recorder with encodedBytes := bytes } := by
  obtain ⟨next, -, h⟩ := bind_ok_iff.mp h
  obtain ⟨-, -, h⟩ := bind_ok_iff.mp h
  exact ⟨next, (pure_ok_iff.mp h).symm⟩

lemma flushCompactSegment_of_none (h : recorder.activeSegment = none) :
    recorder.flushCompactSegment codec = .ok recorder := by
  rw [flushCompactSegment, h]
  rfl

lemma flushCompactSegment_eq_ok {segment : CompactInputSegment}
    (hact : recorder.activeSegment = some segment)
    (h : recorder.flushCompactSegment codec = .ok recorder') :
    ∃ bytes, recorder' = { recorder with
      encodedBytes := bytes
      activeSegment := none
      activeSnapshot := none
      document := { recorder.document with
        segments := recorder.document.segments ++ [segment] } } := by
  rw [flushCompactSegment, hact] at h
  obtain ⟨-, -, h⟩ := bind_ok_iff.mp h
  obtain ⟨reserved, hres, h⟩ := bind_ok_iff.mp h
  obtain ⟨bytes, rfl⟩ := reserveCompactBytes_eq_ok hres
  exact ⟨bytes, (pure_ok_iff.mp h).symm⟩

/-- All of the recorder but the segments and the input they follow. -/
structure SameTicks (recorder recorder' : CompactReplayRecorder) : Prop where
  pending : recorder'.pending = recorder.pending
  schemaVersion : recorder'.document.schemaVersion = recorder.document.schemaVersion
  identity : recorder'.document.identity = recorder.document.identity
  initialState : recorder'.document.initialState = recorder.document.initialState
  checkpoints : recorder'.document.checkpoints = recorder.document.checkpoints

lemma appendCompactInput_holds (h : recorder.appendCompactInput codec input = .ok recorder')
    (hsize : Sized size input)
    (hr : inputs = [] ∧ Untouched recorder ∧ recorder.document.initialInput = input ∨
      ∃ last segment, Holds size recorder inputs last segment) :
    SameTicks recorder recorder' ∧
      ∃ segment, Holds size recorder' (inputs ++ [input]) input segment := by
  obtain ⟨rfl, hr, hinit⟩ | ⟨last, segment, hr⟩ := hr
  · rw [appendCompactInput, if_neg (by simp [hr.activeSnapshot]),
      bind_ok (flushCompactSegment_of_none hr.activeSegment), hr.previousInput] at h
    obtain rfl := pure_ok_iff.mp h
    refine ⟨⟨rfl, rfl, rfl, rfl, rfl⟩, _, rfl, rfl, rfl, ?_, hsize, ?_, ?_, ?_⟩
    · exact hinit ▸ hsize
    all_goals dsimp only; rw [hr.segments, hinit]
    · rfl
    · rfl
    · exact ⟨⟨rfl, Nat.one_pos, canonical_nil _, canonical_nil _⟩, trivial⟩
  · by_cases hsame : last = input
    · subst hsame
      rw [appendCompactInput, if_pos hr.activeSnapshot, hr.activeSegment] at h
      obtain ⟨runTicks, hrun, h⟩ := bind_ok_iff.mp h
      obtain rfl := checkedAdd_eq_ok hrun
      obtain rfl := pure_ok_iff.mp h
      refine ⟨⟨rfl, rfl, rfl, rfl, rfl⟩, _, by rw [hr.previousInput]; rfl, hr.activeSnapshot, rfl,
        hr.initialSized, hsize, ?_, ?_, ?_⟩
      · rw [← hr.timeline]
        conv_rhs => rw [← hr.final]
        exact timeline_extend
      · have hfinal := hr.final
        rw [final_append] at hfinal ⊢
        exact hfinal
      · have hwell := along_append.mp hr.wellFormed
        refine along_append.mpr ⟨hwell.1, ⟨?_, Nat.succ_pos _, ?_, ?_⟩, trivial⟩
        · exact hwell.2.1.tickGap
        · exact hwell.2.1.i32
        · exact hwell.2.1.f32
    · rw [appendCompactInput, if_neg (by simp [hr.activeSnapshot, hsame])] at h
      obtain ⟨flushed, hflush, h⟩ := bind_ok_iff.mp h
      obtain ⟨bytes, rfl⟩ := flushCompactSegment_eq_ok hr.activeSegment hflush
      dsimp only at h
      rw [hr.previousInput] at h
      obtain rfl := pure_ok_iff.mp h
      have hnext := applyCompactChanges_compactDiff hr.lastSized hsize
      refine ⟨⟨rfl, rfl, rfl, rfl, rfl⟩, _, rfl, rfl, rfl, hr.initialSized, hsize, ?_, ?_, ?_⟩
      · refine (timeline_snoc _).trans ?_
        rw [hr.final, hnext]
        exact congrArg (· ++ [input]) hr.timeline
      · dsimp only
        rw [final_append, hr.final]
        exact hnext
      · refine along_append.mpr ⟨hr.wellFormed, ⟨rfl, Nat.one_pos, ?_, ?_⟩, trivial⟩
        all_goals
          dsimp only
          rw [hr.final]
          exact diff_canonical _ _

lemma setBaseline_eq_ok (h : recorder.setBaseline codec input = .ok recorder') :
    (recorder.previousInput = none ∧ ∃ bytes, recorder' = { recorder with
      encodedBytes := bytes
      document := { recorder.document with initialInput := input } }) ∨
    (recorder.previousInput ≠ none ∧ recorder' = recorder) := by
  rw [setBaseline] at h
  split at h
  · rename_i hnone
    obtain ⟨bytes, rfl⟩ := reserveCompactBytes_eq_ok h
    exact .inl ⟨Option.isNone_iff_eq_none.mp hnone, bytes, rfl⟩
  · rename_i hsome
    refine .inr ⟨fun hnone => hsome ?_, (pure_ok_iff.mp h).symm⟩
    rw [hnone]
    rfl

lemma addCheckpoint_eq_ok (h : recorder.addCheckpoint codec checkpoint = .ok recorder') :
    ∃ bytes, recorder' = { recorder with
      encodedBytes := bytes
      document := { recorder.document with
        checkpoints := recorder.document.checkpoints ++ [checkpoint] } } := by
  obtain ⟨-, -, h⟩ := bind_ok_iff.mp h
  obtain ⟨reserved, hres, h⟩ := bind_ok_iff.mp h
  obtain ⟨bytes, rfl⟩ := reserveCompactBytes_eq_ok hres
  exact ⟨bytes, (pure_ok_iff.mp h).symm⟩

lemma setBaseline_ready
    (h : recorder.setBaseline codec input = .ok recorder') (hr : Records size recorder done) :
    SameTicks recorder recorder' ∧
      (done.map Prod.fst = [] ∧ Untouched recorder' ∧ recorder'.document.initialInput = input ∨
        ∃ last segment, Holds size recorder' (done.map Prod.fst) last segment) := by
  obtain ⟨hnone, bytes, rfl⟩ | ⟨hsome, rfl⟩ := setBaseline_eq_ok h
  · refine ⟨⟨rfl, rfl, rfl, rfl, rfl⟩, .inl ?_⟩
    obtain ⟨rfl, hu⟩ | ⟨last, segment, hh⟩ := hr.inputs
    · exact ⟨rfl, hu.of_same rfl rfl rfl rfl, rfl⟩
    · rw [hh.previousInput] at hnone
      cases hnone
  · refine ⟨⟨rfl, rfl, rfl, rfl, rfl⟩, .inr ?_⟩
    obtain ⟨-, hu⟩ | hh := hr.inputs
    · exact absurd hu.previousInput hsome
    · exact hh

lemma finishTick_records {hash : StateHash} {pending : CompactPendingTick}
    (h : recorder.finishTick codec hash = .ok recorder') (hpend : recorder.pending = some pending)
    (htick : pending.tick = done.length + 1) (hroom : done.length < maxReplayFrames)
    (hsize : Sized size pending.input) (hr : Records size recorder done) :
    recorder'.pending = none ∧
      recorder'.document.schemaVersion = recorder.document.schemaVersion ∧
      recorder'.document.identity = recorder.document.identity ∧
      recorder'.document.initialState = recorder.document.initialState ∧
      Records size recorder' (done ++ [(pending.input, hash)]) := by
  rw [finishTick, hpend] at h
  obtain ⟨based, hbased, h⟩ := bind_ok_iff.mp h
  obtain ⟨appended, happ, h⟩ := bind_ok_iff.mp h
  obtain ⟨hsame, hinp⟩ := setBaseline_ready hbased (hr.with_pending none)
  obtain ⟨hsame', segment, hh⟩ := appendCompactInput_holds happ hsize hinp
  have hchecks : appended.document.checkpoints = checkpointsOf (done.map Prod.snd) :=
    (hsame'.checkpoints.trans hsame.checkpoints).trans hr.checkpoints
  have hlast : ∀ x ∈ (done ++ [(pending.input, hash)]).getLast?,
      ({ tick := pending.tick, stateSha256 := hash.text } : CompactReplayCheckpoint) =
        { tick := (done ++ [(pending.input, hash)]).length, stateSha256 := x.2.text } := by
    intro x hx
    rw [getLast?_concat, Option.mem_some_iff] at hx
    rw [← hx, htick, length_append, length_singleton]
  have hlen : done.length + 1 = (done ++ [(pending.input, hash)]).length := by simp
  have hholds : Holds size appended ((done ++ [(pending.input, hash)]).map Prod.fst)
      pending.input segment := by
    rw [map_append]
    exact hh
  have hsnoc := checkpointsOf_snoc (done.map Prod.snd) hash
  rw [length_map, ← htick, ← hchecks] at hsnoc
  split at h <;> rename_i hmul
  on_goal 1 => obtain ⟨bytes, rfl⟩ := addCheckpoint_eq_ok h
  on_goal 2 => obtain rfl := pure_ok_iff.mp h
  all_goals
    refine ⟨hsame'.pending.trans hsame.pending, hsame'.schemaVersion.trans hsame.schemaVersion,
      hsame'.identity.trans hsame.identity, hsame'.initialState.trans hsame.initialState,
      htick.trans hlen, hlen ▸ hroom, hlast, ?_,
      .inr ⟨_, segment, hholds.of_same rfl rfl rfl rfl rfl⟩⟩
    simp [hsnoc, hmul]

end CompactReplayRecorder
def snapshotOf (observed : Lanes (List Field)) (host : Frame) : Frame where
  i32 := observed.i32.map fun field => host.i32.getD field.index 0
  f32 := observed.f32.map fun field => host.f32.getD field.index 0

def observedSize (observed : Lanes (List Field)) : Lanes ℕ where
  i32 := observed.i32.length
  f32 := observed.f32.length

lemma observe_eq_ok (h : observe lane fields host = .ok values) :
    values = fields.map fun field => host.getD field.index 0 := by
  have hval := mapM_eq_ok_iff.mp h
  clear h
  induction hval with
  | nil => rfl
  | cons hfield _ ih =>
    rw [map_cons, ← ih]
    split at hfield
    · rename_i value hvalue
      rw [getD_eq_getElem?_getD, hvalue, pure_ok_iff.mp hfield]
      rfl
    · cases hfield

lemma compactSnapshotFromHost_eq_ok (h : compactSnapshotFromHost identity host = .ok snapshot) :
    Sized identity.hostCount host ∧ snapshot = snapshotOf identity.observed host := by
  obtain ⟨_, hsize, h⟩ := bind_ok_iff.mp h
  obtain ⟨i32Values, hi32, h⟩ := bind_ok_iff.mp h
  obtain ⟨f32Bits, hf32, h⟩ := bind_ok_iff.mp h
  obtain rfl := pure_ok_iff.mp h
  obtain rfl := observe_eq_ok hi32
  obtain rfl := observe_eq_ok hf32
  have hsizes := check_eq_ok_iff.mp hsize
  simp only [Bool.or_eq_false_iff, bne_eq_false_iff_eq] at hsizes
  exact ⟨⟨hsizes.1, hsizes.2⟩, rfl⟩

/-- The completed ticks of a session as a compact recorder sees them. -/
def recorded (observed : Lanes (List Field)) (session : Session) : List (Frame × StateHash) :=
  session.completed.map fun x => (snapshotOf observed x.1, x.2)

/-- A compact recorder started with the given document follows the session. -/
structure Tracks (header : CompactReplayDocumentV3) (recorder : CompactReplayRecorder)
    (session : Session) : Prop where
  schemaVersion : recorder.document.schemaVersion = header.schemaVersion
  identity : recorder.document.identity = header.identity
  initialState : recorder.document.initialState = header.initialState
  records : Records (observedSize header.identity.compatibility.observed) recorder
    (recorded header.identity.compatibility.observed session)
  pending : recorder.pending = session.pending.map fun host =>
    { tick := session.completed.length + 1
      input := snapshotOf header.identity.compatibility.observed host }
  room : session.pending.isSome → session.completed.length < maxReplayFrames
  pendingSized : ∀ host ∈ session.pending, Sized header.identity.compatibility.hostCount host
  completedSized : ∀ x ∈ session.completed,
    Sized header.identity.compatibility.hostCount x.1

namespace Tracks

lemma length_recorded (observed : Lanes (List Field)) (session : Session) :
    (recorded observed session).length = session.completed.length :=
  length_map _

variable (h : Tracks header recorder session)
include h

lemma beginTick (hcall : recorder.beginTick tick host = .ok recorder') :
    Tracks header recorder' (session.step (.beginTick tick host)) := by
  obtain ⟨_, hroom, hcall⟩ := bind_ok_iff.mp hcall
  obtain ⟨_, -, hcall⟩ := bind_ok_iff.mp hcall
  obtain ⟨expected, hexpected, hcall⟩ := bind_ok_iff.mp hcall
  obtain ⟨_, htick, hcall⟩ := bind_ok_iff.mp hcall
  obtain ⟨input, hinput, hcall⟩ := bind_ok_iff.mp hcall
  obtain rfl := pure_ok_iff.mp hcall
  have htotal := h.records.totalTicks
  rw [length_recorded] at htotal
  rw [h.identity] at hinput
  obtain ⟨hsized, rfl⟩ := compactSnapshotFromHost_eq_ok hinput
  have htick' : tick = session.completed.length + 1 := by
    have heq : tick = expected := by simpa using check_eq_ok_iff.mp htick
    rw [heq, checkedAdd_eq_ok hexpected, htotal]
  have hroom' : session.completed.length < maxReplayFrames := by
    have hlt := check_eq_ok_iff.mp hroom
    rw [htotal] at hlt
    simpa using hlt
  refine ⟨h.schemaVersion, h.identity, h.initialState, h.records.with_pending _, ?_,
    fun _ => hroom', ?_, h.completedSized⟩
  · rw [htick']
    rfl
  · intro host' hhost
    cases hhost
    exact hsized

lemma finishTick {hash : StateHash} (hcall : recorder.finishTick codec hash = .ok recorder') :
    Tracks header recorder' (session.step (.finishTick hash)) := by
  have hpend := h.pending
  cases hp : session.pending <;> rw [hp] at hpend
  case none =>
    rw [CompactReplayRecorder.finishTick, hpend] at hcall
    cases hcall
  case some host =>
    have hroom : (recorded header.identity.compatibility.observed session).length <
        maxReplayFrames := by
      rw [length_recorded]
      exact h.room (by rw [hp]; rfl)
    obtain ⟨hdone, hver, hident, hinit, hrec⟩ :=
      CompactReplayRecorder.finishTick_records hcall hpend (by rw [length_recorded]) hroom
        (⟨length_map _, length_map _⟩ : Sized (observedSize _) _) h.records
    rw [Session.step, hp]
    refine ⟨hver.trans h.schemaVersion, hident.trans h.identity,
      hinit.trans h.initialState, ?_, hdone, by simp, by simp, ?_⟩
    · rw [recorded, map_append]
      exact hrec
    · intro x hx
      obtain hx | hx := mem_append.mp hx
      · exact h.completedSized x hx
      · rw [mem_singleton.mp hx]
        exact h.pendingSized host hp

lemma discardTick (hcall : recorder.discardTick tick = .ok recorder') :
    Tracks header recorder' (session.step (.discardTick tick)) := by
  rw [CompactReplayRecorder.discardTick] at hcall
  split at hcall
  · obtain rfl := pure_ok_iff.mp hcall
    exact ⟨h.schemaVersion, h.identity, h.initialState, h.records.with_pending none, rfl,
      by simp [Session.step], by simp [Session.step], h.completedSized⟩
  · cases hcall

lemma call (hcall : recorder.call codec c = .ok recorder') :
    Tracks header recorder' (session.step c) := by
  cases c with
  | beginTick tick host => exact h.beginTick hcall
  | finishTick hash => exact h.finishTick hcall
  | discardTick tick => exact h.discardTick hcall

end Tracks
end Stasis.Recording
