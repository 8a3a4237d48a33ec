import Stasis.Recording.Invariant
import Stasis.Recording.Player

namespace Stasis.Recording

open List

structure Standing (initial : Frame) (before : List CompactInputSegment)
    (segment : CompactInputSegment) (cursor : CompactCursor) (tick : ℕ) : Prop where
  segmentIndex : cursor.segmentIndex = before.length
  segmentCursor : cursor.segmentCursor = (timeline initial before).length
  started : cursor.segmentCursor ≤ tick
  within : tick ≤ cursor.segmentCursor + segment.tickGap + segment.runTicks
  segmentApplied : cursor.segmentApplied = decide (cursor.segmentCursor + segment.tickGap < tick)
  snapshot : cursor.snapshot =
    if cursor.segmentApplied then
      applyCompactChanges (Segment.final applyCompactChanges initial before) segment.changes
    else Segment.final applyCompactChanges initial before

def Synced (initial : Frame) (segments : List CompactInputSegment) (cursor : CompactCursor)
    (tick : ℕ) : Prop :=
  ∃ before segment after, segments = before ++ segment :: after ∧
    Standing initial before segment cursor tick

variable {initial : Frame} {before after : List CompactInputSegment}
  {segment : CompactInputSegment} {cursor : CompactCursor} {tick : ℕ} {next : Frame}

lemma getElem?_timeline_gap (h : (timeline initial before).length ≤ tick)
    (hlt : tick < (timeline initial before).length + segment.tickGap) :
    (timeline initial (before ++ segment :: after))[tick]? =
      some (Segment.final applyCompactChanges initial before) := by
  rw [timeline_append, List.getElem?_append_right h, timeline, Segment.timeline,
    List.getElem?_append_left (by rw [length_replicate]; omega),
    List.getElem?_replicate_of_lt (by omega)]

lemma getElem?_timeline_run (h : (timeline initial before).length + segment.tickGap ≤ tick)
    (hlt : tick < (timeline initial before).length + segment.tickGap + segment.runTicks) :
    (timeline initial (before ++ segment :: after))[tick]? =
      some (applyCompactChanges (Segment.final applyCompactChanges initial before)
        segment.changes) := by
  rw [timeline_append, List.getElem?_append_right (by omega), timeline, Segment.timeline,
    List.getElem?_append_right (by rw [length_replicate]; omega), length_replicate,
    List.getElem?_append_left (by rw [length_replicate]; omega),
    List.getElem?_replicate_of_lt (by omega)]

lemma length_timeline_through : (timeline initial (before ++ [segment])).length =
    (timeline initial before).length + segment.tickGap + segment.runTicks := by
  rw [timeline_append, length_append, length_timeline_cons]
  simp only [Segment.timeline, length_nil]
  omega

lemma length_timeline_le : (timeline initial before).length ≤
    (timeline initial (before ++ after)).length := by
  rw [timeline_append, length_append]
  exact Nat.le_add_right _ _

lemma advanceFrom_within (h : Standing initial before segment cursor tick)
    (hlt : tick < cursor.segmentCursor + segment.tickGap + segment.runTicks)
    (hbound : cursor.segmentCursor + segment.tickGap + segment.runTicks < 2 ^ 64)
    (hnext : (timeline initial (before ++ segment :: after))[tick]? = some next) :
    ∃ cursor', advanceFrom (tick + 1) (segment :: after) cursor = .ok cursor' ∧
      cursor'.snapshot = next ∧ Standing initial before segment cursor' (tick + 1) := by
  have hstart := h.started
  have hcur := h.segmentCursor
  rw [advanceFrom, bind_ok (checkedAdd_of_lt (by omega))]
  by_cases hgap : tick + 1 ≤ cursor.segmentCursor + segment.tickGap
  · have hfresh : cursor.segmentApplied = false := by
      rw [h.segmentApplied, decide_eq_false_iff_not]
      omega
    have hvalue := h.snapshot
    rw [hfresh, if_neg Bool.false_ne_true] at hvalue
    rw [getElem?_timeline_gap (by omega) (by omega)] at hnext
    refine ⟨cursor, if_pos hgap, hvalue.trans (Option.some.inj hnext), h.segmentIndex, hcur,
      by omega, by omega, ?_, h.snapshot⟩
    rw [hfresh, eq_comm, decide_eq_false_iff_not]
    omega
  · rw [if_neg hgap, bind_ok (checkedAdd_of_lt hbound), if_pos (by omega)]
    rw [getElem?_timeline_run (by omega) (by omega)] at hnext
    have hrun : true = decide (cursor.segmentCursor + segment.tickGap < tick + 1) := by
      rw [eq_comm, decide_eq_true_iff]
      omega
    cases happ : cursor.segmentApplied with
    | true =>
      have hvalue := h.snapshot
      rw [happ, if_pos rfl] at hvalue
      exact ⟨cursor, rfl, hvalue.trans (Option.some.inj hnext), h.segmentIndex, hcur, by omega,
        by omega, happ.trans hrun, h.snapshot⟩
    | false =>
      have hvalue := h.snapshot
      rw [happ, if_neg Bool.false_ne_true] at hvalue
      refine ⟨_, rfl, ?_, h.segmentIndex, hcur, by dsimp only; omega, by dsimp only; omega,
        hrun, ?_⟩
      · dsimp only
        rw [hvalue]
        exact Option.some.inj hnext
      · dsimp only
        rw [hvalue, if_pos rfl]

lemma Standing.next_segment (following : CompactInputSegment)
    (h : Standing initial before segment cursor tick) (hrun : 0 < segment.runTicks)
    (hend : tick = cursor.segmentCursor + segment.tickGap + segment.runTicks) :
    Standing initial (before ++ [segment]) following
      { cursor with
        segmentIndex := cursor.segmentIndex + 1
        segmentCursor := cursor.segmentCursor + segment.tickGap + segment.runTicks
        segmentApplied := false } tick := by
  have happ : cursor.segmentApplied = true := by
    rw [h.segmentApplied, decide_eq_true_iff]
    omega
  have hvalue := h.snapshot
  rw [happ, if_pos rfl] at hvalue
  refine ⟨?_, ?_, by dsimp only; omega, by dsimp only; omega, ?_, ?_⟩
  · dsimp only
    rw [h.segmentIndex, length_append, length_singleton]
  · rw [length_timeline_through, h.segmentCursor]
  · rw [eq_comm, decide_eq_false_iff_not]
    dsimp only
    omega
  · dsimp only
    rw [if_neg Bool.false_ne_true, hvalue, Segment.final_append]
    rfl

lemma advanceCompactSnapshot_synced (hruns : ∀ s ∈ document.segments, 0 < s.runTicks)
    (hbound : (timeline initial document.segments).length < 2 ^ 64)
    (h : Synced initial document.segments cursor tick)
    (hnext : (timeline initial document.segments)[tick]? = some next) :
    ∃ cursor', advanceCompactSnapshot document (tick + 1) cursor = .ok cursor' ∧
      cursor'.snapshot = next ∧ Synced initial document.segments cursor' (tick + 1) := by
  obtain ⟨before, segment, after, hseg, hs⟩ := h
  have hcur := hs.segmentCursor
  have hlen : (timeline initial (before ++ [segment])).length ≤
      (timeline initial document.segments).length := by
    rw [hseg, append_cons before segment after]
    exact length_timeline_le
  rw [length_timeline_through] at hlen
  rw [advanceCompactSnapshot, hs.segmentIndex, hseg, drop_left]
  rw [hseg] at hnext hbound hruns hlen
  by_cases hlt : tick < cursor.segmentCursor + segment.tickGap + segment.runTicks
  · obtain ⟨cursor', hadv, hvalue, hs'⟩ := advanceFrom_within hs hlt (by omega) hnext
    exact ⟨cursor', hadv, hvalue, before, segment, after, rfl, hs'⟩
  · have hwit := hs.within
    have hend : tick = cursor.segmentCursor + segment.tickGap + segment.runTicks := by omega
    rw [append_cons before segment after] at hnext
    -- the timeline goes on, so there is another segment
    rcases after with _ | ⟨following, after⟩
    · rw [append_nil, List.getElem?_eq_none (by rw [length_timeline_through]; omega)] at hnext
      cases hnext
    have hrun := hruns segment (by simp)
    have hrun' := hruns following (by simp)
    have hs' := hs.next_segment following hrun hend
    have hlen' : (timeline initial (before ++ [segment] ++ [following])).length ≤
        (timeline initial (before ++ segment :: following :: after)).length := by
      rw [append_cons before segment (following :: after),
        append_cons (before ++ [segment]) following after]
      exact length_timeline_le
    rw [length_timeline_through, length_timeline_through] at hlen'
    obtain ⟨cursor', hadv, hvalue, hs''⟩ :=
      advanceFrom_within hs' (by dsimp only; omega) (by dsimp only; omega) hnext
    refine ⟨cursor', ?_, hvalue, before ++ [segment], following, after, ?_, hs''⟩
    · rw [advanceFrom, bind_ok (checkedAdd_of_lt (by omega)), if_neg (by omega),
        bind_ok (checkedAdd_of_lt (by omega)), if_neg (by omega)]
      exact hadv
    · exact append_cons before segment _

/-- The values at observed indices, and zero at the others. -/
def maskLane (fields : List Field) (values : List Word) : List Word :=
  values.mapIdx fun i value => if fields.any (·.index == i) then value else 0

def suppliedFrame (observed : Lanes (List Field)) (host : Frame) : Frame where
  i32 := maskLane observed.i32 host.i32
  f32 := maskLane observed.f32 host.f32

variable {lane : String} {fields : List Field} {hostCount n : ℕ} {values : List Word}
  {checkpoints : List CompactReplayCheckpoint}

lemma writeObserved_eq_ok (h : ∀ field ∈ fields, field.index < host.length) :
    writeObserved lane snapshot host fields = .ok (Change.applyAll host (fields.map fun field =>
        { slot := field.index, value := snapshot.getD field.slot 0 })) := by
  induction fields generalizing host with
  | nil => rfl
  | cons field fields ih =>
    have hfield := h field (.head _)
    rw [writeObserved, bind_ok (check_of_false (by simpa using hfield)), ih]
    · rfl
    · intro f hf
      rw [length_set]
      exact h f (.tail _ hf)

/-- A host lane that shows an input: the observed fields have the values of their slots,
and everything else is zero. -/
structure ShowsLane (hostCount : ℕ) (fields : List Field) (values lane : List Word) : Prop where
  length : lane.length = hostCount
  observed : ∀ field ∈ fields, field.slot < values.length ∧
    lane[field.index]? = values[field.slot]?
  unobserved : ∀ i < hostCount, (∀ field ∈ fields, field.index ≠ i) → lane[i]? = some 0

lemma writeObserved_shows (lane : String) (hfie : ObservedFields hostCount fields)
    (hsize : values.length = fields.length) :
    ∃ shown, writeObserved lane values (replicate hostCount 0) fields = .ok shown ∧
      ShowsLane hostCount fields values shown := by
  refine ⟨_, writeObserved_eq_ok (by simpa using hfie.inRange), by simp, ?_, ?_⟩
  · intro field hfield
    obtain ⟨k, hk⟩ := List.getElem?_of_mem hfield
    have hlt : field.slot < values.length := by
      rw [hfie.slot k field hk, hsize]
      exact (List.getElem?_eq_some_iff.mp hk).1
    have hslots : (fields.map fun f => (⟨f.index, values.getD f.slot 0⟩ : Change Word)).Pairwise
        fun c d => c.slot ≠ d.slot :=
      pairwise_map.mpr (hfie.sorted.imp fun h => Nat.ne_of_lt h)
    have hwri := Change.getElem?_applyAll_of_mem hslots (mem_map_of_mem hfield)
      (show field.index < (replicate hostCount (0 : Word)).length by
        simpa using hfie.inRange field hfield)
    exact ⟨hlt, hwri.trans (by simp [hlt])⟩
  · intro i hi hne
    rw [Change.getElem?_applyAll_of_forall_ne, List.getElem?_replicate_of_lt hi]
    intro c hc
    obtain ⟨field, hfield, rfl⟩ := mem_map.mp hc
    exact hne field hfield

lemma writeObserved_observed (hfie : ObservedFields hostCount fields)
    (hsize : values.length = hostCount) :
    writeObserved lane (fields.map fun field => values.getD field.index 0)
      (replicate hostCount 0) fields = .ok (maskLane fields values) := by
  obtain ⟨shown, hwri, hshows⟩ := writeObserved_shows lane hfie (length_map _)
  refine hwri.trans (congrArg Except.ok (ext_getElem? fun i => ?_))
  rw [maskLane, List.getElem?_mapIdx]
  by_cases hlt : i < hostCount
  · have hvalue : values[i]? = some values[i] := List.getElem?_eq_getElem (hsize ▸ hlt)
    rw [hvalue, Option.map_some]
    by_cases hi : ∃ field ∈ fields, field.index = i
    · obtain ⟨field, hfield, rfl⟩ := hi
      obtain ⟨k, hk⟩ := List.getElem?_of_mem hfield
      rw [(hshows.observed field hfield).2, hfie.slot k field hk,
        if_pos (any_eq_true.mpr ⟨field, hfield, by simp⟩)]
      simp [hk, hvalue]
    · push Not at hi
      rw [hshows.unobserved i hlt hi, if_neg (by simpa using hi)]
  · rw [List.getElem?_eq_none (by rw [hshows.length]; omega), List.getElem?_eq_none (by omega)]
    rfl

lemma skipCheckpoints_of_forall {next : ℕ}
    (h : ∀ checkpoint, checkpoints[next]? = some checkpoint → skip checkpoint.tick = false) :
    skipCheckpoints checkpoints skip next = next := by
  rw [skipCheckpoints]
  cases hrest : checkpoints.drop next with
  | nil => rfl
  | cons checkpoint rest =>
    have hhead : checkpoints[next]? = some checkpoint := by
      rw [← Nat.add_zero next, ← List.getElem?_drop, hrest]
      rfl
    rw [takeWhile_cons_of_neg (by simp [h checkpoint hhead])]
    rfl

lemma skipCheckpoints_all {next : ℕ} (h : ∀ checkpoint ∈ checkpoints, skip checkpoint.tick = true)
    (hnext : next ≤ checkpoints.length) :
    skipCheckpoints checkpoints skip next = checkpoints.length := by
  rw [skipCheckpoints, takeWhile_eq_self_iff.mpr fun c hc => h c (mem_of_mem_drop hc), length_drop]
  omega

def Compared (total tick : ℕ) : Prop := tick % compactCheckpointInterval = 0 ∨ tick = total

instance (total tick : ℕ) : Decidable (Compared total tick) := by
  unfold Compared
  infer_instance

lemma compactExpectedCheckpoint_eq {hash : StateHash}
    (hchecks : document.checkpoints = checkpointsOf hashes) (hfinal : ∀ last ∈ hashes.getLast?,
      document.finalState = { tick := hashes.length, stateSha256 := last.text })
    (hhash : hashes[tick]? = some hash) :
    compactExpectedCheckpoint document (tick + 1) (tick / compactCheckpointInterval) =
      (if Compared hashes.length (tick + 1) then some hash.text else none,
        (tick + 1) / compactCheckpointInterval) := by
  obtain ⟨hlt, rfl⟩ := List.getElem?_eq_some_iff.mp hhash
  have hlast : hashes.getLast? = some (hashes[hashes.length - 1]) := by
    rw [List.getLast?_eq_getElem?, List.getElem?_eq_getElem]
  have hfinal' := hfinal _ hlast
  have hskip : skipCheckpoints document.checkpoints (· < tick + 1)
      (tick / compactCheckpointInterval) = tick / compactCheckpointInterval := by
    refine skipCheckpoints_of_forall fun checkpoint h => ?_
    rw [hchecks] at h
    rw [(getElem?_checkpointsOf h).1, decide_eq_false_iff_not, compactCheckpointInterval]
    omega
  rw [compactExpectedCheckpoint, hskip, hfinal']
  dsimp only
  split
  · rename_i hend
    rw [if_pos (.inr hend), skipCheckpoints_all, hchecks, length_checkpointsOf, hend]
    · simp only [← hend, Nat.add_sub_cancel]
    · intro checkpoint h
      rw [hchecks] at h
      obtain ⟨i, hi⟩ := List.getElem?_of_mem h
      obtain ⟨htick, x, hx, -⟩ := getElem?_checkpointsOf hi
      have := (List.getElem?_eq_some_iff.mp hx).1
      rw [decide_eq_true_iff]
      omega
    · rw [hchecks, length_checkpointsOf, ← hend]
      exact Nat.div_le_div_right (Nat.le_succ tick)
  · rename_i hend
    rw [hchecks]
    by_cases hmul : (tick + 1) % compactCheckpointInterval = 0
    · have hins : tick / compactCheckpointInterval < (checkpointsOf hashes).length := by
        rw [length_checkpointsOf, compactCheckpointInterval] at *
        omega
      obtain ⟨checkpoint, hget⟩ : ∃ checkpoint,
          (checkpointsOf hashes)[tick / compactCheckpointInterval]? = some checkpoint :=
        ⟨_, List.getElem?_eq_getElem hins⟩
      obtain ⟨htick, x, hx, hsha⟩ := getElem?_checkpointsOf hget
      have htick' : checkpoint.tick = tick + 1 := by
        rw [htick, compactCheckpointInterval] at *
        omega
      rw [htick', Nat.add_sub_cancel, hhash] at hx
      rw [hget]
      dsimp only
      rw [if_pos htick', if_pos (.inl hmul), hsha, ← Option.some.inj hx]
      congr 1
      rw [compactCheckpointInterval] at *
      omega
    · have hnext : (tick + 1) / compactCheckpointInterval = tick / compactCheckpointInterval := by
        rw [compactCheckpointInterval] at *
        omega
      rw [if_neg (fun h => h.elim hmul hend), hnext]
      cases hget : (checkpointsOf hashes)[tick / compactCheckpointInterval]? with
      | none => rfl
      | some checkpoint =>
        have htick := (getElem?_checkpointsOf hget).1
        have hne : checkpoint.tick ≠ tick + 1 := by
          rw [htick, compactCheckpointInterval] at *
          omega
        dsimp only
        rw [if_neg hne]

structure Spells (document : CompactReplayDocument) (done : List (Frame × StateHash)) : Prop where
  observedI32 : ObservedFields document.identity.hostCount.i32 document.identity.observed.i32
  observedF32 : ObservedFields document.identity.hostCount.f32 document.identity.observed.f32
  sized : ∀ x ∈ done, Sized document.identity.hostCount x.1
  totalTicks : document.totalTicks = done.length
  limit : done.length ≤ maxReplayFrames
  finalState : ∀ x ∈ done.getLast?,
    document.finalState = { tick := done.length, stateSha256 := x.2.text }
  checkpoints : document.checkpoints = checkpointsOf (done.map Prod.snd)
  nonempty : document.segments ≠ []
  runTicks : ∀ segment ∈ document.segments, 0 < segment.runTicks
  timeline : timeline document.initialInput document.segments =
    done.map fun x => snapshotOf document.identity.observed x.1

/-- A player that has supplied and compared so many ticks without divergence. -/
structure Playing (document : CompactReplayDocument) (player : ReplayPlayer)
    (supplied compared : ℕ) : Prop where
  plays : player.document = .compact document
  nextTick : player.nextTick = supplied + 1
  host : Sized document.identity.hostCount player.host
  compactCursor : ∃ cursor, player.compactCursor = some cursor ∧
    Synced document.initialInput document.segments cursor supplied
  nextCheckpoint : player.nextCheckpoint = compared / compactCheckpointInterval
  firstDivergence : player.firstDivergence = none

variable {document : CompactReplayDocument} {done : List (Frame × StateHash)}
  {player player' : ReplayPlayer} {x : Frame × StateHash}

lemma maskLane_length (fields : List Field) (values : List Word) :
    (maskLane fields values).length = values.length :=
  length_mapIdx

/-- A player that has supplied so many ticks, whatever was compared. -/
structure Following (document : CompactReplayDocument) (player : ReplayPlayer) (supplied : ℕ) :
    Prop where
  plays : player.document = .compact document
  nextTick : player.nextTick = supplied + 1
  host : Sized document.identity.hostCount player.host
  compactCursor : ∃ cursor, player.compactCursor = some cursor ∧
    Synced document.initialInput document.segments cursor supplied

lemma applyNext_following (hruns : ∀ segment ∈ document.segments, 0 < segment.runTicks)
    (htotal : document.totalTicks = (timeline document.initialInput document.segments).length)
    (hlimit : document.totalTicks ≤ maxReplayFrames) (hf : Following document player tick)
    (hnext : (timeline document.initialInput document.segments)[tick]? = some next)
    (happly : applyCompactSnapshot document.identity next (zeroFrame document.identity.hostCount) =
      .ok frame)
    (hsized : Sized document.identity.hostCount frame) :
    ∃ cursor, player.applyNext (tick + 1) document.identity.hostCount = .ok (frame, { player with
          host := frame, compactCursor := some cursor, nextTick := player.nextTick + 1 }) ∧
      Following document { player with
        host := frame, compactCursor := some cursor, nextTick := player.nextTick + 1 }
        (tick + 1) := by
  have hlt := (List.getElem?_eq_some_iff.mp hnext).1
  rw [maxReplayFrames] at hlimit
  obtain ⟨cursor, hcur, hsyn⟩ := hf.compactCursor
  obtain ⟨cursor', hadv, hvalue, hsyn'⟩ := advanceCompactSnapshot_synced hruns (by omega) hsyn hnext
  rw [← hvalue] at happly
  refine ⟨cursor', ?_, hf.plays, congrArg (· + 1) hf.nextTick, hsized, cursor', rfl, hsyn'⟩
  rw [ReplayPlayer.applyNext,
    bind_ok (check_of_false (by simp [hf.host.i32, hf.host.f32])), hf.plays]
  dsimp only
  rw [hcur, bind_ok (check_of_false (by simp [hf.nextTick])),
    bind_ok (check_of_false (by simp; omega))]
  dsimp only
  rw [bind_ok hadv, bind_ok happly, bind_ok (checkedAdd_of_lt (by rw [hf.nextTick]; omega))]
  rfl

variable (h : Spells document done)
include h

lemma applyNext_playing (hp : Playing document player tick tick) (hx : done[tick]? = some x) :
    ∃ player', player.applyNext (tick + 1) document.identity.hostCount =
        .ok (suppliedFrame document.identity.observed x.1, player') ∧
      Playing document player' (tick + 1) tick := by
  have hsized := h.sized x (mem_of_getElem? hx)
  have hlen : (timeline document.initialInput document.segments).length = done.length := by
    rw [h.timeline, length_map]
  have hnext : (timeline document.initialInput document.segments)[tick]? =
      some (snapshotOf document.identity.observed x.1) := by
    rw [h.timeline, List.getElem?_map, hx]
    rfl
  have happly : applyCompactSnapshot document.identity
      (snapshotOf document.identity.observed x.1) (zeroFrame document.identity.hostCount) =
        .ok (suppliedFrame document.identity.observed x.1) := by
    rw [applyCompactSnapshot]
    refine (bind_ok (writeObserved_observed h.observedI32 hsized.i32)).trans ?_
    exact bind_ok (writeObserved_observed h.observedF32 hsized.f32)
  obtain ⟨cursor, hsup, hf⟩ := applyNext_following h.runTicks (h.totalTicks.trans hlen.symm)
    (h.totalTicks ▸ h.limit) ⟨hp.plays, hp.nextTick, hp.host, hp.compactCursor⟩ hnext happly
    ⟨(maskLane_length _ _).trans hsized.i32, (maskLane_length _ _).trans hsized.f32⟩
  exact ⟨_, hsup, hf.plays, hf.nextTick, hf.host, hf.compactCursor, hp.nextCheckpoint,
    hp.firstDivergence⟩

lemma Spells.expectedCheckpoint (hx : done[tick]? = some x) :
    compactExpectedCheckpoint document (tick + 1) (tick / compactCheckpointInterval) =
      (if Compared done.length (tick + 1) then some x.2.text else none,
        (tick + 1) / compactCheckpointInterval) := by
  have hhash : (done.map Prod.snd)[tick]? = some x.2 := by
    rw [List.getElem?_map, hx]
    rfl
  rw [compactExpectedCheckpoint_eq h.checkpoints ?_ hhash, length_map]
  intro last hlast
  rw [List.getLast?_map, Option.mem_def, Option.map_eq_some_iff] at hlast
  obtain ⟨y, hy, rfl⟩ := hlast
  rw [length_map]
  exact h.finalState y hy

lemma expected_playing (hp : Playing document player (tick + 1) tick) (hx : done[tick]? = some x) :
    player.expected (tick + 1) =
      if Compared done.length (tick + 1) then some x.2.text else none := by
  rw [ReplayPlayer.expected, hp.plays]
  dsimp only
  rw [hp.nextCheckpoint, h.expectedCheckpoint hx]

lemma verifyTick_playing
    (hp : Playing document player (tick + 1) tick) (hx : done[tick]? = some x) (actual : String) :
    ((player.verifyTick (tick + 1) actual).2 = .ok () ↔
        (Compared done.length (tick + 1) → actual = x.2.text)) ∧
      ((player.verifyTick (tick + 1) actual).2 = .ok () →
        Playing document (player.verifyTick (tick + 1) actual).1 (tick + 1) (tick + 1)) := by
  have hadv : (compactExpectedCheckpoint document (tick + 1) player.nextCheckpoint).2 =
      (tick + 1) / compactCheckpointInterval := by
    rw [hp.nextCheckpoint, h.expectedCheckpoint hx]
  have hseq : ¬ (tick + 1 ≠ player.nextTick - 1 ∨ tick + 1 = 0) := by
    rw [hp.nextTick]
    omega
  rw [ReplayPlayer.verifyTick, hp.firstDivergence, hp.plays]
  dsimp only
  rw [if_neg hseq, expected_playing h hp hx, hadv]
  split_ifs with hcom
  · dsimp only
    split_ifs with hact
    · exact ⟨iff_of_true rfl fun _ => hact, fun _ =>
        ⟨rfl, hp.nextTick, hp.host, hp.compactCursor, rfl, rfl⟩⟩
    · refine ⟨iff_of_false (fun herror => ?_) fun himp => hact (himp hcom), fun herror => ?_⟩
      all_goals cases herror
  · exact ⟨iff_of_true rfl fun himp => absurd himp hcom, fun _ =>
      ⟨rfl, hp.nextTick, hp.host, hp.compactCursor, rfl, rfl⟩⟩

def recordedHash (done : List (Frame × StateHash)) (tick : ℕ) : String :=
  (done[tick - 1]?).elim "" fun x => x.2.text

variable {actual : ℕ → String} {frames : List Frame}

omit h in
lemma replay_succ_eq_ok (h : player.replay active actual (tick + 1) = .ok (frames, player')) :
    ∃ frames' frame before supplied, player.replay active actual tick = .ok (frames', before) ∧
      before.applyNext (tick + 1) active = .ok (frame, supplied) ∧
      (supplied.verifyTick (tick + 1) (actual (tick + 1))).2 = .ok () ∧
      frames = frames' ++ [frame] ∧
      player' = (supplied.verifyTick (tick + 1) (actual (tick + 1))).1 := by
  obtain ⟨⟨frames', before⟩, hbef, h⟩ := bind_ok_iff.mp h
  obtain ⟨⟨frame, supplied⟩, happly, h⟩ := bind_ok_iff.mp h
  obtain ⟨_, hver, h⟩ := bind_ok_iff.mp h
  have hres := pure_ok_iff.mp h
  rw [Prod.mk.injEq] at hres
  exact ⟨frames', frame, before, supplied, hbef, happly, hver, hres.1.symm, hres.2.symm⟩

omit h in
lemma replay_succ_of_ok {before supplied : ReplayPlayer}
    (hbef : player.replay active actual tick = .ok (frames, before))
    (happly : before.applyNext (tick + 1) active = .ok (frame, supplied))
    (hver : (supplied.verifyTick (tick + 1) (actual (tick + 1))).2 = .ok ()) :
    player.replay active actual (tick + 1) =
      .ok (frames ++ [frame], (supplied.verifyTick (tick + 1) (actual (tick + 1))).1) := by
  rw [ReplayPlayer.replay, bind_ok hbef]
  dsimp only
  rw [bind_ok happly]
  dsimp only
  rw [bind_ok hver]
  rfl

lemma replay_playing (hp : Playing document player 0 0) (hn : n ≤ done.length)
    (hr : player.replay document.identity.hostCount actual n = .ok (frames, player')) :
    frames = (done.take n).map (fun x => suppliedFrame document.identity.observed x.1) ∧
      Playing document player' n n := by
  induction n generalizing frames player' with
  | zero =>
    obtain ⟨rfl, rfl⟩ := Prod.mk.inj (pure_ok_iff.mp hr)
    exact ⟨rfl, hp⟩
  | succ n ih =>
    obtain ⟨frames', frame, before, supplied, hbef, happly, hver, rfl, rfl⟩ := replay_succ_eq_ok hr
    obtain ⟨rfl, hpla⟩ := ih (by omega) hbef
    have hx : done[n]? = some done[n] := List.getElem?_eq_getElem hn
    obtain ⟨supplied', happly', hsup⟩ := applyNext_playing h hpla hx
    rw [happly] at happly'
    obtain ⟨rfl, rfl⟩ := Prod.mk.inj (Except.ok.inj happly')
    refine ⟨?_, (verifyTick_playing h hsup hx _).2 hver⟩
    rw [take_succ_eq_append_getElem hn, map_append]
    rfl

lemma replay_recordedHash (hp : Playing document player 0 0) (hn : n ≤ done.length) :
    ∃ frames player', player.replay document.identity.hostCount (recordedHash done) n =
      .ok (frames, player') := by
  induction n with
  | zero => exact ⟨[], player, rfl⟩
  | succ n ih =>
    obtain ⟨frames, before, hbef⟩ := ih (by omega)
    have hpla := (replay_playing h hp (by omega) hbef).2
    have hx : done[n]? = some done[n] := List.getElem?_eq_getElem hn
    obtain ⟨supplied, happly, hsup⟩ := applyNext_playing h hpla hx
    refine ⟨_, _, replay_succ_of_ok hbef happly ?_⟩
    refine (verifyTick_playing h hsup hx _).1.mpr fun _ => ?_
    rw [recordedHash, Nat.add_sub_cancel, hx]
    rfl

omit h

lemma recordedHash_map (f : Frame → Frame) (done : List (Frame × StateHash)) :
    recordedHash (done.map fun x => (f x.1, x.2)) = recordedHash done := by
  funext tick
  rw [recordedHash, recordedHash, List.getElem?_map]
  cases done[tick - 1]? <;> rfl

/-- The file validates, and its player supplies the given inputs tick by tick and
expects the given hashes at the checkpoints and at the end. -/
def PlaysBack (codec : Codec) (file : VersionedReplayDocument) (hostCount : Lanes ℕ)
    (done : List (Frame × StateHash)) : Prop :=
  ∃ player, ReplayPlayer.load codec file = .ok player ∧
    player.document.frameCount = done.length ∧
    (∀ tick x, done[tick]? = some x → ∀ actual frames before,
      player.replay hostCount actual tick = .ok (frames, before) →
        ∃ supplied, before.applyNext (tick + 1) hostCount = .ok (x.1, supplied) ∧
          (Compared done.length (tick + 1) → supplied.expected (tick + 1) = some x.2.text)) ∧
    ∃ after, player.replay hostCount (recordedHash done) done.length =
      .ok (done.map Prod.fst, after)

end Stasis.Recording
