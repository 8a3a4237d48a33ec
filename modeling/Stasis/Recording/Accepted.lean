import Stasis.Recording.RoundTrip

namespace Stasis.Recording

/-- The observed values at a tick: the initial input with the changes of all segments whose
run has started. -/
def CompactReplayDocument.inputAt (document : CompactReplayDocument) (tick : ℕ) : Frame :=
  Segment.final applyCompactChanges document.initialInput
    (Segment.startedBy tick document.segments)

structure Shows (identity : CompactReplayIdentity) (input frame : Frame) : Prop where
  i32 : ShowsLane identity.hostCount.i32 identity.observed.i32 input.i32 frame.i32
  f32 : ShowsLane identity.hostCount.f32 identity.observed.f32 input.f32 frame.f32

/-- Changes whose slots are all there, so that writing them does not panic. -/
structure SlotsWithin (snapshot : Frame) (changes : Lanes (List (Change Word))) : Prop where
  i32 : ∀ c ∈ changes.i32, c.slot < snapshot.i32.length
  f32 : ∀ c ∈ changes.f32, c.slot < snapshot.f32.length

structure Playable (document : CompactReplayDocument) : Prop where
  observedI32 : ObservedFields document.identity.hostCount.i32 document.identity.observed.i32
  observedF32 : ObservedFields document.identity.hostCount.f32 document.identity.observed.f32
  initialInput : Sized (observedSize document.identity.observed) document.initialInput
  totalTicks : document.totalTicks = (timeline document.initialInput document.segments).length
  limit : document.totalTicks ≤ maxReplayFrames
  nonempty : document.segments ≠ []
  runTicks : ∀ segment ∈ document.segments, 0 < segment.runTicks
  slots : ∀ segment ∈ document.segments, SlotsWithin document.initialInput segment.changes

variable {segmentIndex : ℕ} {snapshot : Frame} {codec : Codec}

lemma slot_lt_of_validateCompactChanges
    (h : validateCompactChanges lane segmentIndex values previous changes = .ok ()) :
    ∀ c ∈ changes, c.slot < values.length := by
  induction changes generalizing previous with
  | nil => simp
  | cons change changes ih =>
    simp only [validateCompactChanges, unit_bind_ok_iff, check_eq_ok_iff] at h
    obtain ⟨hrange, -, -, hrest⟩ := h
    exact List.forall_mem_cons.mpr ⟨by simpa using hrange, ih hrest⟩

lemma validateCompactSegments_eq_ok
    (h : validateCompactSegments totalTicks segmentIndex cursor snapshot segments = .ok last) :
    (∀ segment ∈ segments, 0 < segment.runTicks ∧ SlotsWithin snapshot segment.changes) ∧
      last = cursor + (timeline snapshot segments).length := by
  induction segments generalizing segmentIndex cursor snapshot with
  | nil => exact ⟨by simp, (pure_ok_iff.mp h).symm⟩
  | cons segment segments ih =>
    simp only [validateCompactSegments, validateAndApplyCompactChanges,
      bind_ok_iff, check_eq_ok_iff, pure_ok_iff, exists_const] at h
    obtain ⟨-, hrun, -, -, -, gapEnd, hgap, runEnd, hend, -, _, ⟨_, hi32, _, hf32, rfl⟩, hrest⟩ := h
    obtain rfl := checkedAdd_eq_ok hgap
    obtain rfl := checkedAdd_eq_ok hend
    obtain ⟨hall, rfl⟩ := ih hrest
    have hhead : 0 < segment.runTicks ∧ SlotsWithin snapshot segment.changes :=
      ⟨Nat.pos_of_ne_zero (by simpa using hrun), slot_lt_of_validateCompactChanges hi32,
        slot_lt_of_validateCompactChanges hf32⟩
    refine ⟨List.forall_mem_cons.mpr ⟨hhead, fun s hs => ?_⟩, ?_⟩
    · -- the changes of a segment keep the length of both lanes
      obtain ⟨hpos, hi32, hf32⟩ := hall s hs
      exact ⟨hpos, by simpa [applyCompactChanges] using hi32,
        by simpa [applyCompactChanges] using hf32⟩
    · rw [length_timeline_cons]
      omega

lemma observed_of_validateCompactIdentity (h : validateCompactIdentity codec identity = .ok ()) :
    ObservedFields identity.hostCount.i32 identity.observed.i32 ∧
      ObservedFields identity.hostCount.f32 identity.observed.f32 := by
  simp only [validateCompactIdentity, unit_bind_ok_iff] at h
  obtain ⟨-, -, -, -, -, -, -, -, -, h⟩ := h
  have hlanes : validateCompactI32Fields identity.observed.i32 identity.hostCount.i32 = .ok () ∧
      validateCompactF32Fields identity.observed.f32 identity.hostCount.f32 = .ok () := by
    split at h <;> simp only [unit_bind_ok_iff] at h <;> tauto
  exact hlanes.imp observedFields_of_validate observedFields_of_validate

lemma playable_of_validate (h : validateCompactDocument codec document = .ok ()) :
    Playable document := by
  simp only [validateCompactDocument, unit_bind_ok_iff] at h
  obtain ⟨-, hidentity, -, hticks⟩ := h
  obtain ⟨hi32, hf32⟩ := observed_of_validateCompactIdentity hidentity
  simp only [validateCompactTicks, bind_ok_iff, check_eq_ok_iff, exists_const] at hticks
  obtain ⟨hlengths, htotal, hne, -, last, hseg, hlast, -⟩ := hticks
  obtain ⟨hall, rfl⟩ := validateCompactSegments_eq_ok hseg
  simp only [Bool.or_eq_false_iff, bne_eq_false_iff_eq] at hlengths
  simp only [Bool.or_eq_false_iff, decide_eq_false_iff_not, Nat.not_lt] at htotal
  exact
    { observedI32 := hi32, observedF32 := hf32, initialInput := ⟨hlengths.1, hlengths.2⟩
      totalTicks := (bne_eq_false_iff_eq.mp hlast).symm.trans (Nat.zero_add _)
      limit := htotal.2
      nonempty := by simpa using hne
      runTicks := fun segment hmem => (hall segment hmem).1
      slots := fun segment hmem => (hall segment hmem).2 }

lemma playable_of_decode (h : decodeVersionedReplay codec file = .ok (.compact document)) :
    Playable document := by
  cases file with
  | legacyV1 legacy =>
    obtain ⟨_, -, hdoc⟩ := bind_ok_iff.mp h
    cases hdoc
  | compactV2 compact =>
    obtain ⟨_, hvalid, hdoc⟩ := bind_ok_iff.mp h
    cases hdoc
    exact playable_of_validate hvalid
  | compactV3 compact =>
    obtain ⟨_, hvalid, hdoc⟩ := bind_ok_iff.mp h
    cases hdoc
    simp only [validateCompactDocumentV3, unit_bind_ok_iff] at hvalid
    exact playable_of_validate hvalid.2.2.2

/-- Plays the first ticks in order, whatever the comparison of the states says. -/
def ReplayPlayer.steps (player : ReplayPlayer) (active : Lanes ℕ) (actual : ℕ → String) :
    ℕ → Except String (List Frame × ReplayPlayer)
  | 0 => pure ([], player)
  | tick + 1 => do
    let (frames, player) ← steps player active actual tick
    let (frame, player) ← player.applyNext (tick + 1) active
    pure (frames ++ [frame], (player.verifyTick (tick + 1) (actual (tick + 1))).1)

variable {document : CompactReplayDocument} {player : ReplayPlayer} {n : ℕ}

lemma sized_final (segments : List CompactInputSegment) (h : Sized size snapshot) :
    Sized size (Segment.final applyCompactChanges snapshot segments) := by
  induction segments generalizing snapshot with
  | nil => exact h
  | cons segment segments ih => exact ih (h.applyCompactChanges segment.changes)

variable (h : Playable document)
include h

lemma Playable.shows (tick : ℕ) :
    ∃ frame, applyCompactSnapshot document.identity (document.inputAt tick)
        (zeroFrame document.identity.hostCount) = .ok frame ∧
      Shows document.identity (document.inputAt tick) frame := by
  have hsized := sized_final (Segment.startedBy tick document.segments) h.initialInput
  obtain ⟨i32, hi32, hshow⟩ := writeObserved_shows "i32" h.observedI32 hsized.i32
  obtain ⟨f32, hf32, hshow'⟩ := writeObserved_shows "f32" h.observedF32 hsized.f32
  exact ⟨⟨i32, f32⟩, (bind_ok hi32).trans (bind_ok hf32), hshow, hshow'⟩

lemma Playable.following_opened : Following document (.opened (.compact document)) 0 := by
  obtain ⟨segment, segments, hseg⟩ := List.exists_cons_of_ne_nil h.nonempty
  refine ⟨rfl, rfl, ⟨List.length_replicate, List.length_replicate⟩, _, rfl, [], segment, segments,
    hseg, ?_⟩
  exact ⟨rfl, rfl, Nat.le_refl 0, Nat.zero_le _, by simp, rfl⟩

omit h in
lemma Following.verifyTick (h : Following document player n) (tick : ℕ) (actual : String) :
    Following document (player.verifyTick tick actual).1 n := by
  have hsame : (player.verifyTick tick actual).1.document = player.document ∧
      (player.verifyTick tick actual).1.nextTick = player.nextTick ∧
      (player.verifyTick tick actual).1.host = player.host ∧
      (player.verifyTick tick actual).1.compactCursor = player.compactCursor := by
    unfold ReplayPlayer.verifyTick
    split
    · exact ⟨rfl, rfl, rfl, rfl⟩
    · split <;> exact ⟨rfl, rfl, rfl, rfl⟩
    · dsimp only
      split_ifs
      · exact ⟨rfl, rfl, rfl, rfl⟩
      · split
        · exact ⟨rfl, rfl, rfl, rfl⟩
        · split_ifs <;> exact ⟨rfl, rfl, rfl, rfl⟩
  obtain ⟨hdoc, hnext, hhost, hcur⟩ := hsame
  exact ⟨hdoc.trans h.plays, hnext.trans h.nextTick, hhost ▸ h.host, hcur ▸ h.compactCursor⟩

omit h in
lemma Following.rejects (h : Following document player n)
    (hother : tick ≠ n + 1 ∨ document.totalTicks ≤ n) (active : Lanes ℕ) :
    ∃ e, player.applyNext tick active = .error e := by
  cases happly : player.applyNext tick active with
  | error e => exact ⟨e, rfl⟩
  | ok supplied =>
    rw [ReplayPlayer.applyNext, h.plays] at happly
    simp only [bind_ok_iff, check_eq_ok_iff, exists_const] at happly
    obtain ⟨-, hseq, htotal, -⟩ := happly
    simp only [bne_eq_false_iff_eq, decide_eq_false_iff_not, h.nextTick] at hseq htotal
    omega

lemma Playable.applyNext (hf : Following document player n) (hn : n < document.totalTicks) :
    ∃ frame player', player.applyNext (n + 1) document.identity.hostCount = .ok (frame, player') ∧
      Shows document.identity (document.inputAt (n + 1)) frame ∧
      Following document player' (n + 1) := by
  obtain ⟨frame, happly, hshows⟩ := h.shows (n + 1)
  obtain ⟨cursor, hsup, hf'⟩ := applyNext_following h.runTicks h.totalTicks h.limit hf
    (Segment.getElem?_timeline (h.totalTicks ▸ hn)) happly ⟨hshows.i32.length, hshows.f32.length⟩
  exact ⟨frame, _, hsup, hshows, hf'⟩

lemma Playable.steps (actual : ℕ → String) (hn : n ≤ document.totalTicks) :
    ∃ frames player', ReplayPlayer.steps (.opened (.compact document))
        document.identity.hostCount actual n = .ok (frames, player') ∧
      List.Forall₂ (fun tick => Shows document.identity (document.inputAt (tick + 1)))
        (List.range n) frames ∧
      Following document player' n := by
  induction n with
  | zero => exact ⟨[], _, rfl, .nil, h.following_opened⟩
  | succ n ih =>
    obtain ⟨frames, before, hbef, hshown, hf⟩ := ih (by omega)
    obtain ⟨frame, supplied, happly, hshows, hf'⟩ := h.applyNext hf hn
    refine ⟨frames ++ [frame], _, ?_, ?_, hf'.verifyTick (n + 1) (actual (n + 1))⟩
    · rw [ReplayPlayer.steps, bind_ok hbef]
      dsimp only
      rw [bind_ok happly]
      rfl
    · rw [List.range_succ]
      exact List.rel_append hshown (.cons hshows .nil)

omit h

/-- An accepted document plays: whatever states the ticks lead to, each of its ticks is
supplied in order with the input of the runs started so far, every other tick is refused,
and no slot of a change is out of range. -/
theorem accepted_document_plays {codec : Codec} {file : VersionedReplayDocument}
    {document : CompactReplayDocument}
    (h : decodeVersionedReplay codec file = .ok (.compact document)) (actual : ℕ → String) :
    ReplayPlayer.load codec file = .ok (.opened (.compact document)) ∧
      (∀ segment ∈ document.segments, SlotsWithin document.initialInput segment.changes) ∧
      ∀ n ≤ document.totalTicks, ∃ frames player,
        ReplayPlayer.steps (.opened (.compact document)) document.identity.hostCount actual n =
          .ok (frames, player) ∧
        List.Forall₂ (fun tick => Shows document.identity (document.inputAt (tick + 1)))
          (List.range n) frames ∧
        ∀ tick, tick ≠ n + 1 ∨ n = document.totalTicks →
          ∀ active, ∃ e, player.applyNext tick active = .error e := by
  have hplay := playable_of_decode h
  refine ⟨by rw [ReplayPlayer.load, h]; rfl, hplay.slots, fun n hn => ?_⟩
  obtain ⟨frames, player, hsteps, hshown, hf⟩ := hplay.steps actual hn
  exact ⟨frames, player, hsteps, hshown, fun tick hother =>
    hf.rejects (hother.imp_right fun heq => heq.ge)⟩

/-- A document no recorder makes: the button is pressed for a tick, and released after two
more ticks that no run covers. -/
def pausedRelease : CompactReplayDocumentV3 :=
  { emptyDocument smallProgram smallState ⟨2, 1⟩ smallMetadata with
    initialInput := { i32 := [0], f32 := [] }
    segments := [⟨0, 1, ⟨[⟨0, 5⟩], []⟩⟩, ⟨2, 1, ⟨[⟨0, 0⟩], []⟩⟩]
    totalTicks := 4
    finalState := { tick := 4, stateSha256 := zeroHash.text } }

theorem pausedRelease_plays :
    (∃ frames player, ReplayPlayer.steps (.opened (.compact pausedRelease.normalized)) ⟨2, 1⟩
        (fun _ => zeroHash.text) 4 = .ok (frames, player) ∧
      frames.map Lanes.i32 = [[0, 5], [0, 5], [0, 5], [0, 0]] ∧
      ∃ e, player.applyNext 5 ⟨2, 1⟩ = .error e) ∧
    (List.range 4).map (fun tick => (pausedRelease.normalized.inputAt (tick + 1)).i32) =
      [[5], [5], [5], [0]] := by
  obtain ⟨-, -, hplays⟩ := accepted_document_plays
    (show decodeVersionedReplay smallCodec (.compactV3 pausedRelease) =
      .ok (.compact pausedRelease.normalized) from rfl) fun _ => zeroHash.text
  obtain ⟨frames, player, hsteps, -, hother⟩ := hplays 4 (Nat.le_refl 4)
  have hrun : ReplayPlayer.steps (.opened (.compact pausedRelease.normalized)) ⟨2, 1⟩
      (fun _ => zeroHash.text) 4 = .ok (frames, player) := hsteps
  refine ⟨⟨frames, player, hrun, ?_, hother 5 (.inr rfl) _⟩, by decide +kernel⟩
  have hshown : (ReplayPlayer.steps (.opened (.compact pausedRelease.normalized)) ⟨2, 1⟩
      (fun _ => zeroHash.text) 4).toOption.map (·.1.map Lanes.i32) =
        some [[0, 5], [0, 5], [0, 5], [0, 0]] := by decide +kernel
  rw [hrun] at hshown
  exact Option.some.inj hshown

end Stasis.Recording
