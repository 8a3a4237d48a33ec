import Stasis.Realtime.Representation

namespace Stasis.Realtime

open SeatArray
namespace RealtimeSession

variable {s s' : RealtimeSession} {t : ScheduledTransition}

lemma toNat_saturatingAdd (a b : UInt64) :
    (saturatingAdd a b).toNat = min (a.toNat + b.toNat) (UInt64.size - 1) := by
  unfold saturatingAdd
  split_ifs with hlt
  · rw [UInt64.toNat_add, Nat.mod_eq_of_lt hlt]
    omega
  · rw [UInt64.toNat_ofNat', Nat.mod_eq_of_lt (by decide)]
    omega

lemma lt_earliestApplyTick (hdelay : s.config.inputDelayTicks ≠ 0)
    (htick : s.currentTick.toNat + 1 < UInt64.size) : s.currentTick < s.earliestApplyTick := by
  have hpos : 0 < s.config.inputDelayTicks.toNat := by
    rw [Nat.pos_iff_ne_zero]
    exact fun h => hdelay (UInt32.toNat_inj.mp h)
  rw [UInt64.lt_iff_toNat_lt, earliestApplyTick, toNat_saturatingAdd, UInt32.toNat_toUInt64]
  omega

lemma toNat_latestApplyTick_le : s.latestApplyTick.toNat ≤ s.currentTick.toNat + 240 := by
  rw [latestApplyTick, toNat_saturatingAdd]
  exact min_le_left _ _

lemma active_of_preflight (h : s.preflight t = none) :
    s.active.at t.seat.toNat false = true ∧ t.applyTick ≤ s.latestApplyTick := by
  unfold preflight at h
  split_ifs at h with hmal hres hina hstale hlate hfar hquar
  exact ⟨by simpa using hina, UInt64.not_lt.mp hfar⟩

structure Sound (s : RealtimeSession) : Prop extends Tracked s where
  delay_pos : s.config.inputDelayTicks ≠ 0
  active : ∀ t ∈ s.pending.occupants, s.active.at t.seat.toNat false = true
  within : ∀ t ∈ s.pending.occupants, t.applyTick.toNat ≤ s.currentTick.toNat + 240
  upcoming : s.currentTick.toNat + 1 < UInt64.size →
    ∀ t ∈ s.pending.occupants, s.currentTick < t.applyTick
  floors : ∀ seat < maxSeats, s.highestAppliedSequence.at seat 0 ≤ s.highestSequence.at seat 0
  recentNext_lt : s.recentNext < maxPendingTransitions

lemma sound_new {config : RealtimeConfig} {seats limit : ℕ} (hdelay : config.inputDelayTicks ≠ 0)
    (h : newWithReplayLimit config seats limit = .ok s) : Sound s := by
  have htrack := tracked_new h
  unfold newWithReplayLimit at h
  split_ifs at h
  obtain ⟨log, -, rfl⟩ := map_ok_iff.mp h
  exact ⟨htrack, hdelay, by simp, by simp, by simp, fun _ _ => UInt32.le_refl _,
    show 0 < maxPendingTransitions by decide⟩

namespace Sound

variable (h : Sound s)
include h

lemma mono (htrack : Tracked s') (hcon : s'.config = s.config) (hact : s'.active = s.active)
    (htick : s'.currentTick = s.currentTick) (hpend : s'.pending.occupants ⊆ s.pending.occupants)
    (hflo : ∀ seat < maxSeats, s'.highestAppliedSequence.at seat 0 ≤ s'.highestSequence.at seat 0)
    (hnext : s'.recentNext = s.recentNext) : Sound s' where
  toTracked := htrack
  delay_pos := hcon ▸ h.delay_pos
  active t ht := hact ▸ h.active t (hpend ht)
  within t ht := htick ▸ h.within t (hpend ht)
  upcoming hlt t ht := htick ▸ h.upcoming (htick ▸ hlt) t (hpend ht)
  floors := hflo
  recentNext_lt := hnext ▸ h.recentNext_lt

lemma schedule (hpre : s.preflight t = none)
    (hroom : s.pending.count < maxPendingTransitions) (htrack : Tracked (s.schedule t hroom).1) :
    Sound (s.schedule t hroom).1 := by
  have hpas := passes_of_preflight hpre
  have hmem : ∀ u ∈ (s.schedule t hroom).1.pending.occupants, u = t ∨ u ∈ s.pending.occupants :=
    fun u hu => List.mem_cons.mp ((s.pending.occupants_insert_perm t hroom).mem_iff.mp hu)
  have hseat : t.seat.toNat < maxSeats := hpas.seat_lt.trans_le s.seats_le
  obtain ⟨hact, hlat⟩ := active_of_preflight hpre
  refine ⟨htrack, h.delay_pos, ?_, ?_, ?_, ?_, h.recentNext_lt⟩
  · intro u hu
    rcases hmem u hu with rfl | hu
    · exact hact
    · exact h.active u hu
  · intro u hu
    rcases hmem u hu with rfl | hu
    · exact (UInt64.le_iff_toNat_le.mp hlat).trans toNat_latestApplyTick_le
    · exact h.within u hu
  · intro hlt u hu
    rcases hmem u hu with rfl | hu
    · exact UInt64.lt_of_lt_of_le (lt_earliestApplyTick h.delay_pos hlt) hpas.earliest
    · exact h.upcoming hlt u hu
  · intro seat hlt
    change s.highestAppliedSequence.at seat 0 ≤ (s.highestSequence.put t.seat.toNat _).at seat 0
    rw [at_put _ _ _ hseat]
    have hfloor := h.floors seat hlt
    split_ifs with heq
    · subst heq
      grind [max_sequence_eq]
    · exact hfloor

lemma submitTransition (t : ScheduledTransition) : Sound (s.submitTransition t).1 := by
  have htrack := h.toTracked.submitTransition t
  have hrem : (s.removePendingSequence t.identity).pending.occupants ⊆ s.pending.occupants :=
    fun u hu => (SlotTable.mem_occupants_removeWhere.mp hu).1
  have hsub := submitTransition_submitted s t
  generalize s.submitTransition t = result at hsub htrack ⊢
  cases hsub with
  | refused | duplicate | recent | stale | full => exact h
  | conflict | conflictWhileFull => exact h.mono htrack rfl rfl rfl hrem h.floors rfl
  | quarantineFull => exact h.mono htrack rfl rfl rfl (List.Subset.refl _) h.floors rfl
  | scheduled hroom hpreflight => exact h.schedule hpreflight hroom htrack

omit h in
lemma active_applyTick (s : RealtimeSession) (tick : UInt64) :
    (s.applyTick tick).active = s.active :=
  s.applyTick_keeps tick RealtimeSession.active (fun _ _ => rfl) (fun _ _ => rfl) fun _ _ => rfl

omit h in
lemma recentNext_applyTick_lt (h : s.recentNext < maxPendingTransitions) (tick : UInt64) :
    (s.applyTick tick).recentNext < maxPendingTransitions := by
  have hfold (entries : List (ℕ × ScheduledTransition)) :
      ∀ s : RealtimeSession, s.recentNext < maxPendingTransitions →
        (entries.foldl applyDue s).recentNext < maxPendingTransitions := by
    induction entries with
    | nil => exact fun s hs => hs
    | cons entry entries ih => exact fun s _ => ih _ (SessionMemory.recentNext_applyDue_lt s entry)
  exact hfold _ _ h

lemma applyTick (hlt : s.currentTick.toNat + 1 < UInt64.size) :
    Sound (s.applyTick (s.currentTick + 1)) := by
  have hmem : ∀ t ∈ (s.applyTick (s.currentTick + 1)).pending.occupants,
      t ∈ s.pending.occupants ∧ t.applyTick ≠ s.currentTick + 1 :=
    fun t ht => (s.mem_pending_applyTick _).mp ht
  have hsucc : (s.currentTick + 1).toNat = s.currentTick.toNat + 1 := by
    rw [UInt64.toNat_add]
    exact Nat.mod_eq_of_lt hlt
  refine ⟨h.toTracked.applyTick _, ?_, ?_, ?_, ?_, ?_, recentNext_applyTick_lt h.recentNext_lt _⟩
  · rw [config_applyTick]
    exact h.delay_pos
  · intro t ht
    rw [active_applyTick]
    exact h.active t (hmem t ht).1
  · intro t ht
    have hwit := h.within t (hmem t ht).1
    rw [currentTick_applyTick, hsucc]
    omega
  · intro _ t ht
    have hupc := h.upcoming hlt t (hmem t ht).1
    have hne := (hmem t ht).2
    rw [Ne, ← UInt64.toNat_inj, hsucc] at hne
    rw [currentTick_applyTick, UInt64.lt_iff_toNat_lt, hsucc]
    rw [UInt64.lt_iff_toNat_lt] at hupc
    omega
  · intro seat hseat
    rw [highestSequence_applyTick]
    have hfloor := s.highestAppliedSequence_applyTick (s.currentTick + 1)
      fun t ht => (h.current t ht).1.trans_le s.seats_le
    refine (hfloor seat).2.2 _ (h.floors seat hseat) ?_
    rintro t ht rfl
    exact (h.current t ((s.mem_dueTransitions _).mp ht).1).2.2

lemma log (record : ReplayRecord) (htrack : Tracked (s.log record)) : Sound (s.log record) :=
  h.mono htrack rfl rfl rfl (List.Subset.refl _) h.floors rfl

lemma advanceTick (hadv : s.advanceTick = .ok (s', advance)) : Sound s' := by
  have htrack := h.toTracked.advanceTick hadv
  obtain ⟨hlt, htick, -, -, -, rfl⟩ := advanceTick_eq hadv
  rw [htick] at htrack ⊢
  exact (h.applyTick hlt).log _ htrack

lemma lifecycleEpoch {active : Bool} (hreset : s.lifecycleEpoch seat active reason = .ok s') :
    Sound s' := by
  have htrack := h.toTracked.lifecycleEpoch hreset
  obtain ⟨hseat, next, -, rfl⟩ := lifecycleEpoch_eq hreset
  have hlt : seat < maxSeats := hseat.trans_le s.seats_le
  have hmem : ∀ t ∈ (s.pending.removeWhere fun t => t.seat.toNat == seat).occupants,
      t ∈ s.pending.occupants ∧ seat ≠ t.seat.toNat := by
    intro t ht
    obtain ⟨hin, hne⟩ := SlotTable.mem_occupants_removeWhere.mp ht
    exact ⟨hin, fun heq => by simp [heq] at hne⟩
  refine ⟨htrack, h.delay_pos, ?_, fun t ht => h.within t (hmem t ht).1, ?_, ?_, h.recentNext_lt⟩
  · intro t ht
    change (s.active.put seat active).at t.seat.toNat false = true
    rw [at_put _ _ _ hlt, if_neg (hmem t ht).2]
    exact h.active t (hmem t ht).1
  · exact fun htick t ht => h.upcoming htick t (hmem t ht).1
  · intro other hother
    change (s.highestAppliedSequence.put seat 0).at other 0 ≤
      (s.highestSequence.put seat 0).at other 0
    rw [at_put _ _ _ hlt, at_put _ _ _ hlt]
    split_ifs
    · exact UInt32.le_refl _
    · exact h.floors other hother

omit h in
lemma cleared (htrack : Tracked s) (hdelay : s.config.inputDelayTicks ≠ 0)
    (hpend : s.pending = .empty _ _) (hnext : s.recentNext = 0) (hflo : ∀ seat < maxSeats,
      s.highestAppliedSequence.at seat 0 ≤ s.highestSequence.at seat 0) : Sound s := by
  have hocc : s.pending.occupants = [] := by rw [hpend, SlotTable.occupants_empty]
  exact ⟨htrack, hdelay, by simp [hocc], by simp [hocc], by simp [hocc], hflo,
    by rw [hnext]; decide⟩

lemma resetAll (hreset : s.resetAll reason = .ok s') : Sound s' := by
  have htrack := Tracked.resetAll hreset
  obtain ⟨epochs, -, rfl⟩ := resetAll_eq hreset
  refine cleared htrack h.delay_pos rfl rfl fun seat hseat => ?_
  change (s.highestAppliedSequence.fillBelow s.seats 0).at seat 0 ≤
    (s.highestSequence.fillBelow s.seats 0).at seat 0
  rw [at_fillBelow _ _ _ hseat, at_fillBelow _ _ _ hseat]
  split_ifs
  · exact UInt32.le_refl _
  · exact h.floors seat hseat

lemma applyAuthoritativeSnapshot (hsnap : s.applyAuthoritativeSnapshot snapshot = .ok s') :
    Sound s' := by
  have htrack := Tracked.applyAuthoritativeSnapshot hsnap
  obtain ⟨-, rfl⟩ := applyAuthoritativeSnapshot_eq hsnap
  exact cleared htrack h.delay_pos rfl rfl fun _ _ => UInt32.le_refl _

lemma step (op : Op) : Sound (s.step op) := by
  cases op with
  | submitTransition t => exact h.submitTransition t
  | submitEnvelope | submitPayload =>
    rw [← fst_stepLog]
    simp only [stepLog]
    rw [fst_runLog_submitLog]
    exact List.foldlRecOn _ _ h fun _ hs t _ => hs.submitTransition t
  | advanceTick =>
    refine keepOnError_of h fun s' hs' => ?_
    obtain ⟨⟨_, advance⟩, hadv, rfl⟩ := map_ok_iff.mp hs'
    exact h.advanceTick hadv
  | recordAuthoritativeHash tick hash =>
    have htrack := h.toTracked.recordAuthoritativeHash tick hash
    refine keepOnError_of h fun s' hs' => ?_
    rw [hs'] at htrack
    obtain ⟨replay, -, rfl⟩ := map_ok_iff.mp hs'
    exact h.mono htrack rfl rfl rfl (List.Subset.refl _) h.floors rfl
  | disconnect | reconnect => exact keepOnError_of h fun _ => h.lifecycleEpoch
  | pause | focusLost | rematch => exact keepOnError_of h fun _ => h.resetAll
  | applyAuthoritativeSnapshot => exact keepOnError_of h fun _ => h.applyAuthoritativeSnapshot

end Sound
end RealtimeSession

namespace SessionMemory

variable {s : RealtimeSession}

/-- A public operation answers for the session what it does to it. -/
def responseTo (s : RealtimeSession) : Op → Response
  | .submitTransition t => .outcomes [(s.submitTransition t).2]
  | .submitEnvelope e => .outcomes (s.submitEnvelope e).2
  | .submitPayload payload => .outcomes (s.submitPayload payload).2
  | .advanceTick => .tick (s.advanceTick.map Prod.snd)
  | .recordAuthoritativeHash tick hash =>
    .hash ((s.recordAuthoritativeHash tick hash).map fun _ => ())
  | .disconnect seat => .lifecycle ((s.disconnect seat).map fun _ => ())
  | .reconnect seat => .lifecycle ((s.reconnect seat).map fun _ => ())
  | .pause => .lifecycle (s.pause.map fun _ => ())
  | .focusLost => .lifecycle (s.focusLost.map fun _ => ())
  | .rematch => .lifecycle (s.rematch.map fun _ => ())
  | .applyAuthoritativeSnapshot snapshot =>
    .snapshot ((s.applyAuthoritativeSnapshot snapshot).map fun _ => ())

lemma answer_eq {E : Type} (s : RealtimeSession) (result : Except E RealtimeSession) :
    answer s result = .ok (result.map fun _ => ()) (keepOnError s result).memory := by
  cases result with
  | error error => rfl
  | ok s' => rfl

lemma call_memory (h : s.Sound) (op : Op) :
    call op s.memory = .ok (responseTo s op) (s.step op).memory := by
  cases op with
  | submitTransition t => exact bind_of_ok (submitTransition_memory t)
  | submitEnvelope e => exact bind_of_ok (submitEnvelope_memory e)
  | submitPayload payload => exact bind_of_ok (submitPayload_memory payload)
  | advanceTick =>
    have htick := advanceTickInner_memory h.toTracked h.recentNext_lt
    unfold call responseTo RealtimeSession.step RealtimeSession.advanceTick
    cases hadv : s.advanceTickInner <;> rw [hadv] at htick <;> exact bind_of_ok htick
  | recordAuthoritativeHash tick hash =>
    exact bind_of_ok ((recordAuthoritativeHash_memory tick hash).trans (answer_eq _ _))
  | disconnect | reconnect => exact bind_of_ok ((lifecycleEpoch_memory _ _ _).trans (answer_eq _ _))
  | pause | focusLost | rematch => exact bind_of_ok ((resetAll_memory _).trans (answer_eq _ _))
  | applyAuthoritativeSnapshot snapshot =>
    exact bind_of_ok ((applyAuthoritativeSnapshot_memory snapshot).trans (answer_eq _ _))

lemma run_memory (h : s.Sound) (ops : List Op) :
    run ops s.memory = .ok () (s.run ops).memory ∧ (s.run ops).Sound := by
  induction ops generalizing s with
  | nil => exact ⟨rfl, h⟩
  | cons op ops ih =>
    obtain ⟨hrun, hsound⟩ := ih (h.step op)
    exact ⟨bind_run (call_memory h op) hrun, hsound⟩

lemma newWithReplayLimit_memory {config : RealtimeConfig} {seats limit : ℕ}
    (h : newWithReplayLimit config seats limit = .ok m) :
    ∃ s, RealtimeSession.newWithReplayLimit config seats limit = .ok s ∧ m = s.memory := by
  unfold newWithReplayLimit at h
  split_ifs at h with hseats
  obtain ⟨replay, hrep, rfl⟩ := map_ok_iff.mp h
  unfold RealtimeSession.newWithReplayLimit
  rw [dif_neg hseats, hrep]
  exact ⟨_, rfl, rfl⟩

lemma inputDelayTicks_ne_zero {config : RealtimeConfig}
    (h : RealtimeConfig.new simulationHz presentationHz controlHz delay = .ok config) :
    config.inputDelayTicks ≠ 0 := by
  unfold RealtimeConfig.new at h
  split_ifs at h with _ _ hdelay
  cases h
  exact hdelay

def Starts (start : SessionMemory) : Prop :=
  ∃ simulationHz presentationHz controlHz delay config seats limit,
    RealtimeConfig.new simulationHz presentationHz controlHz delay = .ok config ∧
      newWithReplayLimit config seats limit = .ok start

lemma Starts.run (h : Starts start) (ops : List Op) :
    ∃ s : RealtimeSession, run ops start = .ok () s.memory ∧ s.Sound := by
  obtain ⟨_, _, _, _, config, seats, limit, hcon, hnew⟩ := h
  obtain ⟨s, hs, rfl⟩ := newWithReplayLimit_memory hnew
  exact ⟨s.run ops, run_memory (RealtimeSession.sound_new (inputDelayTicks_ne_zero hcon) hs) ops⟩

/-- What the arrays and counters of a session say about each other. -/
structure WellFormed (m : SessionMemory) : Prop where
  pendingCount_eq : m.pendingCount = m.pending.countP Option.isSome
  pending_distinct : ((m.pending.filterMap id).map ScheduledTransition.identity).Nodup
  pending_current : ∀ t ∈ m.pending.filterMap id, t.seat.toNat < m.seats ∧
    m.active[t.seat.toNat]? = some true ∧ m.epochs[t.seat.toNat]? = some t.epoch
  pending_upcoming : ∀ t ∈ m.pending.filterMap id,
    (m.currentTick.toNat < UInt64.size - 1 → m.currentTick < t.applyTick) ∧
      t.applyTick.toNat ≤ m.currentTick.toNat + 240
  pending_apart : ∀ t ∈ m.pending.filterMap id,
    t.identity ∉ m.quarantined.take m.quarantinedCount
  quarantined_distinct : (m.quarantined.take m.quarantinedCount).Nodup
  floor_le : ∀ seat : Fin maxSeats, m.highestAppliedSequence[seat] ≤ m.highestSequence[seat]

lemma getElem?_of_at {α : Type} {v : SeatArray α} (h : seat < maxSeats) {a fallback : α}
    (hat : v.at seat fallback = a) : v[seat]? = some a := by
  have hget : v[seat]? = some v[seat] := Vector.getElem?_eq_getElem h
  rw [hget, ← hat, SeatArray.at, List.getD_eq_getElem?_getD, Vector.getElem?_toList, hget]
  rfl

lemma wellFormed_memory (h : s.Sound) : WellFormed s.memory := by
  have hseat : ∀ t ∈ s.pending.occupants, t.seat.toNat < maxSeats := fun t ht =>
    (h.current t ht).1.trans_le s.seats_le
  have hquar : s.memory.quarantined.take s.memory.quarantinedCount =
      s.quarantined.identities := quarantinedIdentities_memory s
  constructor
  · exact s.pending.count_eq
  · exact h.distinct
  · intro t ht
    exact ⟨(h.current t ht).1, getElem?_of_at (hseat t ht) (h.active t ht),
      getElem?_of_at (hseat t ht) (h.current t ht).2.1.symm⟩
  · intro t ht
    exact ⟨fun hlt => h.upcoming (Nat.add_lt_of_lt_sub hlt) t ht, h.within t ht⟩
  · intro t ht hmem
    rw [hquar] at hmem
    exact h.apart _ hmem (List.mem_map_of_mem ht)
  · rw [hquar]
    exact h.quarantined_distinct
  · intro seat
    have hfloor := h.floors seat seat.isLt
    simpa [SeatArray.at, List.getD_eq_getElem?_getD] using hfloor

/-- Public operations never panic, and leave arrays and counters that agree. -/
theorem session_representation_invariant {start : SessionMemory} (hstart : Starts start)
    (ops : List Op) : ∃ m, run ops start = .ok () m ∧ WellFormed m := by
  obtain ⟨s, hrun, hsound⟩ := hstart.run ops
  exact ⟨s.memory, hrun, wellFormed_memory hsound⟩

def sixtyHertz : RealtimeConfig := ⟨60, 30, 120, 1⟩

def pressTwice : List Op :=
  [.submitTransition ⟨1, 1, 1, 4, ⟨1, 0, 0⟩⟩, .submitTransition ⟨1, 1, 1, 5, ⟨2, 0, 0⟩⟩,
    .advanceTick]

lemma starts_sixtyHertz : ∃ start, newWithReplayLimit sixtyHertz 2 8 = .ok start ∧ Starts start :=
  ⟨_, rfl, 60, 30, 120, 1, _, 2, 8, rfl, rfl⟩

theorem pressTwice_representation_invariant : ∃ start m,
    newWithReplayLimit sixtyHertz 2 8 = .ok start ∧ run pressTwice start = .ok () m ∧
      WellFormed m := by
  obtain ⟨start, hnew, hstart⟩ := starts_sixtyHertz
  obtain ⟨m, hrun, hwf⟩ := session_representation_invariant hstart pressTwice
  exact ⟨start, m, hnew, hrun, hwf⟩

/-- The outcomes of `submit_transition` that refuse a transition without consequences. -/
def refusals : List AdmissionOutcome :=
  [.malformed, .inactive, .duplicate, .stale, .late, .tooFar, .full]

lemma submitTransition_refused (h : (s.submitTransition t).2 ∈ refusals ∨
      (s.submitTransition t).2 = .conflict ∧ t.identity ∈ s.quarantined.identities) :
    (s.submitTransition t).1 = s := by
  have hsub := RealtimeSession.submitTransition_submitted s t
  generalize s.submitTransition t = result at hsub h ⊢
  cases hsub with
  | refused | duplicate | recent | stale | full => rfl
  | conflict _ hpreflight =>
    have hnot := (RealtimeSession.passes_of_preflight hpreflight).not_quarantined
    simp [refusals, hnot] at h
  | conflictWhileFull | quarantineFull => simp [refusals] at h
  | scheduled hroom =>
    rw [RealtimeSession.schedule] at h
    split_ifs at h <;> simp [refusals] at h

lemma keepOnError_of_isErr {E : Type} (result : Except E RealtimeSession)
    (h : (!(result.map fun _ => ()).isOk) = true) : keepOnError s result = s := by
  cases result with
  | error error => rfl
  | ok s' => cases h

lemma step_of_isErr (h : (responseTo s op).isErr = true) : s.step op = s := by
  cases op with
  | submitTransition | submitEnvelope | submitPayload => cases h
  | advanceTick =>
    refine keepOnError_of_isErr (s.advanceTick.map Prod.fst) ?_
    change (!(s.advanceTick.map Prod.snd).isOk) = true at h
    cases hadv : s.advanceTick with
    | error error => rfl
    | ok result =>
      rw [hadv] at h
      cases h
  | recordAuthoritativeHash | disconnect | reconnect | pause | focusLost | rematch
  | applyAuthoritativeSnapshot => exact keepOnError_of_isErr _ h

/-- A refused transition and a failed operation leave the whole session as it was. -/
theorem rejections_leave_session_untouched {start m : SessionMemory} (hstart : Starts start)
    (ops : List Op) (hrun : run ops start = .ok () m) :
    (∀ t, ∃ outcome m', submitTransition t m = .ok outcome m' ∧
      (outcome ∈ refusals ∨ outcome = .conflict ∧ t.identity ∈ m.quarantinedIdentities → m' = m)) ∧
    ∀ op, ∃ response m', call op m = .ok response m' ∧ (response.isErr = true → m' = m) := by
  obtain ⟨s, hs, hsound⟩ := hstart.run ops
  rw [hs] at hrun
  cases hrun
  constructor
  · intro t
    refine ⟨_, _, submitTransition_memory t, fun h => ?_⟩
    rw [quarantinedIdentities_memory] at h
    rw [submitTransition_refused h]
  · intro op
    refine ⟨_, _, call_memory hsound op, fun h => ?_⟩
    rw [step_of_isErr h]

/-- A press of a seat that is not configured, after two presses and a tick. -/
theorem strangerPress_leaves_session_untouched : ∃ start m,
    newWithReplayLimit sixtyHertz 2 8 = .ok start ∧ run pressTwice start = .ok () m ∧
      submitTransition ⟨7, 1, 1, 4, ⟨1, 0, 0⟩⟩ m = .ok .malformed m := by
  obtain ⟨start, hnew, hstart⟩ := starts_sixtyHertz
  obtain ⟨s, hrun, -⟩ := hstart.run pressTwice
  obtain ⟨outcome, m', hsubmit, hkeep⟩ :=
    (rejections_leave_session_untouched hstart pressTwice hrun).1 ⟨7, 1, 1, 4, ⟨1, 0, 0⟩⟩
  have hanswer : (newWithReplayLimit sixtyHertz 2 8).toOption.bind (EStateM.run' do
      run pressTwice
      submitTransition ⟨7, 1, 1, 4, ⟨1, 0, 0⟩⟩) = some .malformed := by decide +kernel
  rw [hnew] at hanswer
  have hafter : EStateM.run' (EStateM.bind (fun _ => run pressTwice start) fun _ =>
      submitTransition ⟨7, 1, 1, 4, ⟨1, 0, 0⟩⟩) start = some .malformed := hanswer
  rw [hrun] at hafter
  have hlast : EStateM.run' (fun _ => submitTransition ⟨7, 1, 1, 4, ⟨1, 0, 0⟩⟩ s.memory) start =
      some .malformed := hafter
  rw [hsubmit] at hlast
  have hmalformed : outcome = .malformed := Option.some.inj hlast
  rw [hmalformed, hkeep (.inl (by rw [hmalformed]; decide))] at hsubmit
  exact ⟨start, s.memory, hnew, hrun, hsubmit⟩

end SessionMemory

end Stasis.Realtime
