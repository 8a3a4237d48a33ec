import Stasis.Lib.Trace
import Stasis.Realtime.Fidelity
import Stasis.Realtime.Ticks

namespace Stasis.Realtime

inductive SessionEvent
  /-- A submission, with `resync_required` as it was before. -/
  | submitted (resyncRequired : Bool) (t : ScheduledTransition) (outcome : AdmissionOutcome)
  | advanced (advance : RealtimeSession.TickAdvance)
  | reset (reason : ResetReason)
  | snapshot (snapshot : AuthoritativeSnapshot)

def SessionEvent.applied : SessionEvent → List ScheduledTransition
  | advanced advance => advance.applied
  | _ => []

namespace RealtimeSession

def submitLog (s : RealtimeSession) (t : ScheduledTransition) :
    RealtimeSession × List SessionEvent :=
  ((s.submitTransition t).1, [.submitted s.resyncRequired t (s.submitTransition t).2])

/-- A method that fails leaves the session alone and is not seen. -/
def lifecycleLog {E : Type} (s : RealtimeSession) (event : SessionEvent) :
    Except E RealtimeSession → RealtimeSession × List SessionEvent
  | .ok s' => (s', [event])
  | .error _ => (s, [])

def advanceLog (s : RealtimeSession) : RealtimeSession × List SessionEvent :=
  match s.advanceTick with
  | .ok (s', advance) => (s', [.advanced advance])
  | .error _ => (s, [])

def stepLog (s : RealtimeSession) : Op → RealtimeSession × List SessionEvent
  | .submitTransition t => s.submitLog t
  | .submitEnvelope e => runLog submitLog s e.transitions
  | .submitPayload payload => runLog submitLog s (Op.submitPayload payload).submitted
  | .advanceTick => s.advanceLog
  | .recordAuthoritativeHash tick hash => (keepOnError s (s.recordAuthoritativeHash tick hash), [])
  | .disconnect seat => s.lifecycleLog (.reset (.disconnect (.ofNat seat))) (s.disconnect seat)
  | .reconnect seat => s.lifecycleLog (.reset (.reconnect (.ofNat seat))) (s.reconnect seat)
  | .pause => s.lifecycleLog (.reset .pause) s.pause
  | .focusLost => s.lifecycleLog (.reset .focusLost) s.focusLost
  | .rematch => s.lifecycleLog (.reset .rematch) s.rematch
  | .applyAuthoritativeSnapshot snapshot =>
    s.lifecycleLog (.snapshot snapshot) (s.applyAuthoritativeSnapshot snapshot)

def history (s : RealtimeSession) (ops : List Op) : List SessionEvent := (runLog stepLog s ops).2

variable (s : RealtimeSession)

lemma fst_runLog_submitLog (ts : List ScheduledTransition) :
    (runLog submitLog s ts).1 = ts.foldl (fun s t => (s.submitTransition t).1) s := by
  induction ts generalizing s with
  | nil => rfl
  | cons t ts ih => exact ih (s.submitTransition t).1

lemma fst_lifecycleLog {E : Type} (event : SessionEvent) (result : Except E RealtimeSession) :
    (s.lifecycleLog event result).1 = keepOnError s result := by
  cases result <;> rfl

lemma fst_stepLog (op : Op) : (s.stepLog op).1 = s.step op := by
  cases op with
  | submitEnvelope e =>
    exact (fst_runLog_submitLog s e.transitions).trans (submitEnvelope_fst _ _ []).symm
  | submitPayload payload =>
    simp only [stepLog, step, submitPayload, Op.submitted]
    cases ControlEnvelope.decode payload with
    | error e => rfl
    | ok e => exact (fst_runLog_submitLog s e.transitions).trans (submitEnvelope_fst _ _ []).symm
  | advanceTick =>
    simp only [stepLog, advanceLog, step]
    cases s.advanceTick <;> rfl
  | disconnect | reconnect | pause | focusLost | rematch | applyAuthoritativeSnapshot =>
    exact fst_lifecycleLog ..
  | _ => rfl

lemma fst_runLog_stepLog (ops : List Op) : (runLog stepLog s ops).1 = s.run ops := by
  induction ops generalizing s with
  | nil => rfl
  | cons op ops ih =>
    change (runLog stepLog (s.stepLog op).1 ops).1 = (s.step op).run ops
    rw [ih, fst_stepLog]

variable {s s' : RealtimeSession}

lemma advanceTick_eq (h : s.advanceTick = .ok (s', advance)) :
    s.currentTick.toNat + 1 < UInt64.size ∧ advance.tick = s.currentTick + 1 ∧
      advance.configuredSeats = s.seats ∧ advance.applied = s.dueTransitions advance.tick ∧
      advance.controls = (s.applyTick advance.tick).controls ∧
      s' = (s.applyTick advance.tick).log (.tick advance.tick advance.controls none) := by
  unfold advanceTick advanceTickInner checkedSucc at h
  split_ifs at h with hlt
  cases h
  simp only [currentTick_applyTick, seats_applyTick]
  exact ⟨hlt, trivial, trivial, rfl, trivial, trivial⟩

lemma lt_of_nextEpoch (h : s.nextEpoch seat = .ok next) : s.epochs.at seat 0 < next := by
  unfold nextEpoch at h
  dsimp only at h
  split_ifs at h with hlt
  cases h
  have hmod : (s.epochs.at seat 0 + 1).toNat = (s.epochs.at seat 0).toNat + 1 := by
    rw [UInt32.toNat_add]
    exact Nat.mod_eq_of_lt hlt
  rw [UInt32.lt_iff_toNat_lt, hmod]
  exact Nat.lt_succ_self _

lemma lifecycleEpoch_eq {active : Bool} (h : s.lifecycleEpoch seat active reason = .ok s') :
    seat < s.seats ∧ ∃ next, s.epochs.at seat 0 < next ∧ s' = ({ s with
        epochs := s.epochs.put seat next
        active := s.active.put seat active
        controls := s.controls.put seat .neutral
        pending := s.pending.removeWhere fun t => t.seat.toNat == seat
        highestSequence := s.highestSequence.put seat 0
        highestAppliedSequence := s.highestAppliedSequence.put seat 0
        recent := s.recent.forgetSeat seat
        quarantined := s.quarantined.retain fun i => i.seat.toNat != seat } :
          RealtimeSession).log (.reset reason) := by
  unfold lifecycleEpoch at h
  split_ifs at h with hseat
  obtain ⟨next, hnext, rfl⟩ := map_ok_iff.mp h
  exact ⟨not_le.mp hseat, next, lt_of_nextEpoch hnext, rfl⟩

lemma foldlM_nextEpoch {seats : List ℕ} {init epochs : SeatArray UInt32}
    (hseats : ∀ seat ∈ seats, seat < maxSeats)
    (h : seats.foldlM (fun epochs seat =>
      (s.nextEpoch seat).map fun next => SeatArray.put epochs seat next) init = .ok epochs)
    (seat : ℕ) : (seat ∈ seats → s.nextEpoch seat = .ok (epochs.at seat 0)) ∧
      (seat ∉ seats → epochs.at seat 0 = init.at seat 0) := by
  induction seats generalizing init with
  | nil =>
    cases h
    exact ⟨by simp, fun _ => rfl⟩
  | cons first rest ih =>
    rw [List.foldlM_cons] at h
    obtain ⟨init', hfirst, hrest⟩ := bind_ok_iff.mp h
    obtain ⟨next, hnext, rfl⟩ := map_ok_iff.mp hfirst
    obtain ⟨hin, hout⟩ :=
      ih (fun seat hseat => hseats seat (List.mem_cons_of_mem first hseat)) hrest
    have hput : ∀ other, (init.put first next).at other 0 =
        if first = other then next else init.at other 0 := fun other =>
      SeatArray.at_put init next 0 (hseats first List.mem_cons_self)
    refine ⟨fun hmem => ?_, fun hmem => ?_⟩
    · by_cases hlater : seat ∈ rest
      · exact hin hlater
      · obtain rfl : seat = first := (List.mem_cons.mp hmem).resolve_right hlater
        rw [hout hlater, hput, if_pos rfl, hnext]
    · rw [List.mem_cons, not_or] at hmem
      rw [hout hmem.2, hput, if_neg (Ne.symm hmem.1)]

lemma resetAll_eq (h : s.resetAll reason = .ok s') :
    ∃ epochs, (∀ seat < s.seats, s.epochs.at seat 0 < epochs.at seat 0) ∧ s' = ({ s with
        epochs
        currentTick := if reason = ResetReason.rematch then 0 else s.currentTick
        active := if reason = ResetReason.rematch then s.active.fillBelow s.seats true else s.active
        controls := Vector.replicate _ .neutral
        pending := .empty _ _
        highestSequence := s.highestSequence.fillBelow s.seats 0
        highestAppliedSequence := s.highestAppliedSequence.fillBelow s.seats 0
        quarantined := .empty
        resyncRequired := false
        recent := Vector.replicate _ none
        recentNext := 0 } : RealtimeSession).log (.reset reason) := by
  obtain ⟨epochs, hepo, rfl⟩ := map_ok_iff.mp h
  refine ⟨epochs, fun seat hseat => ?_, rfl⟩
  have hrange : ∀ seat ∈ List.range s.seats, seat < maxSeats := fun seat hmem =>
    lt_of_lt_of_le (List.mem_range.mp hmem) s.seats_le
  exact lt_of_nextEpoch ((foldlM_nextEpoch hrange hepo seat).1 (List.mem_range.mpr hseat))

lemma applyAuthoritativeSnapshot_eq (h : s.applyAuthoritativeSnapshot snapshot = .ok s') :
    (∀ seat < s.seats, s.epochs.at seat 0 ≤ snapshot.epochs.at seat 0 ∧
      (snapshot.epochs.at seat 0 = s.epochs.at seat 0 →
        s.highestSequence.at seat 0 ≤ snapshot.sequences.at seat 0)) ∧
      s' = (s.applySnapshot snapshot).log (.snapshot snapshot) := by
  unfold applyAuthoritativeSnapshot at h
  split at h
  · cases h
  split at h
  · cases h
  split at h
  · cases h
  split at h
  · cases h
  split at h
  · cases h
  rename_i hche
  cases h
  refine ⟨fun seat hseat => ?_, rfl⟩
  have hnone := List.findSome?_eq_none_iff.mp hche seat (List.mem_range.mpr hseat)
  unfold snapshotEpochError at hnone
  dsimp only at hnone
  split_ifs at hnone with hmax hepoch htick hseq
  refine ⟨UInt32.not_lt.mp hepoch, fun heq => ?_⟩
  exact UInt32.not_lt.mp fun hlt => hseq ⟨heq, hlt⟩

end RealtimeSession
end Stasis.Realtime
