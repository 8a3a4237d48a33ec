import Stasis.Lib.Effects
import Stasis.Realtime.Replay

namespace Stasis.Realtime
namespace RealtimeSession

def replica (s : RealtimeSession) (log : ReplayLog) : RealtimeSession :=
  { s with resyncRequired := false, replay := log }

/-- `submit_transition` finds a conflicting pending transition and no room to quarantine it. -/
def ConflictsWhileFull (s : RealtimeSession) (t : ScheduledTransition) : Prop :=
  s.preflight t = none ∧ s.quarantined.count = maxPendingTransitions ∧
    ∃ existing, s.pending.occupants.find? (sameSequence · t) = some existing ∧ existing ≠ t

variable {s : RealtimeSession} {t : ScheduledTransition}

lemma mem_quarantined_of_preflight (h : s.preflight t = none) :
    t.identity ∉ s.quarantined.identities := by
  unfold preflight at h
  split_ifs at h with h₁ h₂ h₃ h₄ h₅ h₆ h₇
  exact h₇

lemma resyncRequired_of_preflight (h : s.preflight t = none) : s.resyncRequired = false := by
  unfold preflight at h
  split_ifs at h with h₁ h₂
  simpa using h₂

lemma submitTransition_eq_conflict (hp : s.preflight t = none)
    (hf : s.pending.occupants.find? (sameSequence · t) = some existing) (hne : existing ≠ t)
    (hq : s.quarantined.count < maxPendingTransitions) :
    s.submitTransition t = (({ s.removePendingSequence t.identity with
          quarantined := s.quarantined.push t.identity hq } : RealtimeSession).log
        (.quarantine t.seat t.epoch t.sequence), .conflict) := by
  have hd : ¬ (sameIdentity existing t ∧ existing = t) := fun h => hne h.2
  have hi : s.quarantineIdentity t.identity = ({ s.removePendingSequence t.identity with
        quarantined := s.quarantined.push t.identity hq }, true) := by
    unfold quarantineIdentity removePendingSequence
    simp [mem_quarantined_of_preflight hp, hq]
  unfold submitTransition
  simp only [hp, hf, if_neg hd, hi]

lemma submitTransition_eq_resync (h : s.ConflictsWhileFull t) :
    s.submitTransition t =
      ({ s.removePendingSequence t.identity with resyncRequired := true }, .resyncRequired) := by
  obtain ⟨hp, hq, existing, hf, hne⟩ := h
  have hd : ¬ (sameIdentity existing t ∧ existing = t) := fun h => hne h.2
  have hi : s.quarantineIdentity t.identity = (s.removePendingSequence t.identity, false) := by
    unfold quarantineIdentity removePendingSequence
    simp [mem_quarantined_of_preflight hp, hq]
  unfold submitTransition
  simp only [hp, hf, if_neg hd, hi]

lemma foldl_applyDue_replica (entries : List (ℕ × ScheduledTransition)) (s : RealtimeSession)
    (log : ReplayLog) :
    entries.foldl applyDue (s.replica log) = (entries.foldl applyDue s).replica log := by
  induction entries generalizing s with
  | nil => rfl
  | cons entry entries ih => exact ih (s.applyDue entry)

lemma applyTick_replica (s : RealtimeSession) (log : ReplayLog) (tick : UInt64) :
    (s.replica log).applyTick tick = (s.applyTick tick).replica log :=
  foldl_applyDue_replica (s.due tick) { s with currentTick := tick } log

/-- One record takes a replayed session from `r` to `r'`; the recorded hash plays no part. -/
def Follows (r : RealtimeSession) (record : ReplayRecord) (r' : RealtimeSession) : Prop :=
  match record with
  | .scheduled t => ∃ outcome, r.submitTransition t = (r', outcome) ∧
      (outcome = .accepted ∨ outcome = .acceptedReordered)
  | .tick tick controls _ => ∃ advance, r.advanceTick = .ok (r', advance) ∧
      advance.tick = tick ∧ advance.controls = controls
  | .reset reason => r.applyReset reason = .ok r'
  | .snapshot snapshot => r.applySnapshot snapshot = r'
  | .quarantine seat epoch sequence => r.quarantineIdentity ⟨seat, epoch, sequence⟩ = (r', true)

lemma follows_tick (h : checkedSucc s.currentTick = some tick) (log : ReplayLog) :
    ∃ log', Follows (s.replica log)
      (.tick (s.applyTick tick).currentTick (s.applyTick tick).controls none)
      ((s.applyTick tick).replica log') := by
  have h' : checkedSucc (s.replica log).currentTick = some tick := h
  have ha : (s.replica log).advanceTick = .ok (((s.applyTick tick).replica log).log
      (.tick (s.applyTick tick).currentTick (s.applyTick tick).controls none),
      { tick := (s.applyTick tick).currentTick, configuredSeats := (s.applyTick tick).seats
        controls := (s.applyTick tick).controls, applied := (s.due tick).map (·.2) }) := by
    simp only [advanceTick, advanceTickInner, h', applyTick_replica]
    rfl
  exact ⟨_, _, ha, rfl, rfl⟩

lemma lifecycleEpoch_replica {active : Bool} (h : s.lifecycleEpoch seat active reason = .ok s')
    (log : ReplayLog) :
    (s.replica log).lifecycleEpoch seat active reason =
      .ok (s'.replica (log.push (.reset reason)).1) := by
  unfold lifecycleEpoch at h ⊢
  split_ifs at h with hs
  have hs' : ¬ seat ≥ (s.replica log).seats := hs
  rw [if_neg hs']
  obtain ⟨next, hnext, rfl⟩ := map_ok_iff.mp h
  exact map_ok_iff.mpr ⟨next, hnext, rfl⟩

lemma resetAll_replica (h : s.resetAll reason = .ok s') (log : ReplayLog) :
    (s.replica log).resetAll reason = .ok (s'.replica (log.push (.reset reason)).1) := by
  obtain ⟨epochs, hepochs, rfl⟩ := map_ok_iff.mp h
  exact map_ok_iff.mpr ⟨epochs, hepochs, rfl⟩

section Scheduled

variable (hp : s.preflight t = none)
  (hf : s.pending.occupants.find? (sameSequence · t) = none)
  (hr : (s.recent.toList.filterMap id).find? (sameSequence · t) = none)
  (hs : ¬ t.sequence ≤ s.highestAppliedSequence.at t.seat.toNat 0)
  (hq : s.quarantined.count ≠ maxPendingTransitions) (h : s.pending.count < maxPendingTransitions)
include hp hf hr hs hq

lemma submitTransition_eq_schedule : s.submitTransition t = s.schedule t h := by
  unfold submitTransition
  simp only [hp, hf, hr, if_neg hs, if_neg hq, dif_pos h]

lemma follows_scheduled (log : ReplayLog) :
    Follows (s.replica log) (.scheduled t)
      ((s.schedule t h).1.replica (log.push (.scheduled t)).1) := by
  -- an admitted submission saw no pending resynchronisation, so the replica's flag agrees
  have hlog : s.replica log = { s with replay := log } := by
    simp only [replica, ← resyncRequired_of_preflight hp]
  have hp' : (s.replica log).preflight t = none := by rw [hlog]; exact hp
  refine ⟨(s.schedule t h).2, ?_, ?_⟩
  · exact submitTransition_eq_schedule (s := s.replica log) hp' hf hr hs hq h
  · unfold schedule
    by_cases hl : t.sequence < s.highestSequence.at t.seat.toNat 0
    · exact .inr (if_pos hl)
    · exact .inl (if_neg hl)

end Scheduled

lemma follows_quarantine (hp : s.preflight t = none)
    (h : s.quarantined.count < maxPendingTransitions) (log : ReplayLog) :
    Follows (s.replica log) (.quarantine t.seat t.epoch t.sequence)
      (({ s.removePendingSequence t.identity with
          quarantined := s.quarantined.push t.identity h } : RealtimeSession).replica log) := by
  have hmem := mem_quarantined_of_preflight hp
  unfold Follows quarantineIdentity
  change (if t.identity ∈ s.quarantined.identities then _
    else if h : s.quarantined.count < maxPendingTransitions then _ else _) = _
  rw [if_neg hmem, dif_pos h]
  rfl

end RealtimeSession
end Stasis.Realtime
