import Stasis.Realtime.Tracking

namespace Stasis.Realtime

open ScheduledTransition
open List
namespace RealtimeSession

variable {s s' : RealtimeSession} {applied : List Identity}

/-- The identity lies behind what its seat can still apply. -/
def Past (s : RealtimeSession) (i : Identity) : Prop :=
  i.seat.toNat < s.seats ∧ (i.epoch < s.epochs.at i.seat.toNat 0 ∨
    i.epoch = s.epochs.at i.seat.toNat 0 ∧
      i.sequence ≤ s.highestAppliedSequence.at i.seat.toNat 0)

/-- What holds of a session that has applied the identities of a list. -/
structure Once (s : RealtimeSession) (applied : List Identity) : Prop extends Tracked s where
  past : ∀ i ∈ applied, s.Past i
  gone : ∀ i ∈ applied, i ∉ s.pendingIdentities
  once : applied.Nodup

namespace Once

variable (h : Once s applied)
include h

lemma mono (htrack : Tracked s') (hseats : s'.seats = s.seats)
    (hepo : ∀ seat < s.seats, s.epochs.at seat 0 ≤ s'.epochs.at seat 0)
    (hflo : ∀ seat < s.seats, s'.epochs.at seat 0 = s.epochs.at seat 0 →
      s.highestAppliedSequence.at seat 0 ≤ s'.highestAppliedSequence.at seat 0)
    (hpend : s'.pendingIdentities ⊆ s.pendingIdentities) : Once s' applied where
  toTracked := htrack
  past := by
    intro i hi
    obtain ⟨hseat, hpast⟩ := h.past i hi
    refine ⟨hseats.symm ▸ hseat, ?_⟩
    have hfloor := hflo i.seat.toNat hseat
    -- an epoch that moved on leaves the identity in an earlier one
    by_cases heq : s'.epochs.at i.seat.toNat 0 = s.epochs.at i.seat.toNat 0
    · have hle' := hfloor heq
      rw [heq]
      exact hpast.imp_right fun ⟨hepoch, hseq⟩ => ⟨hepoch, UInt32.le_trans hseq hle'⟩
    · left
      grind
  gone := fun i hi hmem => h.gone i hi (hpend hmem)
  once := h.once

lemma not_mem_of_floor_lt {t : ScheduledTransition} (hepoch : t.epoch = s.epochs.at t.seat.toNat 0)
    (hfloor : ¬ t.sequence ≤ s.highestAppliedSequence.at t.seat.toNat 0) :
    t.identity ∉ applied := by
  intro hmem
  rcases (h.past _ hmem).2 with hlt | ⟨-, hle⟩
  · exact absurd (hepoch ▸ hlt) (UInt32.lt_irrefl _)
  · exact hfloor hle

omit h in
lemma pendingIdentities_removeWhere_subset (p : ScheduledTransition → Bool) :
    (s.pending.removeWhere p).occupants.map identity ⊆ s.pendingIdentities := by
  rw [SlotTable.occupants_removeWhere]
  exact map_subset _ (filter_subset_self _)

lemma submitTransition (t : ScheduledTransition) : Once (s.submitTransition t).1 applied := by
  have htrack := h.toTracked.submitTransition t
  have hsub := submitTransition_submitted s t
  generalize s.submitTransition t = result at htrack hsub ⊢
  cases hsub with
  | refused | duplicate | recent | stale | full => exact h
  | conflict | conflictWhileFull =>
    exact h.mono htrack rfl (fun _ _ => UInt32.le_refl _) (fun _ _ _ => UInt32.le_refl _)
      (pendingIdentities_removeWhere_subset _)
  | quarantineFull =>
    exact h.mono htrack rfl (fun _ _ => UInt32.le_refl _) (fun _ _ _ => UInt32.le_refl _)
      (List.Subset.refl _)
  | scheduled hroom hpreflight hpending _ hfloor _ =>
    refine ⟨htrack, h.past, fun i hi hmem => ?_, h.once⟩
    have hperm := (s.pending.occupants_insert_perm t hroom).map identity
    rcases mem_cons.mp (hperm.mem_iff.mp hmem) with rfl | hmem
    · exact h.not_mem_of_floor_lt (passes_of_preflight hpreflight).epoch_eq hfloor hi
    · exact h.gone i hi hmem

lemma append (hpast : ∀ i ∈ ids, s.Past i) (hgone : ∀ i ∈ ids, i ∉ s.pendingIdentities)
    (hnew : ∀ i ∈ ids, i ∉ applied) (hids : ids.Nodup) : Once s (applied ++ ids) where
  toTracked := h.toTracked
  past := fun i hi => (mem_append.mp hi).elim (h.past i) (hpast i)
  gone := fun i hi => (mem_append.mp hi).elim (h.gone i) (hgone i)
  once := by
    refine nodup_append.mpr ⟨h.once, hids, ?_⟩
    rintro i hi j hj rfl
    exact hnew i hj hi

omit h in
lemma identities_dueTransitions_nodup (h : Tracked s) (tick : UInt64) :
    ((s.dueTransitions tick).map identity).Nodup := by
  have hperm := (s.dueTransitions_perm tick).map identity
  exact hperm.nodup_iff.mpr (h.distinct.sublist (filter_sublist.map _))

lemma applyTick (tick : UInt64) :
    Once (s.applyTick tick)
      (applied ++ (s.dueTransitions tick).map identity) := by
  have hdue : ∀ t ∈ s.dueTransitions tick, t ∈ s.pending.occupants ∧ t.applyTick = tick :=
    fun t => (s.mem_dueTransitions tick).mp
  have hfloor := s.highestAppliedSequence_applyTick tick
    fun t ht => lt_of_lt_of_le (h.current t ht).1 s.seats_le
  have hmono : Once (s.applyTick tick) applied := by
    refine h.mono (h.toTracked.applyTick tick) (seats_applyTick ..) ?_
      (fun seat _ _ => (hfloor seat).1) ?_
    · exact fun seat _ => (s.epochs_applyTick tick).symm ▸ UInt32.le_refl _
    · rw [pendingIdentities, pending_applyTick]
      exact pendingIdentities_removeWhere_subset _
  refine hmono.append ?_ ?_ ?_ (identities_dueTransitions_nodup h.toTracked tick)
  · intro i hi
    obtain ⟨t, ht, rfl⟩ := mem_map.mp hi
    obtain ⟨hseat, hepoch, -⟩ := h.current t (hdue t ht).1
    refine ⟨(s.seats_applyTick tick).symm ▸ hseat, .inr ⟨?_, (hfloor t.seat.toNat).2.1 t ht rfl⟩⟩
    rw [epochs_applyTick]
    exact hepoch
  · intro i hi hmem
    obtain ⟨t, ht, rfl⟩ := mem_map.mp hi
    obtain ⟨u, hu, hid⟩ := mem_map.mp hmem
    obtain ⟨hu, hlater⟩ := (s.mem_pending_applyTick tick).mp hu
    -- only `t` itself has its identity, and `t` was taken
    obtain rfl := h.eq_of_identity_eq hu (hdue t ht).1 hid
    exact hlater (hdue u ht).2
  · intro i hi hmem
    obtain ⟨t, ht, rfl⟩ := mem_map.mp hi
    exact h.gone _ hmem (mem_map_of_mem (hdue t ht).1)

lemma advanceTick (hadv : s.advanceTick = .ok (s', advance)) :
    Once s' (applied ++ advance.applied.map identity) := by
  have htrack := h.toTracked.advanceTick hadv
  obtain ⟨-, -, -, happ, -, rfl⟩ := advanceTick_eq hadv
  rw [happ]
  have htick := h.applyTick advance.tick
  exact ⟨htrack, htick.past, htick.gone, htick.once⟩

lemma lifecycleEpoch {seat : ℕ} {active : Bool}
    (hreset : s.lifecycleEpoch seat active reason = .ok s') : Once s' applied := by
  have htrack := h.toTracked.lifecycleEpoch hreset
  obtain ⟨hseat, next, hnext, rfl⟩ := lifecycleEpoch_eq hreset
  have hput := Tracked.at_put hseat
  refine h.mono htrack rfl ?_ ?_ (pendingIdentities_removeWhere_subset _)
  · intro other _
    change _ ≤ (s.epochs.put seat next).at other 0
    rw [hput]
    split_ifs with heq
    · exact UInt32.le_of_lt (heq ▸ hnext)
    · exact UInt32.le_refl _
  · intro other _ heq
    change (s.epochs.put seat next).at other 0 = _ at heq
    change _ ≤ (s.highestAppliedSequence.put seat 0).at other 0
    rw [hput] at heq ⊢
    split_ifs at heq ⊢ with hother
    · exact absurd (heq ▸ hother ▸ hnext) (UInt32.lt_irrefl _)
    · exact UInt32.le_refl _

lemma resetAll (hreset : s.resetAll reason = .ok s') : Once s' applied := by
  have htrack := Tracked.resetAll hreset
  obtain ⟨epochs, hepo, rfl⟩ := resetAll_eq hreset
  refine h.mono htrack rfl (fun seat hseat => UInt32.le_of_lt (hepo seat hseat)) ?_ ?_
  · intro seat hseat heq
    exact absurd (heq ▸ hepo seat hseat) (UInt32.lt_irrefl _)
  · simp [pendingIdentities, RealtimeSession.log]

lemma applyAuthoritativeSnapshot (hsnap : s.applyAuthoritativeSnapshot snapshot = .ok s') :
    Once s' applied := by
  have htrack := Tracked.applyAuthoritativeSnapshot hsnap
  obtain ⟨hche, rfl⟩ := applyAuthoritativeSnapshot_eq hsnap
  refine h.mono htrack rfl (fun seat hseat => (hche seat hseat).1) ?_ ?_
  · intro seat hseat heq
    exact UInt32.le_trans (h.floor_le seat hseat) ((hche seat hseat).2 heq)
  · simp [pendingIdentities, RealtimeSession.log, applySnapshot]

end Once

/-- The identities that the ticks of a history applied, in order. -/
def appliedIdentities (history : List SessionEvent) : List Identity :=
  (history.flatMap SessionEvent.applied).map ScheduledTransition.identity

lemma appliedIdentities_append (history events : List SessionEvent) :
    appliedIdentities (history ++ events) =
      appliedIdentities history ++ appliedIdentities events := by
  rw [appliedIdentities, flatMap_append, map_append]
  rfl

namespace Once

variable {history : List SessionEvent} (h : Once s (appliedIdentities history))
include h

lemma submitLog (t : ScheduledTransition) :
    Once (s.submitLog t).1 (appliedIdentities (history ++ (s.submitLog t).2)) := by
  have hquiet : appliedIdentities (s.submitLog t).2 = [] := rfl
  rw [appliedIdentities_append, hquiet, append_nil]
  exact h.submitTransition t

lemma lifecycleLog {E : Type} {result : Except E RealtimeSession} (hevent : event.applied = [])
    (hres : ∀ s', result = .ok s' → Once s' (appliedIdentities history)) :
    Once (s.lifecycleLog event result).1
      (appliedIdentities (history ++ (s.lifecycleLog event result).2)) := by
  cases result with
  | error e => simpa [RealtimeSession.lifecycleLog] using h
  | ok s' =>
    have hquiet : appliedIdentities [event] = [] := by simp [appliedIdentities, hevent]
    simp only [RealtimeSession.lifecycleLog]
    rw [appliedIdentities_append, hquiet, append_nil]
    exact hres s' rfl

lemma stepLog (op : Op) :
    Once (s.stepLog op).1 (appliedIdentities (history ++ (s.stepLog op).2)) := by
  cases op with
  | submitTransition t => exact h.submitLog t
  | submitEnvelope | submitPayload =>
    exact runLog_invariant (fun s history => Once s (appliedIdentities history)) _
      (fun _ _ t _ hs => hs.submitLog t) h
  | advanceTick =>
    simp only [RealtimeSession.stepLog, advanceLog]
    cases hadv : s.advanceTick with
    | error e => simpa using h
    | ok result =>
      have happ : appliedIdentities [.advanced result.2] = result.2.applied.map identity := by
        simp [appliedIdentities, SessionEvent.applied]
      simp only
      rw [appliedIdentities_append, happ]
      exact h.advanceTick hadv
  | recordAuthoritativeHash tick hash =>
    have htrack := h.toTracked.recordAuthoritativeHash tick hash
    simp only [RealtimeSession.stepLog, recordAuthoritativeHash, append_nil] at htrack ⊢
    cases hlog : s.replay.recordHash tick hash with
    | error e => exact h
    | ok log =>
      rw [hlog] at htrack
      exact ⟨htrack, h.past, h.gone, h.once⟩
  | disconnect | reconnect => exact h.lifecycleLog rfl fun _ => h.lifecycleEpoch
  | pause | focusLost | rematch => exact h.lifecycleLog rfl fun _ => h.resetAll
  | applyAuthoritativeSnapshot => exact h.lifecycleLog rfl fun _ => h.applyAuthoritativeSnapshot

omit h

lemma run {config : RealtimeConfig} {seats limit : ℕ}
    (h : newWithReplayLimit config seats limit = .ok s) (ops : List Op) :
    Once (s.run ops) (appliedIdentities (s.history ops)) := by
  have hfresh : Once s (appliedIdentities []) :=
    ⟨tracked_new h, by simp [appliedIdentities], by simp [appliedIdentities], .nil⟩
  have hrun := runLog_invariant (fun s history => Once s (appliedIdentities history)) ops
    (fun _ _ op _ hs => hs.stepLog op) hfresh
  rwa [fst_runLog_stepLog] at hrun

end Once

/-- Over every run of a fresh session no identity is applied twice, by one tick or by two. -/
theorem applied_at_most_once {config : RealtimeConfig} {seats limit : ℕ}
    (h : newWithReplayLimit config seats limit = .ok s) (ops : List Op) :
    ((s.history ops).flatMap SessionEvent.applied).Pairwise fun t u => t.identity ≠ u.identity :=
  List.pairwise_map.mp (Once.run h ops).once

def pressAgain : List Op :=
  [.submitTransition (press 1 1), .submitTransition (press 1 1), .advanceTick,
    .submitTransition (press 1 1), .advanceTick]

theorem applied_once_pressAgain :
    (sampleSession.history pressAgain).flatMap SessionEvent.applied = [press 1 1] ∧
      ((sampleSession.history pressAgain).flatMap SessionEvent.applied).Pairwise
        fun t u => t.identity ≠ u.identity :=
  ⟨by decide +kernel, applied_at_most_once
    (show newWithReplayLimit sampleConfig 1 1000 = .ok sampleSession from rfl) pressAgain⟩

end RealtimeSession
end Stasis.Realtime
