import Stasis.Realtime.Replica

namespace Stasis.Realtime

lemma sameSequence_iff : sameSequence l r = true ↔ l.identity = r.identity := by
  simp [sameSequence, ScheduledTransition.identity, and_assoc]

namespace RealtimeSession

variable {s : RealtimeSession} {t : ScheduledTransition}

lemma find?_sameSequence_eq_none {ts : List ScheduledTransition} :
    ts.find? (sameSequence · t) = none ↔ t.identity ∉ ts.map ScheduledTransition.identity := by
  simp [List.find?_eq_none, sameSequence_iff]

lemma of_find?_sameSequence {ts : List ScheduledTransition}
    (h : ts.find? (sameSequence · t) = some existing) :
    existing ∈ ts ∧ existing.identity = t.identity :=
  ⟨List.mem_of_find?_eq_some h, sameSequence_iff.mp (by simpa using List.find?_some h)⟩

def recentTransitions (s : RealtimeSession) : List ScheduledTransition :=
  s.recent.toList.filterMap id

/-- What the checks before every table lookup say about a transition that passes them. -/
structure Passes (s : RealtimeSession) (t : ScheduledTransition) : Prop where
  seat_lt : t.seat.toNat < s.seats
  resyncRequired : s.resyncRequired = false
  epoch_eq : t.epoch = s.epochs.at t.seat.toNat 0
  earliest : s.earliestApplyTick ≤ t.applyTick
  not_quarantined : t.identity ∉ s.quarantined.identities

lemma passes_of_preflight (h : s.preflight t = none) : Passes s t := by
  unfold preflight at h
  split_ifs at h with hmal hres hina hstale hlate hfar hquar
  rw [not_or] at hmal
  exact ⟨not_le.mp hmal.2, by simpa using hres, not_not.mp hstale, UInt64.not_lt.mp hlate, hquar⟩

lemma outcome_of_preflight (h : s.preflight t = some outcome) :
    outcome ≠ .accepted ∧ outcome ≠ .acceptedReordered ∧
      (outcome = .resyncRequired → s.resyncRequired = true) ∧
      (outcome = .conflict → t.identity ∈ s.quarantined.identities) := by
  unfold preflight at h
  split_ifs at h <;> cases h <;> simp_all

inductive Submitted (s : RealtimeSession) (t : ScheduledTransition) :
    RealtimeSession × AdmissionOutcome → Prop
  | refused {outcome} : s.preflight t = some outcome → Submitted s t (s, outcome)
  | duplicate : s.preflight t = none → t ∈ s.pending.occupants → Submitted s t (s, .duplicate)
  | conflict {existing} (hroom : s.quarantined.count < maxPendingTransitions) :
      s.preflight t = none → existing ∈ s.pending.occupants → existing.identity = t.identity →
      existing ≠ t →
      Submitted s t
        (({ s.removePendingSequence t.identity with
            quarantined := s.quarantined.push t.identity hroom } : RealtimeSession).log
          (.quarantine t.seat t.epoch t.sequence), .conflict)
  | conflictWhileFull {existing} : s.preflight t = none → existing ∈ s.pending.occupants →
      existing.identity = t.identity → existing ≠ t →
      Submitted s t
        ({ s.removePendingSequence t.identity with resyncRequired := true }, .resyncRequired)
  | recent {existing} : s.preflight t = none →
      t.identity ∉ s.pending.occupants.map ScheduledTransition.identity →
      s.recentTransitions.find? (sameSequence · t) = some existing →
      Submitted s t (s, s.recentOutcome existing t)
  | stale : s.preflight t = none →
      t.identity ∉ s.pending.occupants.map ScheduledTransition.identity →
      t.identity ∉ s.recentTransitions.map ScheduledTransition.identity →
      t.sequence ≤ s.highestAppliedSequence.at t.seat.toNat 0 → Submitted s t (s, .stale)
  | quarantineFull : s.preflight t = none →
      t.identity ∉ s.pending.occupants.map ScheduledTransition.identity →
      ¬ t.sequence ≤ s.highestAppliedSequence.at t.seat.toNat 0 →
      Submitted s t ({ s with resyncRequired := true }, .resyncRequired)
  | full : s.preflight t = none →
      t.identity ∉ s.pending.occupants.map ScheduledTransition.identity →
      Submitted s t (s, .full)
  | scheduled (hroom : s.pending.count < maxPendingTransitions) : s.preflight t = none →
      t.identity ∉ s.pending.occupants.map ScheduledTransition.identity →
      t.identity ∉ s.recentTransitions.map ScheduledTransition.identity →
      ¬ t.sequence ≤ s.highestAppliedSequence.at t.seat.toNat 0 →
      s.quarantined.count < maxPendingTransitions → Submitted s t (s.schedule t hroom)

lemma submitTransition_submitted (s : RealtimeSession) (t : ScheduledTransition) :
    Submitted s t (s.submitTransition t) := by
  generalize hsub : s.submitTransition t = result
  have heq := hsub
  unfold submitTransition at heq
  split at heq
  · subst heq
    rename_i hp
    exact .refused hp
  rename_i hp
  split at heq
  · rename_i existing hf
    obtain ⟨hmem, hid⟩ := of_find?_sameSequence hf
    split_ifs at heq with hd
    · subst heq
      exact .duplicate hp (hd.2 ▸ hmem)
    have hne : existing ≠ t := by
      rintro rfl
      exact hd ⟨by simp [sameIdentity], rfl⟩
    by_cases hroom : s.quarantined.count < maxPendingTransitions
    · rw [← hsub, submitTransition_eq_conflict hp hf hne hroom]
      exact .conflict hroom hp hmem hid hne
    · have hfull : s.quarantined.count = maxPendingTransitions :=
        le_antisymm s.quarantined.bounded (not_lt.mp hroom)
      rw [← hsub, submitTransition_eq_resync ⟨hp, hfull, existing, hf, hne⟩]
      exact .conflictWhileFull hp hmem hid hne
  rename_i hf
  have hpend := find?_sameSequence_eq_none.mp hf
  split at heq
  · subst heq
    rename_i hr
    exact .recent hp hpend hr
  rename_i hr
  have hrec := find?_sameSequence_eq_none.mp hr
  split_ifs at heq with hs hq hc <;> subst heq
  · exact .stale hp hpend hrec hs
  · exact .quarantineFull hp hpend hs
  · exact .scheduled hc hp hpend hrec hs (lt_of_le_of_ne s.quarantined.bounded hq)
  · exact .full hp hpend

end RealtimeSession
end Stasis.Realtime
