import Stasis.Realtime.History

namespace Stasis.Realtime

open SlotTable
open List
namespace RealtimeSession

variable {s s' : RealtimeSession}

def pendingIdentities (s : RealtimeSession) : List Identity :=
  s.pending.occupants.map ScheduledTransition.identity

structure Tracked (s : RealtimeSession) : Prop where
  current : ∀ t ∈ s.pending.occupants, t.seat.toNat < s.seats ∧
    t.epoch = s.epochs.at t.seat.toNat 0 ∧ t.sequence ≤ s.highestSequence.at t.seat.toNat 0
  distinct : s.pendingIdentities.Nodup
  floor_le : ∀ seat < s.seats,
    s.highestAppliedSequence.at seat 0 ≤ s.highestSequence.at seat 0
  quarantined_le : ∀ i ∈ s.quarantined.identities,
    i.sequence ≤ s.highestSequence.at i.seat.toNat 0
  quarantined_distinct : s.quarantined.identities.Nodup
  apart : ∀ i ∈ s.quarantined.identities, i ∉ s.pendingIdentities

lemma tracked_new {config : RealtimeConfig} {seats limit : ℕ}
    (h : newWithReplayLimit config seats limit = .ok s) : Tracked s := by
  unfold newWithReplayLimit at h
  split_ifs at h
  obtain ⟨log, -, rfl⟩ := map_ok_iff.mp h
  exact ⟨by simp, by simp [pendingIdentities], fun _ _ => UInt32.le_refl _,
    by simp [QuarantineTable.empty], .nil, by simp [QuarantineTable.empty]⟩

namespace Tracked

variable (h : Tracked s)
include h

lemma eq_of_identity_eq (ht : t ∈ s.pending.occupants) (hu : u ∈ s.pending.occupants)
    (hid : t.identity = u.identity) : t = u :=
  inj_on_of_nodup_map h.distinct ht hu hid

lemma mono (hseats : s'.seats = s.seats) (hfloor_le : ∀ seat < s.seats,
      s'.highestAppliedSequence.at seat 0 ≤ s'.highestSequence.at seat 0)
    (hpend : s'.pending.occupants.Sublist s.pending.occupants)
    (hquar : s'.quarantined.identities.Sublist s.quarantined.identities)
    (hkept : ∀ t ∈ s'.pending.occupants, s'.epochs.at t.seat.toNat 0 = s.epochs.at t.seat.toNat 0 ∧
      s'.highestSequence.at t.seat.toNat 0 = s.highestSequence.at t.seat.toNat 0)
    (hkept' : ∀ i ∈ s'.quarantined.identities,
      s'.highestSequence.at i.seat.toNat 0 = s.highestSequence.at i.seat.toNat 0) :
    Tracked s' where
  current := by
    intro t ht
    obtain ⟨hseat, hepoch, hseq⟩ := h.current t (hpend.subset ht)
    obtain ⟨hepoch', hseq'⟩ := hkept t ht
    exact ⟨hseats ▸ hseat, hepoch'.symm ▸ hepoch, hseq'.symm ▸ hseq⟩
  distinct := h.distinct.sublist (hpend.map _)
  floor_le := fun seat hseat => hfloor_le seat (hseats ▸ hseat)
  quarantined_le := fun i hi => (hkept' i hi).symm ▸ h.quarantined_le i (hquar.subset hi)
  quarantined_distinct := h.quarantined_distinct.sublist hquar
  apart := fun i hi hmem => h.apart i (hquar.subset hi) ((hpend.map _).subset hmem)

lemma schedule (hroom : s.pending.count < maxPendingTransitions) (hpas : Passes s t)
    (hnew : t.identity ∉ s.pendingIdentities) : Tracked (s.schedule t hroom).1 := by
  have hseat : t.seat.toNat < maxSeats := lt_of_lt_of_le hpas.seat_lt s.seats_le
  have hperm := s.pending.occupants_insert_perm t hroom
  have hids : (s.schedule t hroom).1.pendingIdentities.Perm (t.identity :: s.pendingIdentities) :=
    hperm.map ScheduledTransition.identity
  have hhig : ∀ seat, (s.schedule t hroom).1.highestSequence.at seat 0 =
      if t.seat.toNat = seat then max (s.highestSequence.at t.seat.toNat 0) t.sequence
      else s.highestSequence.at seat 0 := fun seat => SeatArray.at_put _ _ _ hseat
  have hgrows : ∀ seat, s.highestSequence.at seat 0 ≤
      (s.schedule t hroom).1.highestSequence.at seat 0 := by
    intro seat
    rw [hhig]
    grind [max_sequence_eq]
  refine ⟨?_, ?_, ?_, ?_, h.quarantined_distinct, ?_⟩
  · intro u hu
    rcases mem_cons.mp (hperm.mem_iff.mp hu) with rfl | hu
    · refine ⟨hpas.seat_lt, hpas.epoch_eq, ?_⟩
      rw [hhig, if_pos rfl]
      grind [max_sequence_eq]
    · obtain ⟨hlt, hepoch, hseq⟩ := h.current u hu
      exact ⟨hlt, hepoch, UInt32.le_trans hseq (hgrows _)⟩
  · exact hids.nodup_iff.mpr (nodup_cons.mpr ⟨hnew, h.distinct⟩)
  · exact fun seat hlt => UInt32.le_trans (h.floor_le seat hlt) (hgrows seat)
  · exact fun i hi => UInt32.le_trans (h.quarantined_le i hi) (hgrows _)
  · intro i hi hmem
    rcases mem_cons.mp (hids.mem_iff.mp hmem) with rfl | hmem
    · exact hpas.not_quarantined hi
    · exact h.apart i hi hmem

lemma removePendingSequence (i : Identity) : Tracked (s.removePendingSequence i) := by
  refine h.mono rfl h.floor_le ?_ (.refl _) (fun _ _ => ⟨rfl, rfl⟩) fun _ _ => rfl
  change (s.pending.removeWhere _).occupants.Sublist _
  rw [occupants_removeWhere]
  exact filter_sublist

omit h in
lemma not_mem_removePendingSequence (s : RealtimeSession) (i : Identity) :
    i ∉ (s.removePendingSequence i).pendingIdentities := by
  intro hmem
  obtain ⟨t, ht, rfl⟩ := mem_map.mp hmem
  have hother := (mem_occupants_removeWhere.mp ht).2
  simp at hother

lemma quarantine (hroom : s.quarantined.count < maxPendingTransitions) (hpas : Passes s t)
    (hexisting : existing ∈ s.pending.occupants) (hid : existing.identity = t.identity) :
    Tracked { s.removePendingSequence t.identity with
      quarantined := s.quarantined.push t.identity hroom } := by
  have hrem := h.removePendingSequence t.identity
  have hseq : t.identity.sequence ≤ s.highestSequence.at t.identity.seat.toNat 0 :=
    hid ▸ (h.current existing hexisting).2.2
  refine ⟨hrem.current, hrem.distinct, hrem.floor_le, ?_, ?_, ?_⟩
  · intro i hi
    rcases mem_append.mp hi with hi | hi
    · exact h.quarantined_le i hi
    · rw [mem_singleton.mp hi]
      exact hseq
  · refine nodup_append.mpr ⟨h.quarantined_distinct, nodup_singleton _, ?_⟩
    rintro i hi j hj rfl
    exact hpas.not_quarantined (mem_singleton.mp hj ▸ hi)
  · intro i hi hmem
    rcases mem_append.mp hi with hi | hi
    · exact hrem.apart i hi hmem
    · rw [mem_singleton.mp hi] at hmem
      exact not_mem_removePendingSequence s _ hmem

lemma submitTransition (t : ScheduledTransition) : Tracked (s.submitTransition t).1 := by
  have hsub := submitTransition_submitted s t
  generalize s.submitTransition t = result at hsub ⊢
  cases hsub with
  | refused | duplicate | recent | stale | full => exact h
  | conflict hroom hpreflight hexisting hid hne =>
    have hnext := h.quarantine hroom (passes_of_preflight hpreflight) hexisting hid
    exact ⟨hnext.1, hnext.2, hnext.3, hnext.4, hnext.5, hnext.6⟩
  | conflictWhileFull =>
    have hnext := h.removePendingSequence t.identity
    exact ⟨hnext.1, hnext.2, hnext.3, hnext.4, hnext.5, hnext.6⟩
  | quarantineFull => exact ⟨h.1, h.2, h.3, h.4, h.5, h.6⟩
  | scheduled hroom hpreflight hpending _ _ _ =>
    exact h.schedule hroom (passes_of_preflight hpreflight) hpending

lemma applyTick (tick : UInt64) : Tracked (s.applyTick tick) := by
  refine h.mono (seats_applyTick ..) ?_ ?_ (quarantined_applyTick_sublist ..) ?_ ?_
  · intro seat hseat
    rw [highestSequence_applyTick]
    have hfloor := s.highestAppliedSequence_applyTick tick
      fun t ht => lt_of_lt_of_le (h.current t ht).1 s.seats_le
    refine (hfloor seat).2.2 _ (h.floor_le seat hseat) ?_
    rintro t ht rfl
    exact (h.current t ((s.mem_dueTransitions tick).mp ht).1).2.2
  · rw [pending_applyTick, occupants_removeWhere]
    exact filter_sublist
  · exact fun t _ => ⟨by rw [epochs_applyTick], by rw [highestSequence_applyTick]⟩
  · exact fun i _ => by rw [highestSequence_applyTick]

lemma advanceTick (hadv : s.advanceTick = .ok (s', advance)) : Tracked s' := by
  obtain ⟨-, -, -, -, -, rfl⟩ := advanceTick_eq hadv
  have htick := h.applyTick advance.tick
  exact ⟨htick.1, htick.2, htick.3, htick.4, htick.5, htick.6⟩

omit h in
lemma at_put (hseat : seat < s.seats) (v : SeatArray UInt32) (a : UInt32) (other : ℕ) :
    (v.put seat a).at other 0 = if seat = other then a else v.at other 0 :=
  SeatArray.at_put v a 0 (lt_of_lt_of_le hseat s.seats_le)

lemma lifecycleEpoch {active : Bool} (hreset : s.lifecycleEpoch seat active reason = .ok s') :
    Tracked s' := by
  obtain ⟨hseat, next, hnext, rfl⟩ := lifecycleEpoch_eq hreset
  have hput := at_put hseat
  refine h.mono rfl ?_ ?_ filter_sublist ?_ ?_
  · intro other hother
    change (s.highestAppliedSequence.put seat 0).at other 0 ≤
      (s.highestSequence.put seat 0).at other 0
    rw [hput, hput]
    split_ifs
    · exact UInt32.le_refl _
    · exact h.floor_le other hother
  · change (s.pending.removeWhere _).occupants.Sublist _
    rw [occupants_removeWhere]
    exact filter_sublist
  · intro t ht
    have hne : seat ≠ t.seat.toNat := by
      have hmem := (mem_occupants_removeWhere.mp ht).2
      exact fun heq => by simp [heq] at hmem
    exact ⟨(hput ..).trans (if_neg hne), (hput ..).trans (if_neg hne)⟩
  · intro i hi
    have hne : seat ≠ i.seat.toNat := by
      have hmem := (mem_filter.mp hi).2
      exact fun heq => by simp [heq] at hmem
    exact (hput ..).trans (if_neg hne)

omit h in
lemma cleared (hpend : s.pending = .empty _ _) (hquar : s.quarantined = .empty)
    (hfloor_le : ∀ seat < s.seats,
      s.highestAppliedSequence.at seat 0 ≤ s.highestSequence.at seat 0) : Tracked s := by
  have hocc : s.pending.occupants = [] := by rw [hpend, occupants_empty]
  have hide : s.quarantined.identities = [] := by rw [hquar]; rfl
  exact ⟨by simp [hocc], by simp [pendingIdentities, hocc], hfloor_le,
    by simp [hide], by simp [hide], by simp [hide]⟩

omit h in
lemma resetAll (hreset : s.resetAll reason = .ok s') : Tracked s' := by
  obtain ⟨epochs, hepo, rfl⟩ := resetAll_eq hreset
  have hfill : ∀ (v : SeatArray UInt32), ∀ seat < s.seats,
      (v.fillBelow s.seats 0).at seat 0 = 0 := fun v seat hseat => by
    rw [SeatArray.at_fillBelow v 0 0 (lt_of_lt_of_le hseat s.seats_le), if_pos hseat]
  refine cleared rfl rfl fun seat hseat => ?_
  exact (hfill _ seat hseat).symm ▸ (hfill _ seat hseat).symm ▸ UInt32.le_refl _

omit h in
lemma applyAuthoritativeSnapshot (hsnap : s.applyAuthoritativeSnapshot snapshot = .ok s') :
    Tracked s' := by
  obtain ⟨-, rfl⟩ := applyAuthoritativeSnapshot_eq hsnap
  exact cleared rfl rfl fun _ _ => UInt32.le_refl _

lemma recordAuthoritativeHash (tick hash : UInt64) :
    Tracked (keepOnError s (s.recordAuthoritativeHash tick hash)) := by
  unfold RealtimeSession.recordAuthoritativeHash
  cases s.replay.recordHash tick hash with
  | error e => exact h
  | ok log => exact ⟨h.1, h.2, h.3, h.4, h.5, h.6⟩

lemma submitAll (ts : List ScheduledTransition) :
    Tracked (ts.foldl (fun s t => (s.submitTransition t).1) s) :=
  List.foldlRecOn ts _ h fun _ hs t _ => hs.submitTransition t

lemma step (op : Op) : Tracked (s.step op) := by
  cases op with
  | submitTransition t => exact h.submitTransition t
  | submitEnvelope | submitPayload =>
    rw [← fst_stepLog]
    simp only [stepLog]
    rw [fst_runLog_submitLog]
    exact h.submitAll _
  | advanceTick =>
    refine keepOnError_of h fun s' hs' => ?_
    obtain ⟨result, hadv, rfl⟩ := map_ok_iff.mp hs'
    exact h.advanceTick hadv
  | recordAuthoritativeHash tick hash => exact h.recordAuthoritativeHash tick hash
  | disconnect | reconnect => exact keepOnError_of h fun _ => h.lifecycleEpoch
  | pause | focusLost | rematch => exact keepOnError_of h fun _ => resetAll
  | applyAuthoritativeSnapshot => exact keepOnError_of h fun _ => applyAuthoritativeSnapshot

lemma run (ops : List Op) : Tracked (s.run ops) :=
  List.foldlRecOn ops _ h fun _ hs op _ => hs.step op

end Tracked
end RealtimeSession
end Stasis.Realtime
