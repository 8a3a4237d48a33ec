import Mathlib.Data.List.Induction
import Stasis.Realtime.Admission

namespace Stasis.Realtime

open List

namespace SeatArray

variable {α : Type} (v : SeatArray α) (a fallback : α)

lemma at_put (h : seat < maxSeats) :
    (v.put seat a).at other fallback = if seat = other then a else v.at other fallback := by
  have hlen : seat < v.toList.length := by simpa using h
  simp only [SeatArray.at, put, Vector.toList_setIfInBounds, getD_eq_getElem?_getD, getElem?_set]
  split_ifs <;> rfl

lemma at_fillBelow (h : seat < maxSeats) :
    (v.fillBelow seats a).at seat fallback = if seat < seats then a else v.at seat fallback := by
  have hget : v[seat]? = some v[seat] := Vector.getElem?_eq_getElem h
  simp only [SeatArray.at, fillBelow, getD_eq_getElem?_getD, Vector.getElem?_toList,
    Vector.getElem?_mapIdx, hget]
  rfl

lemma at_replicate (h : seat < maxSeats) :
    SeatArray.at (Vector.replicate maxSeats a) seat fallback = a := by
  simp [SeatArray.at, getD_eq_getElem?_getD, h]

variable {v} in
lemma ext_at (h : ∀ seat < maxSeats, v.at seat fallback = w.at seat fallback) : v = w := by
  refine Vector.ext fun seat hseat => ?_
  have hat := h seat hseat
  simpa [SeatArray.at, getD_eq_getElem?_getD, Vector.getElem?_eq_getElem hseat] using hat

end SeatArray

namespace RealtimeSession

variable (s : RealtimeSession) (tick : UInt64)

def dueTransitions : List ScheduledTransition := (s.due tick).map Prod.snd

lemma due_perm : (s.due tick).Perm (s.pending.slotsWhere fun t => t.applyTick = tick) :=
  perm_insertionSort ..

lemma dueTransitions_perm :
    (s.dueTransitions tick).Perm (s.pending.occupants.filter fun t => t.applyTick = tick) := by
  rw [← SlotTable.map_snd_slotsWhere]
  exact (s.due_perm tick).map Prod.snd

variable {t : ScheduledTransition}

lemma mem_dueTransitions :
    t ∈ s.dueTransitions tick ↔ t ∈ s.pending.occupants ∧ t.applyTick = tick := by
  rw [(s.dueTransitions_perm tick).mem_iff, mem_filter, decide_eq_true_iff]

def AppliesBefore (t u : ScheduledTransition) : Prop := dueBefore (0, t) (0, u)

lemma seat_eq_of_appliesBefore (h : AppliesBefore t u) (h' : AppliesBefore u t) :
    t.seat = u.seat ∧ t.sequence = u.sequence := by
  unfold AppliesBefore dueBefore at h h'
  grind

instance : Std.Total dueBefore where
  total l r := by
    unfold dueBefore
    grind

instance : IsTrans _ dueBefore where
  trans l m r := by
    unfold dueBefore
    grind

lemma dueTransitions_sorted : (s.dueTransitions tick).Pairwise AppliesBefore :=
  pairwise_map.mpr (pairwise_insertionSort dueBefore _)

/-- What applying a transition does to everything but the pending table. -/
def settle (s : RealtimeSession) (t : ScheduledTransition) : RealtimeSession :=
  { s.applyDue (0, t) with pending := s.pending }

lemma foldl_applyDue (entries : List (ℕ × ScheduledTransition)) (s : RealtimeSession) :
    entries.foldl applyDue s = { (entries.map Prod.snd).foldl settle s with
        pending := (entries.map Prod.fst).foldl SlotTable.take s.pending } := by
  induction entries generalizing s with
  | nil => rfl
  | cons entry entries ih =>
    obtain ⟨index, t⟩ := entry
    have hset : ∀ (ts : List ScheduledTransition) (s : RealtimeSession) (pending : PendingTable),
        ts.foldl settle { s with pending } = { ts.foldl settle s with pending } := by
      intro ts
      induction ts with
      | nil => exact fun s pending => rfl
      | cons u ts ihts => exact fun s pending => ihts (s.settle u) pending
    have happly : s.applyDue (index, t) = { s.settle t with pending := s.pending.take index } := rfl
    rw [foldl_cons, ih, happly, hset]
    rfl

lemma applyTick_eq : s.applyTick tick =
    { (s.dueTransitions tick).foldl settle { s with currentTick := tick } with
      pending := s.pending.removeWhere fun t => t.applyTick = tick } := by
  rw [applyTick, foldl_applyDue, ← SlotTable.foldl_take_slotsWhere (s.due_perm tick)]
  rfl

lemma max_sequence_eq (a b : UInt32) : max a b = if a ≤ b then b else a := rfl

section Settle

variable {s} {ts : List ScheduledTransition}

lemma foldl_settle_keeps {β : Type} (field : RealtimeSession → β)
    (h : ∀ s t, field (settle s t) = field s) : field (ts.foldl settle s) = field s := by
  induction ts generalizing s with
  | nil => rfl
  | cons t ts ih => rw [foldl_cons, ih, h]

lemma highestAppliedSequence_settle (ht : t.seat.toNat < maxSeats)
    (seat : ℕ) : (s.settle t).highestAppliedSequence.at seat 0 =
      if t.seat.toNat = seat then max (s.highestAppliedSequence.at seat 0) t.sequence
      else s.highestAppliedSequence.at seat 0 := by
  change (s.highestAppliedSequence.put t.seat.toNat _).at seat 0 = _
  rw [SeatArray.at_put _ _ _ ht]
  split_ifs with h
  · rw [h]
  · rfl

lemma controls_foldl_settle (hts : ∀ t ∈ ts, t.seat.toNat < maxSeats)
    (hsor : ts.Pairwise AppliesBefore) (seat : ℕ) :
    (∃ t ∈ ts, t.seat.toNat = seat ∧ (ts.foldl settle s).controls.at seat .neutral = t.state ∧
      ∀ u ∈ ts, u.seat.toNat = seat → u.sequence ≤ t.sequence) ∨
    ((∀ u ∈ ts, u.seat.toNat ≠ seat) ∧
      (ts.foldl settle s).controls.at seat .neutral = s.controls.at seat .neutral) := by
  induction ts using reverseRecOn with
  | nil => exact .inr ⟨by simp, rfl⟩
  | append_singleton ts t ih =>
    obtain ⟨hsor, -, hlast⟩ := pairwise_append.mp hsor
    have hstep : ((ts.foldl settle s).settle t).controls.at seat .neutral = _ :=
      SeatArray.at_put _ _ _ (hts t (by simp))
    rw [foldl_append, foldl_cons, foldl_nil, hstep]
    by_cases hseat : t.seat.toNat = seat
    · refine .inl ⟨t, by simp, hseat, if_pos hseat, fun u hu huseat => ?_⟩
      rcases mem_append.mp hu with hu | hu
      · have hbef := hlast u hu t (by simp)
        have hsame : u.seat = t.seat := UInt8.toNat.inj (huseat.trans hseat.symm)
        unfold AppliesBefore dueBefore at hbef
        grind
      · rw [mem_singleton.mp hu]
        exact UInt32.le_refl _
    · rw [if_neg hseat]
      have hts' : ∀ u ∈ ts, u.seat.toNat < maxSeats := fun u hu => hts u (mem_append_left _ hu)
      rcases ih hts' hsor with ⟨u, hu, huseat, hstate, hmax⟩ | ⟨hnone, hsame⟩
      · refine .inl ⟨u, mem_append_left _ hu, huseat, hstate, fun v hv hvseat => ?_⟩
        rcases mem_append.mp hv with hv | hv
        · exact hmax v hv hvseat
        · exact absurd (mem_singleton.mp hv ▸ hvseat) hseat
      · refine .inr ⟨fun u hu => ?_, hsame⟩
        rcases mem_append.mp hu with hu | hu
        · exact hnone u hu
        · rw [mem_singleton.mp hu]
          exact hseat

lemma highestAppliedSequence_foldl_settle (hts : ∀ t ∈ ts, t.seat.toNat < maxSeats) (seat : ℕ) :
    s.highestAppliedSequence.at seat 0 ≤ (ts.foldl settle s).highestAppliedSequence.at seat 0 ∧
    (∀ t ∈ ts, t.seat.toNat = seat →
      t.sequence ≤ (ts.foldl settle s).highestAppliedSequence.at seat 0) ∧
    ∀ bound, s.highestAppliedSequence.at seat 0 ≤ bound →
      (∀ t ∈ ts, t.seat.toNat = seat → t.sequence ≤ bound) →
      (ts.foldl settle s).highestAppliedSequence.at seat 0 ≤ bound := by
  induction ts generalizing s with
  | nil => exact ⟨UInt32.le_refl _, by simp, fun bound hbound _ => hbound⟩
  | cons t ts ih =>
    obtain ⟨hle, hmem, hbound⟩ := ih (s := s.settle t) fun u hu => hts u (mem_cons_of_mem t hu)
    have hstep := highestAppliedSequence_settle (s := s) (hts t (.head _)) seat
    rw [foldl_cons]
    refine ⟨?_, ?_, ?_⟩
    · refine UInt32.le_trans ?_ hle
      rw [hstep]
      grind [max_sequence_eq]
    · intro u hu hseat
      rcases mem_cons.mp hu with rfl | hu
      · refine UInt32.le_trans ?_ hle
        rw [hstep, if_pos hseat]
        grind [max_sequence_eq]
      · exact hmem u hu hseat
    · intro bound hs hall
      refine hbound bound ?_ fun u hu => hall u (mem_cons_of_mem t hu)
      rw [hstep]
      grind [max_sequence_eq]

end Settle

lemma applyTick_keeps {β : Type} (field : RealtimeSession → β)
    (hset : ∀ s t, field (settle s t) = field s)
    (hpend : ∀ s pending, field { s with pending } = field s)
    (htick : ∀ s currentTick, field { s with currentTick } = field s) :
    field (s.applyTick tick) = field s := by
  rw [applyTick_eq, hpend, foldl_settle_keeps field hset, htick]

@[simp] lemma seats_applyTick : (s.applyTick tick).seats = s.seats :=
  s.applyTick_keeps tick seats (fun _ _ => rfl) (fun _ _ => rfl) fun _ _ => rfl

@[simp] lemma epochs_applyTick : (s.applyTick tick).epochs = s.epochs :=
  s.applyTick_keeps tick epochs (fun _ _ => rfl) (fun _ _ => rfl) fun _ _ => rfl

@[simp] lemma highestSequence_applyTick : (s.applyTick tick).highestSequence = s.highestSequence :=
  s.applyTick_keeps tick highestSequence (fun _ _ => rfl) (fun _ _ => rfl) fun _ _ => rfl

@[simp] lemma currentTick_applyTick : (s.applyTick tick).currentTick = tick := by
  rw [applyTick_eq]
  exact foldl_settle_keeps (s := { s with currentTick := tick }) currentTick fun _ _ => rfl

@[simp] lemma pending_applyTick :
    (s.applyTick tick).pending = s.pending.removeWhere fun t => t.applyTick = tick := by
  rw [applyTick_eq]

lemma quarantined_applyTick_sublist :
    (s.applyTick tick).quarantined.identities.Sublist s.quarantined.identities := by
  rw [applyTick_eq]
  have hfold : ∀ (ts : List ScheduledTransition) (s : RealtimeSession),
      (ts.foldl settle s).quarantined.identities.Sublist s.quarantined.identities := by
    intro ts
    induction ts with
    | nil => exact fun s => .refl _
    | cons t ts ih => exact fun s => (ih (s.settle t)).trans filter_sublist
  exact hfold _ _

lemma mem_pending_applyTick :
    t ∈ (s.applyTick tick).pending.occupants ↔ t ∈ s.pending.occupants ∧ t.applyTick ≠ tick := by
  rw [pending_applyTick, SlotTable.mem_occupants_removeWhere, decide_eq_false_iff_not]

@[simp] lemma config_applyTick : (s.applyTick tick).config = s.config :=
  s.applyTick_keeps tick config (fun _ _ => rfl) (fun _ _ => rfl) fun _ _ => rfl

variable (h : ∀ t ∈ s.pending.occupants, t.seat.toNat < maxSeats)
include h

lemma controls_applyTick (seat : ℕ) : (∃ t ∈ s.dueTransitions tick, t.seat.toNat = seat ∧
      (s.applyTick tick).controls.at seat .neutral = t.state ∧
      ∀ u ∈ s.dueTransitions tick, u.seat.toNat = seat → u.sequence ≤ t.sequence) ∨
    ((∀ u ∈ s.dueTransitions tick, u.seat.toNat ≠ seat) ∧
      (s.applyTick tick).controls.at seat .neutral = s.controls.at seat .neutral) := by
  rw [applyTick_eq]
  exact controls_foldl_settle (s := { s with currentTick := tick })
    (fun t ht => h t ((s.mem_dueTransitions tick).mp ht).1) (s.dueTransitions_sorted tick) seat

lemma highestAppliedSequence_applyTick (seat : ℕ) :
    s.highestAppliedSequence.at seat 0 ≤ (s.applyTick tick).highestAppliedSequence.at seat 0 ∧
    (∀ t ∈ s.dueTransitions tick, t.seat.toNat = seat →
      t.sequence ≤ (s.applyTick tick).highestAppliedSequence.at seat 0) ∧
    ∀ bound, s.highestAppliedSequence.at seat 0 ≤ bound →
      (∀ t ∈ s.dueTransitions tick, t.seat.toNat = seat → t.sequence ≤ bound) →
      (s.applyTick tick).highestAppliedSequence.at seat 0 ≤ bound := by
  rw [applyTick_eq]
  exact highestAppliedSequence_foldl_settle (s := { s with currentTick := tick })
    (fun t ht => h t ((s.mem_dueTransitions tick).mp ht).1) seat

end RealtimeSession
end Stasis.Realtime
