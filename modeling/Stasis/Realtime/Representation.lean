import Stasis.Realtime.Memory
import Stasis.Realtime.Tracking

namespace Stasis.Realtime

abbrev RealtimeSession.memory (s : RealtimeSession) : SessionMemory where
  config := s.config
  seats := s.seats
  currentTick := s.currentTick
  snapshotRevision := s.snapshotRevision
  controls := s.controls
  epochs := s.epochs
  active := s.active
  highestAppliedSequence := s.highestAppliedSequence
  highestSequence := s.highestSequence
  quarantined := s.quarantined.identities ++
    List.replicate (maxPendingTransitions - s.quarantined.count) SessionMemory.noIdentity
  quarantinedCount := s.quarantined.count
  resyncRequired := s.resyncRequired
  pending := s.pending.slots
  pendingCount := s.pending.count
  recent := s.recent
  recentNext := s.recentNext
  replay := s.replay

namespace SessionMemory

variable {s : RealtimeSession}

lemma readAt_of_lt {α : Type} (v : SeatArray α) (h : seat < maxSeats) (fallback : α)
    (m : SessionMemory) : readAt v seat m = .ok (v.at seat fallback) m := by
  have hget : v[seat]? = some v[seat] := Vector.getElem?_eq_getElem h
  have hat : v.at seat fallback = v[seat] := by
    simp [SeatArray.at, List.getD_eq_getElem?_getD, hget]
  rw [readAt, hget, hat]
  rfl

lemma writeAt_of_lt {α : Type} (v : Vector α n) (h : i < n) (a : α) (m : SessionMemory) :
    writeAt v i a m = .ok (v.setIfInBounds i a) m := by
  rw [writeAt, if_pos h]
  rfl

open List

lemma readSlot_of_getElem? {α : Type} {slots : List α} {a : α} (h : slots[i]? = some a)
    (m : SessionMemory) : readSlot slots i m = .ok a m := by
  rw [readSlot, h]
  rfl

lemma writeSlot_of_lt {α : Type} (slots : List α) (h : i < slots.length) (a : α)
    (m : SessionMemory) :
    writeSlot slots i a m = .ok (slots.set i a) m := by
  rw [writeSlot, if_pos h]
  rfl

lemma quarantinedIdentities_memory (s : RealtimeSession) :
    s.memory.quarantinedIdentities = s.quarantined.identities := by
  simp [quarantinedIdentities, QuarantineTable.count]

lemma schedule_memory (hseat : t.seat.toNat < s.seats) :
    schedule t s.memory =
      if t.sequence ≤ s.highestAppliedSequence.at t.seat.toNat 0 then .ok .stale s.memory
      else if s.quarantined.count = maxPendingTransitions then
        .ok .resyncRequired { s with resyncRequired := true }.memory
      else if h : s.pending.count < maxPendingTransitions then
        .ok (s.schedule t h).2 (s.schedule t h).1.memory
      else .ok .full s.memory := by
  have hlt : t.seat.toNat < maxSeats := hseat.trans_le s.seats_le
  refine bind_run rfl ?_
  refine bind_run (readAt_of_lt _ hlt 0 _) ?_
  split
  · rfl
  split
  · rfl
  by_cases hroom : s.pending.count < maxPendingTransitions
  · have hslot := s.pending.firstFree_lt hroom
    rw [if_neg hroom.ne, dif_pos hroom]
    refine bind_run (readAt_of_lt _ hlt 0 _) ?_
    have hfree : ∃ x, x ∈ s.pending.slots ∧ x.isNone = true := findIdx_lt_length.mp hslot
    rw [findIdx?_eq_some_of_exists hfree]
    refine bind_run rfl ?_
    refine bind_run (writeSlot_of_lt _ hslot _ _) ?_
    refine bind_run (writeAt_of_lt _ hlt _ _) ?_
    rfl
  · have hcount : s.pending.count = maxPendingTransitions := by
      have := s.pending.count_le
      omega
    rw [if_pos hcount, dif_neg hroom]
    rfl

section Remove

variable (slots : List (Option ScheduledTransition)) (p : ScheduledTransition → Bool)

def clearBelow (k : ℕ) : List (Option ScheduledTransition) :=
  (slots.take k).map (fun o => if o.any p then none else o) ++ slots.drop k

def removedBelow (k : ℕ) : ℕ := (slots.take k).countP fun o => o.any p

variable {slots} {k : ℕ} (hk : k < slots.length)

include hk in
lemma getElem?_clearBelow : (clearBelow slots p k)[k]? = some slots[k] := by
  rw [clearBelow, List.getElem?_append_right (by simp)]
  simp [hk.le]

include hk in
lemma clearBelow_succ : clearBelow slots p (k + 1) =
    if slots[k].any p then (clearBelow slots p k).set k none else clearBelow slots p k := by
  have hlen : ((slots.take k).map fun o => if o.any p then none else o).length = k := by
    rw [length_map, length_take_of_le hk.le]
  have hset : (clearBelow slots p k).set k none =
      (slots.take k).map (fun o => if o.any p then none else o) ++ none :: slots.drop (k + 1) := by
    rw [clearBelow, drop_eq_getElem_cons hk, set_append_right _ _ hlen.le, hlen,
      Nat.sub_self, set_cons_zero]
  have hsucc : clearBelow slots p (k + 1) =
      (slots.take k).map (fun o => if o.any p then none else o) ++
        (if slots[k].any p then none else slots[k]) :: slots.drop (k + 1) := by
    rw [clearBelow, take_succ_eq_append_getElem hk, map_append, append_assoc]
    rfl
  rw [hset, hsucc]
  split_ifs with hp
  · rfl
  · rw [clearBelow, drop_eq_getElem_cons hk]

include hk in
lemma removedBelow_succ : removedBelow slots p (k + 1) =
    removedBelow slots p k + if slots[k].any p then 1 else 0 := by
  rw [removedBelow, removedBelow, take_succ_eq_append_getElem hk, countP_append, countP_singleton]

lemma removedBelow_le (slots : List (Option ScheduledTransition)) (k : ℕ) :
    removedBelow slots p k ≤ slots.countP Option.isSome := by
  calc removedBelow slots p k ≤ (slots.take k).countP Option.isSome := by
        apply countP_mono_left
        intro o _ ho
        cases o with
        | none => cases ho
        | some t => rfl
    _ ≤ slots.countP Option.isSome := (take_sublist k slots).countP_le

end Remove

lemma decrementPending_of_pos (h : 0 < m.pendingCount) :
    decrementPending m = .ok () { m with pendingCount := m.pendingCount - 1 } := by
  refine bind_run rfl ?_
  rw [if_neg h.ne']
  rfl

lemma removeSlot_clearBelow (p : ScheduledTransition → Bool) {k : ℕ}
    (hk : k < maxPendingTransitions) :
    removeSlot p k { s.memory with
        pending := clearBelow s.pending.slots p k
        pendingCount := s.pending.count - removedBelow s.pending.slots p k } =
      .ok () { s.memory with
        pending := clearBelow s.pending.slots p (k + 1)
        pendingCount := s.pending.count - removedBelow s.pending.slots p (k + 1) } := by
  have hslot : k < s.pending.slots.length := by rwa [s.pending.slots_length]
  have hcount := removedBelow_succ p hslot
  have hle := removedBelow_le p s.pending.slots (k + 1)
  rw [← s.pending.count_eq] at hle
  refine bind_run rfl ?_
  refine bind_run (readSlot_of_getElem? (getElem?_clearBelow p hslot) _) ?_
  rw [clearBelow_succ p hslot]
  split_ifs with hp
  · -- the removed occupant is one of those that are counted
    rw [if_pos hp] at hcount
    have hpos : 0 < s.pending.count - removedBelow s.pending.slots p k := by omega
    refine (bind_of_ok (writeSlot_of_lt _ (List.getElem?_eq_some_iff.mp
      (getElem?_clearBelow p hslot)).1 _ _)).trans ?_
    refine bind_run rfl ?_
    refine (decrementPending_of_pos hpos).trans ?_
    rw [hcount, Nat.sub_sub]
  · rw [if_neg hp, Nat.add_zero] at hcount
    rw [hcount]
    rfl

lemma removePending_memory (p : ScheduledTransition → Bool) :
    removePending p s.memory = .ok () { s with pending := s.pending.removeWhere p }.memory := by
  have hloop := forM_range_eq_ok (f := removeSlot p) (n := maxPendingTransitions)
    (fun k => { s.memory with
      pending := clearBelow s.pending.slots p k
      pendingCount := s.pending.count - removedBelow s.pending.slots p k })
    fun k hk => removeSlot_clearBelow p hk
  have htake : s.pending.slots.take maxPendingTransitions = s.pending.slots :=
    take_of_length_le s.pending.slots_length.le
  have hdrop : s.pending.slots.drop maxPendingTransitions = [] :=
    drop_eq_nil_of_le s.pending.slots_length.le
  simp only [clearBelow, removedBelow, htake, hdrop, append_nil, take_zero, map_nil,
    drop_zero, nil_append, countP_nil, Nat.sub_zero] at hloop
  exact hloop

def filled (entries : List Identity) : List Identity :=
  entries ++ List.replicate (maxPendingTransitions - entries.length) noIdentity

lemma writeSlot_filled (h : entries.length < maxPendingTransitions) (i : Identity)
    (m : SessionMemory) :
    writeSlot (filled entries) entries.length i m = .ok (filled (entries ++ [i])) m := by
  have hlen : entries.length < (filled entries).length := by
    simp [filled]
    omega
  refine (writeSlot_of_lt _ hlen i m).trans ?_
  congr 1
  obtain ⟨n, hn⟩ : ∃ n, maxPendingTransitions - entries.length = n + 1 :=
    ⟨maxPendingTransitions - entries.length - 1, by omega⟩
  have hn' : maxPendingTransitions - (entries ++ [i]).length = n := by
    rw [length_append, length_singleton]
    omega
  rw [filled, filled, hn, hn', replicate_succ, set_append_right _ _ le_rfl,
    Nat.sub_self, set_cons_zero, append_assoc]
  rfl

lemma foldlM_retainEntry (keep : Identity → Bool) (entries kept : List Identity)
    (h : kept.length + entries.length ≤ maxPendingTransitions) (m : SessionMemory) :
    entries.foldlM (retainEntry keep) (filled kept, kept.length) m =
      .ok (filled (kept ++ entries.filter keep), (kept ++ entries.filter keep).length) m := by
  induction entries generalizing kept with
  | nil => simp
  | cons i entries ih =>
    rw [length_cons] at h
    rw [foldlM_cons]
    by_cases hi : keep i
    · have hstep : retainEntry keep (filled kept, kept.length) i m =
          .ok (filled (kept ++ [i]), (kept ++ [i]).length) m := by
        unfold retainEntry
        rw [if_pos hi, length_append]
        exact bind_of_ok (writeSlot_filled (by omega) i m)
      rw [bind_of_ok hstep, ih (kept ++ [i]) (by rw [length_append, length_singleton]; omega),
        filter_cons_of_pos hi, append_assoc]
      rfl
    · have hstep : retainEntry keep (filled kept, kept.length) i m =
          .ok (filled kept, kept.length) m := by
        unfold retainEntry
        rw [if_neg hi]
        rfl
      rw [bind_of_ok hstep, ih kept (by omega), filter_cons_of_neg hi]

lemma retainQuarantined_memory (keep : Identity → Bool) :
    retainQuarantined keep s.memory =
      .ok () { s with quarantined := s.quarantined.retain keep }.memory := by
  have hloop := foldlM_retainEntry keep s.quarantined.identities []
    (by simpa using s.quarantined.bounded)
    s.memory
  refine bind_run rfl ?_
  rw [quarantinedIdentities_memory]
  exact bind_run hloop rfl

lemma quarantineIdentity_memory (i : Identity) :
    quarantineIdentity i s.memory =
      .ok (s.quarantineIdentity i).2 (s.quarantineIdentity i).1.memory := by
  unfold quarantineIdentity RealtimeSession.quarantineIdentity
  refine bind_run (removePending_memory _) ?_
  refine bind_run rfl ?_
  rw [quarantinedIdentities_memory]
  dsimp only [RealtimeSession.removePendingSequence]
  split
  · rfl
  split_ifs with hroom
  · refine bind_run (writeSlot_filled hroom i _) ?_
    have hcount : (s.quarantined.push i hroom).count = s.quarantined.count + 1 := length_append
    exact congrArg (fun count => EStateM.Result.ok true { RealtimeSession.memory { s with
      pending := s.pending.removeWhere fun t => t.identity == i
      quarantined := s.quarantined.push i hroom } with quarantinedCount := count }) hcount.symm
  · rfl

lemma earliestApplyTick_memory (s : RealtimeSession) :
    s.memory.earliestApplyTick = s.earliestApplyTick := rfl

lemma latestApplyTick_memory (s : RealtimeSession) :
    s.memory.latestApplyTick = s.latestApplyTick := rfl

lemma preflight_memory (t : ScheduledTransition) :
    preflight t s.memory = .ok (s.preflight t) s.memory := by
  unfold preflight RealtimeSession.preflight
  refine bind_run rfl ?_
  split
  · rfl
  rename_i hmal
  have hseat : t.seat.toNat < s.seats := not_le.mp (not_or.mp hmal).2
  have hlt : t.seat.toNat < maxSeats := hseat.trans_le s.seats_le
  split
  · rfl
  refine bind_run (readAt_of_lt _ hlt false _) ?_
  split
  · rfl
  refine bind_run (readAt_of_lt _ hlt 0 _) ?_
  rw [earliestApplyTick_memory, latestApplyTick_memory, quarantinedIdentities_memory]
  split_ifs <;> rfl

lemma meetPending_memory (existing t : ScheduledTransition) :
    meetPending existing t s.memory =
      if sameIdentity existing t ∧ existing = t then .ok .duplicate s.memory
      else match s.quarantineIdentity t.identity with
        | (s, false) => .ok .resyncRequired { s with resyncRequired := true }.memory
        | (s, true) => .ok .conflict (s.log (.quarantine t.seat t.epoch t.sequence)).memory := by
  unfold meetPending
  split
  · rfl
  refine bind_run (quarantineIdentity_memory t.identity) ?_
  rcases s.quarantineIdentity t.identity with ⟨s', kept⟩
  cases kept with
  | false => rfl
  | true => rfl

lemma submitTransition_memory (t : ScheduledTransition) :
    submitTransition t s.memory =
      .ok (s.submitTransition t).2 (s.submitTransition t).1.memory := by
  unfold submitTransition RealtimeSession.submitTransition
  refine bind_run (preflight_memory t) ?_
  rcases hpre : s.preflight t with _ | _
  swap
  · rfl
  have hpas := RealtimeSession.passes_of_preflight hpre
  refine bind_run rfl ?_
  have hpend : s.memory.pending.filterMap id = s.pending.occupants := rfl
  simp only [hpend]
  cases s.pending.occupants.find? (sameSequence · t) with
  | some existing =>
    refine (meetPending_memory existing t).trans ?_
    dsimp only
    split_ifs
    · rfl
    · rcases s.quarantineIdentity t.identity with ⟨s', kept⟩
      cases kept with
      | false => rfl
      | true => rfl
  | none =>
    cases (s.recent.toList.filterMap id).find? (sameSequence · t) with
    | some existing =>
      dsimp only [RealtimeSession.recentOutcome]
      split_ifs <;> rfl
    | none =>
      refine (schedule_memory hpas.seat_lt).trans ?_
      dsimp only
      split_ifs <;> rfl

lemma foldlM_reportTransition (ts : List ScheduledTransition) (s : RealtimeSession)
    (report : List AdmissionOutcome) :
    ts.foldlM reportTransition report s.memory =
      let result := ts.foldl (fun (s, report) t =>
        let (s, outcome) := s.submitTransition t
        (s, report ++ [outcome])) (s, report)
      .ok result.2 result.1.memory := by
  induction ts generalizing s report with
  | nil => rfl
  | cons t ts ih =>
    have hstep : reportTransition report t s.memory =
        .ok (report ++ [(s.submitTransition t).2]) (s.submitTransition t).1.memory :=
      bind_of_ok (submitTransition_memory t)
    rw [foldlM_cons]
    exact (bind_of_ok hstep).trans (ih _ _)

lemma submitEnvelope_memory (e : ControlEnvelope) :
    submitEnvelope e s.memory = .ok (s.submitEnvelope e).2 (s.submitEnvelope e).1.memory :=
  foldlM_reportTransition e.transitions s []

lemma submitPayload_memory (payload : List UInt8) :
    submitPayload payload s.memory =
      .ok (s.submitPayload payload).2 (s.submitPayload payload).1.memory := by
  unfold submitPayload RealtimeSession.submitPayload
  cases ControlEnvelope.decode payload with
  | ok envelope => exact submitEnvelope_memory envelope
  | error error => rfl

variable {seat n : ℕ} {entry : ℕ × ScheduledTransition} {α : Type} {seats : List ℕ}

lemma compactQuarantine_memory (h : seat < maxSeats) :
    compactQuarantine seat s.memory = .ok () (s.compactQuarantine seat).memory := by
  refine bind_run rfl ?_
  refine bind_run (readAt_of_lt _ h 0 _) ?_
  refine bind_run (readAt_of_lt _ h 0 _) ?_
  exact retainQuarantined_memory _

/-- A slot in use, and a place for its transition in the recent ring. -/
structure Applicable (s : RealtimeSession) (entry : ℕ × ScheduledTransition) : Prop where
  occupied : s.pending.slots[entry.1]? = some (some entry.2)
  seat_lt : entry.2.seat.toNat < maxSeats

lemma applySlot_memory (h : Applicable s entry) (hnext : s.recentNext < maxPendingTransitions) :
    applySlot entry.1 s.memory = .ok entry.2 (s.applyDue entry).memory := by
  obtain ⟨slot, t⟩ := entry
  obtain ⟨hocc, hseat⟩ := h
  have hslot : slot < s.pending.slots.length := (List.getElem?_eq_some_iff.mp hocc).1
  have hpos : 0 < s.pending.count := by
    rw [s.pending.count_eq, List.countP_pos_iff]
    exact ⟨some t, mem_of_getElem? hocc, rfl⟩
  have htake : (s.pending.take slot).count = s.pending.count - 1 := by
    simp [SlotTable.take, hocc]
  -- the session between the updates of its fields and the compaction
  let applied : RealtimeSession := { s with
    pending := s.pending.take slot
    controls := s.controls.put t.seat.toNat t.state
    highestAppliedSequence := s.highestAppliedSequence.put t.seat.toNat
      (max (s.highestAppliedSequence.at t.seat.toNat 0) t.sequence) }
  have happ : applied.memory = { applied.memory with pendingCount := s.pending.count - 1 } :=
    congrArg (fun count => { applied.memory with pendingCount := count }) htake
  have hcom := compactQuarantine_memory (s := applied) hseat
  rw [happ] at hcom
  refine bind_run rfl ?_
  refine bind_run (readSlot_of_getElem? hocc _) ?_
  refine bind_run rfl ?_
  refine bind_run (writeSlot_of_lt _ hslot _ _) ?_
  refine bind_run rfl ?_
  refine bind_run (decrementPending_of_pos hpos) ?_
  refine bind_run rfl ?_
  refine bind_run (writeAt_of_lt _ hseat _ _) ?_
  refine bind_run rfl ?_
  refine bind_run rfl ?_
  refine bind_run (readAt_of_lt _ hseat 0 _) ?_
  refine bind_run (writeAt_of_lt _ hseat _ _) ?_
  refine bind_run rfl ?_
  refine bind_run hcom ?_
  refine bind_run rfl ?_
  exact bind_run (writeAt_of_lt _ hnext _ _) rfl

lemma Applicable.applyDue (h : Applicable s entry) (hne : other.1 ≠ entry.1) :
    Applicable (s.applyDue other) entry := by
  refine ⟨?_, h.seat_lt⟩
  change (s.pending.slots.set other.1 none)[entry.1]? = _
  rw [List.getElem?_set_ne hne, h.occupied]

lemma recentNext_applyDue_lt (s : RealtimeSession) (entry : ℕ × ScheduledTransition) :
    (s.applyDue entry).recentNext < maxPendingTransitions :=
  Nat.mod_lt _ (by decide)

lemma mapM_applySlot (entries : List (ℕ × ScheduledTransition))
    (happ : ∀ entry ∈ entries, Applicable s entry)
    (hdist : (entries.map Prod.fst).Nodup) (hnext : s.recentNext < maxPendingTransitions) :
    entries.mapM (fun entry => applySlot entry.1) s.memory =
      .ok (entries.map Prod.snd) (entries.foldl RealtimeSession.applyDue s).memory := by
  induction entries generalizing s with
  | nil => rfl
  | cons entry entries ih =>
    rw [map_cons, nodup_cons] at hdist
    have hrest := ih (s := s.applyDue entry)
      (fun other hother => (happ other (.tail _ hother)).applyDue
        fun heq => hdist.1 (heq ▸ mem_map_of_mem hother))
      hdist.2 (recentNext_applyDue_lt s entry)
    rw [mapM_cons]
    refine bind_run (applySlot_memory (happ entry (.head _)) hnext) ?_
    exact bind_of_ok hrest

lemma slotsWhere_eq_filterMap_range (table : SlotTable α n) (p : α → Prop) [DecidablePred p] :
    table.slotsWhere p = (range n).filterMap fun slot =>
      (table.slots[slot]?.join).bind fun a => if p a then some (slot, a) else none := by
  have hzip : table.slots.zipIdx =
      (range n).map fun slot => (table.slots[slot]?.join, slot) := by
    apply ext_getElem
    · simp [table.slots_length]
    · intro i hi _
      have hslot : i < table.slots.length := by simpa using hi
      simp [hslot]
  rw [SlotTable.slotsWhere, hzip, filterMap_map]
  rfl

lemma nodup_fst_slotsWhere (table : SlotTable α n) (p : α → Prop) [DecidablePred p] :
    ((table.slotsWhere p).map Prod.fst).Nodup := by
  rw [slotsWhere_eq_filterMap_range, map_filterMap]
  refine nodup_range.filterMap ?_
  intro i j k hi hj
  have hslot (i : ℕ) (h : k ∈ ((table.slots[i]?.join).bind fun a =>
      if p a then some (i, a) else none).map Prod.fst) : k = i := by
    obtain ⟨entry, hentry, rfl⟩ := Option.mem_map.mp h
    obtain ⟨a, -, ha⟩ := Option.mem_bind_iff.mp hentry
    split_ifs at ha with hp
    · cases ha
      rfl
    · cases ha
  exact (hslot i hi).symm.trans (hslot j hj)

lemma mapM_keyedSlot (s : RealtimeSession) :
    s.memory.dueSlots.mapM keyedSlot s.memory =
      .ok (s.pending.slotsWhere fun t => t.applyTick = s.currentTick) s.memory := by
  rw [slotsWhere_eq_filterMap_range]
  refine mapM_filter_eq_ok ?_ ?_
  · intro slot hslot hdue
    have hlt : slot < s.pending.slots.length := by
      rw [s.pending.slots_length]
      exact mem_range.mp hslot
    have hget : s.pending.slots[slot]? = some s.pending.slots[slot] := List.getElem?_eq_getElem hlt
    rw [hget, Option.join_some] at hdue ⊢
    cases ht : s.pending.slots[slot] <;> rw [ht] at hdue hget
    case none => cases hdue
    case some t =>
      have htick : t.applyTick = s.currentTick := by simpa using hdue
      refine ⟨(slot, t), by simp [htick], ?_⟩
      refine bind_run rfl ?_
      exact bind_run (readSlot_of_getElem? hget _) rfl
  · intro slot _ hdue
    cases hslot : s.pending.slots[slot]?.join with
    | none => rfl
    | some t =>
      have htick : t.applyTick ≠ s.currentTick := by
        rw [hslot] at hdue
        simpa using hdue
      simp [htick]

lemma advanceTickInner_memory (h : s.Tracked) (hnext : s.recentNext < maxPendingTransitions) :
    advanceTickInner s.memory =
      match s.advanceTickInner with
      | .ok (s', advance) => .ok (.ok advance) s'.memory
      | .error error => .ok (.error error) s.memory := by
  unfold advanceTickInner RealtimeSession.advanceTickInner
  refine bind_run rfl ?_
  rcases hsucc : RealtimeSession.checkedSucc s.currentTick with _ | tick
  · rfl
  have hperm := s.due_perm tick
  have hloop := mapM_applySlot (s := { s with currentTick := tick }) (s.due tick)
    (by
      intro entry hentry
      have hwhere := SlotTable.mem_slotsWhere.mp (hperm.mem_iff.mp hentry)
      have hmem := SlotTable.mem_occupants.mpr (mem_of_getElem? hwhere.1)
      exact ⟨hwhere.1, (h.current _ hmem).1.trans_le s.seats_le⟩)
    ((hperm.map Prod.fst).nodup_iff.mpr (nodup_fst_slotsWhere _ _)) hnext
  refine bind_run rfl ?_
  refine bind_run rfl ?_
  refine (bind_of_ok (mapM_keyedSlot { s with currentTick := tick })).trans ?_
  refine bind_run hloop ?_
  rfl

/-- What a fallible method leaves: the memory of the new session, or an error and the memory
as it was. -/
def answer {E : Type} (s : RealtimeSession) :
    Except E RealtimeSession → EStateM.Result Panic SessionMemory (Except E Unit)
  | .ok s' => .ok (.ok ()) s'.memory
  | .error error => .ok (.error error) s.memory

lemma recordAuthoritativeHash_memory (tick hash : UInt64) :
    recordAuthoritativeHash tick hash s.memory =
      answer s (s.recordAuthoritativeHash tick hash) := by
  unfold recordAuthoritativeHash RealtimeSession.recordAuthoritativeHash
  refine bind_run rfl ?_
  dsimp only
  cases s.replay.recordHash tick hash with
  | ok replay => rfl
  | error error => rfl

lemma nextEpoch_memory (h : seat < maxSeats) :
    nextEpoch seat s.memory = .ok (s.nextEpoch seat) s.memory := by
  refine bind_run rfl ?_
  exact bind_run (readAt_of_lt _ h 0 _) rfl

lemma lifecycleEpoch_memory (seat : ℕ) (active : Bool) (reason : ResetReason) :
    lifecycleEpoch seat active reason s.memory =
      answer s (s.lifecycleEpoch seat active reason) := by
  unfold lifecycleEpoch RealtimeSession.lifecycleEpoch
  refine bind_run rfl ?_
  split
  · rfl
  rename_i hseat
  have hlt : seat < maxSeats := (not_le.mp hseat).trans_le s.seats_le
  refine bind_run (nextEpoch_memory hlt) ?_
  rcases s.nextEpoch seat with _ | nextEpoch
  · rfl
  refine bind_run rfl ?_
  refine bind_run (writeAt_of_lt _ hlt _ _) ?_
  refine bind_run (writeAt_of_lt _ hlt _ _) ?_
  refine bind_run (writeAt_of_lt _ hlt _ _) ?_
  refine bind_run rfl ?_
  refine (bind_of_ok (removePending_memory (s := { s with
    epochs := s.epochs.put seat nextEpoch
    active := s.active.put seat active
    controls := s.controls.put seat .neutral }) _)).trans ?_
  refine bind_run rfl ?_
  refine bind_run (writeAt_of_lt _ hlt _ _) ?_
  refine bind_run (writeAt_of_lt _ hlt _ _) ?_
  refine bind_run rfl ?_
  exact (bind_of_ok (retainQuarantined_memory (s := { s with
    epochs := s.epochs.put seat nextEpoch
    active := s.active.put seat active
    controls := s.controls.put seat .neutral
    pending := s.pending.removeWhere fun t => t.seat.toNat == seat
    highestSequence := s.highestSequence.put seat 0
    highestAppliedSequence := s.highestAppliedSequence.put seat 0
    recent := s.recent.forgetSeat seat }) _)).trans rfl

lemma nextEpochs_memory (h : ∀ seat ∈ seats, seat < maxSeats) (epochs : SeatArray UInt32) :
    nextEpochs seats epochs s.memory =
      .ok (seats.foldlM (fun epochs seat =>
        (s.nextEpoch seat).map fun next => SeatArray.put epochs seat next) epochs) s.memory := by
  induction seats generalizing epochs with
  | nil => rfl
  | cons seat seats ih =>
    have hlt := h seat (.head _)
    rw [foldlM_cons]
    refine bind_run (nextEpoch_memory hlt) ?_
    cases s.nextEpoch seat with
    | error error => rfl
    | ok next =>
      refine bind_run (writeAt_of_lt _ hlt _ _) ?_
      exact ih (fun seat hseat => h seat (.tail _ hseat)) _

lemma resetAll_memory (reason : ResetReason) :
    resetAll reason s.memory = answer s (s.resetAll reason) := by
  have hseats : ∀ seat ∈ range s.seats, seat < maxSeats := fun seat hseat =>
    (mem_range.mp hseat).trans_le s.seats_le
  unfold resetAll RealtimeSession.resetAll RealtimeSession.nextEpochs
  refine bind_run rfl ?_
  refine bind_run (nextEpochs_memory hseats s.epochs) ?_
  dsimp only
  cases (range s.seats).foldlM (fun epochs seat =>
      (s.nextEpoch seat).map fun next => SeatArray.put epochs seat next) s.epochs with
  | error error => rfl
  | ok epochs =>
    refine bind_run rfl ?_
    by_cases hrem : reason = .rematch
    · subst hrem
      rfl
    · simp only [if_neg hrem]
      rfl

lemma firstError_memory (h : ∀ seat ∈ seats, check seat s.memory = .ok (error seat) s.memory) :
    firstError check seats s.memory = .ok (seats.findSome? error) s.memory := by
  induction seats with
  | nil => rfl
  | cons seat seats ih =>
    have hrest := ih fun other hother => h other (.tail _ hother)
    refine bind_run (h seat (.head _)) ?_
    rw [findSome?_cons]
    cases error seat with
    | some error => rfl
    | none => exact hrest

variable (snapshot : AuthoritativeSnapshot)
include snapshot

lemma snapshotSeatError_memory (h : seat < maxSeats) :
    snapshotSeatError snapshot seat s.memory =
      .ok (s.snapshotSeatError snapshot seat) s.memory := by
  refine bind_run rfl ?_
  refine bind_run (readAt_of_lt _ h false _) ?_
  refine bind_run (readAt_of_lt _ h .neutral _) ?_
  exact bind_run (readAt_of_lt _ h 0 _) rfl

lemma snapshotEpochError_memory (h : seat < maxSeats) :
    snapshotEpochError snapshot seat s.memory =
      .ok (s.snapshotEpochError snapshot seat) s.memory := by
  unfold snapshotEpochError RealtimeSession.snapshotEpochError
  refine bind_run rfl ?_
  refine bind_run (readAt_of_lt _ h 0 _) ?_
  by_cases hexhausted : (snapshot.epochs.at seat 0).toNat = UInt32.size - 1
  · rw [if_pos hexhausted, if_pos hexhausted]
    rfl
  rw [if_neg hexhausted, if_neg hexhausted]
  refine bind_run (readAt_of_lt _ h 0 _) ?_
  split
  · rfl
  split
  · rfl
  refine bind_run (readAt_of_lt _ h 0 _) ?_
  refine bind_run (readAt_of_lt _ h 0 _) ?_
  split_ifs <;> rfl

lemma applyAuthoritativeSnapshot_memory :
    applyAuthoritativeSnapshot snapshot s.memory =
      answer s (s.applyAuthoritativeSnapshot snapshot) := by
  have hseats : ∀ seat ∈ range s.seats, snapshotEpochError snapshot seat s.memory =
      .ok (s.snapshotEpochError snapshot seat) s.memory := fun seat hseat =>
    snapshotEpochError_memory snapshot ((mem_range.mp hseat).trans_le s.seats_le)
  unfold applyAuthoritativeSnapshot RealtimeSession.applyAuthoritativeSnapshot
  refine bind_run rfl ?_
  split
  · rfl
  split
  · rfl
  refine (bind_of_ok (firstError_memory fun seat hseat =>
    snapshotSeatError_memory snapshot (mem_range.mp hseat))).trans ?_
  cases (range maxSeats).findSome? (s.snapshotSeatError snapshot) with
  | some error => rfl
  | none =>
    dsimp only
    split
    · rfl
    refine bind_run (firstError_memory hseats) ?_
    cases (range s.seats).findSome? (s.snapshotEpochError snapshot) with
    | some error => rfl
    | none => rfl

end SessionMemory
end Stasis.Realtime
