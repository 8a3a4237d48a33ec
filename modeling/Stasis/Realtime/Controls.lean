import Stasis.Realtime.AtMostOnce
import Stasis.Realtime.Invariant

namespace Stasis.Realtime

open ScheduledTransition
open RealtimeSession
open List

def ResetReason.covers : ResetReason → ℕ → Bool
  | disconnect seat, other => seat.toNat == other
  | reconnect seat, other => seat.toNat == other
  | pause, _ | focusLost, _ | rematch, _ => true

namespace SessionEvent

def accepted : SessionEvent → List ScheduledTransition
  | submitted _ t .accepted | submitted _ t .acceptedReordered => [t]
  | _ => []

/-- The identity of a transition was quarantined, its seat reset or the state replaced. -/
def supersedes : SessionEvent → ScheduledTransition → Bool
  | submitted _ u .conflict, t => u.identity == t.identity
  | reset reason, t => reason.covers t.seat.toNat
  | snapshot _, _ => true
  | _, _ => false

/-- The submission that made the session ask for a resync; a pending transition of its identity
is dropped with it. -/
def drops : SessionEvent → ScheduledTransition → Bool
  | submitted false u .resyncRequired, t => u.identity == t.identity
  | _, _ => false

def withdraws (e : SessionEvent) (t : ScheduledTransition) : Bool := e.supersedes t || e.drops t

end SessionEvent

open SessionEvent (drops supersedes withdraws)

def standing (withdraws : SessionEvent → ScheduledTransition → Bool) (history : List SessionEvent) :
    List ScheduledTransition :=
  history.foldl (fun ts e => e.accepted ++ ts.filter fun t => !withdraws e t) []

lemma standing_append_singleton (withdraws : SessionEvent → ScheduledTransition → Bool)
    (history : List SessionEvent) (e : SessionEvent) :
    standing withdraws (history ++ [e]) =
      e.accepted ++ (standing withdraws history).filter fun t => !withdraws e t := by
  rw [standing, foldl_append]
  rfl

/-- The control that the last reset or snapshot established for a seat. -/
def established (seat : ℕ) (history : List SessionEvent) : ControlState :=
  history.foldl (fun control e =>
    match e with
    | .reset reason => if reason.covers seat then .neutral else control
    | .snapshot snapshot => snapshot.controls.at seat .neutral
    | _ => control) .neutral

lemma established_append_singleton (seat : ℕ) (history : List SessionEvent) (e : SessionEvent) :
    established seat (history ++ [e]) = match e with
      | .reset reason => if reason.covers seat then .neutral else established seat history
      | .snapshot snapshot => snapshot.controls.at seat .neutral
      | _ => established seat history := by
  rw [established, foldl_append]
  rfl

/-- Earlier in the order of `(apply_tick, sequence)`, or at the same place. -/
def NotAfter (u t : ScheduledTransition) : Prop :=
  u.applyTick < t.applyTick ∨ u.applyTick = t.applyTick ∧ u.sequence ≤ t.sequence

instance (u t : ScheduledTransition) : Decidable (NotAfter u t) :=
  inferInstanceAs (Decidable (_ ∨ _))

/-- The last of the transitions for a seat that are due by a tick. -/
def Latest (ts : List ScheduledTransition) (seat : ℕ) (tick : UInt64) (t : ScheduledTransition) :
    Prop :=
  t ∈ ts ∧ t.seat.toNat = seat ∧ t.applyTick ≤ tick ∧
    ∀ u ∈ ts, u.seat.toNat = seat → u.applyTick ≤ tick → NotAfter u t

instance (ts : List ScheduledTransition) (seat : ℕ) (tick : UInt64) (t : ScheduledTransition) :
    Decidable (Latest ts seat tick t) :=
  inferInstanceAs (Decidable (_ ∧ _ ∧ _ ∧ _))

namespace RealtimeSession

variable {s s' : RealtimeSession} {ts : List ScheduledTransition} {base : ℕ → ControlState}

/-- A session that stands for the transitions `ts`, over the controls `base`. -/
structure Controlled (s : RealtimeSession) (ts : List ScheduledTransition)
    (base : ℕ → ControlState) : Prop extends Tracked s where
  delayed : s.config.inputDelayTicks ≠ 0
  stands : s.pending.occupants ⊆ ts
  ahead : ∀ t ∈ s.pending.occupants,
    s.currentTick < t.applyTick ∨ s.currentTick.toNat + 1 = UInt64.size
  /-- A transition that stands and is not pending has been applied. -/
  behind : ∀ t ∈ ts, t ∉ s.pending.occupants →
    t.applyTick ≤ s.currentTick ∧ t.sequence ≤ s.highestAppliedSequence.at t.seat.toNat 0
  seated : ∀ t ∈ ts, t.seat.toNat < s.seats ∧ t.epoch = s.epochs.at t.seat.toNat 0
  standing_distinct : (ts.map ScheduledTransition.identity).Nodup
  standing_free : ∀ t ∈ ts, t.identity ∉ s.quarantined.identities
  /-- The control of a seat is the state of the last one applied for it. -/
  control : ∀ seat < s.seats,
    (∃ t ∈ ts, t.seat.toNat = seat ∧ t ∉ s.pending.occupants ∧
      s.controls.at seat .neutral = t.state ∧
      ∀ u ∈ ts, u.seat.toNat = seat → u ∉ s.pending.occupants → NotAfter u t) ∨
    ((∀ u ∈ ts, u.seat.toNat = seat → u ∈ s.pending.occupants) ∧
      s.controls.at seat .neutral = base seat)

variable {config : RealtimeConfig}

lemma controlled_new {seats limit : ℕ}
    (hdelay : config.inputDelayTicks ≠ 0) (h : newWithReplayLimit config seats limit = .ok s) :
    Controlled s [] fun _ => .neutral := by
  have htrack := tracked_new h
  unfold newWithReplayLimit at h
  split_ifs at h
  obtain ⟨log, -, rfl⟩ := map_ok_iff.mp h
  refine ⟨htrack, hdelay, by simp, by simp, by simp, by simp, .nil, by simp, ?_⟩
  intro seat hseat
  exact .inr ⟨by simp, SeatArray.at_replicate _ _ (by simp only at hseat; omega)⟩

lemma lt_of_earliest (hdelay : s.config.inputDelayTicks ≠ 0) (h : s.earliestApplyTick ≤ tick) :
    s.currentTick < tick ∨ s.currentTick.toNat + 1 = UInt64.size := by
  have hlt := s.currentTick.toNat_lt
  have hsize : UInt64.size = 2 ^ 64 := rfl
  rcases Nat.lt_or_ge (s.currentTick.toNat + 1) UInt64.size with hroom | hlast
  · exact .inl (UInt64.lt_of_lt_of_le (lt_earliestApplyTick hdelay hroom) h)
  · exact .inr (by omega)

namespace Controlled

variable {t : ScheduledTransition} {tick : UInt64} (h : Controlled s ts base)
include h

lemma identity_not_mem (hpend : t.identity ∉ s.pendingIdentities)
    (hfloor : ¬ t.sequence ≤ s.highestAppliedSequence.at t.seat.toNat 0) :
    t.identity ∉ ts.map identity := by
  intro hmem
  obtain ⟨u, hu, hid⟩ := mem_map.mp hmem
  by_cases hup : u ∈ s.pending.occupants
  · exact hpend (hid ▸ List.mem_map_of_mem hup)
  · have hle : u.identity.sequence ≤ s.highestAppliedSequence.at u.identity.seat.toNat 0 :=
      (h.behind u hu hup).2
    rw [hid] at hle
    exact hfloor hle

lemma schedule (hroom : s.pending.count < maxPendingTransitions)
    (hpas : Passes s t) (hpend : t.identity ∉ s.pendingIdentities)
    (hfloor : ¬ t.sequence ≤ s.highestAppliedSequence.at t.seat.toNat 0) :
    Controlled (s.schedule t hroom).1 (t :: ts) base := by
  have hperm := s.pending.occupants_insert_perm t hroom
  have hmem : ∀ u, u ∈ (s.schedule t hroom).1.pending.occupants ↔
      u = t ∨ u ∈ s.pending.occupants := fun u => hperm.mem_iff.trans mem_cons
  refine ⟨h.toTracked.schedule hroom hpas hpend, h.delayed, ?_, ?_, ?_, ?_, ?_, ?_, ?_⟩
  · intro u hu
    exact mem_cons.mpr (((hmem u).mp hu).imp_right fun hu => h.stands hu)
  · intro u hu
    rcases (hmem u).mp hu with rfl | hu
    · exact lt_of_earliest h.delayed hpas.earliest
    · exact h.ahead u hu
  · intro u hu hout
    rw [hmem, not_or] at hout
    exact h.behind u ((mem_cons.mp hu).resolve_left hout.1) hout.2
  · intro u hu
    rcases mem_cons.mp hu with rfl | hu
    · exact ⟨hpas.seat_lt, hpas.epoch_eq⟩
    · exact h.seated u hu
  · exact nodup_cons.mpr ⟨h.identity_not_mem hpend hfloor, h.standing_distinct⟩
  · intro u hu
    rcases mem_cons.mp hu with rfl | hu
    · exact hpas.not_quarantined
    · exact h.standing_free u hu
  · intro seat hseat
    -- the new transition is pending, so what was applied is the same
    have hold : ∀ u ∈ t :: ts, u ∉ (s.schedule t hroom).1.pending.occupants →
        u ∈ ts ∧ u ∉ s.pending.occupants := by
      intro u hu hout
      rw [hmem, not_or] at hout
      exact ⟨(mem_cons.mp hu).resolve_left hout.1, hout.2⟩
    rcases h.control seat hseat with ⟨u, hu, huseat, huout, hstate, hlast⟩ | ⟨hall, hbase⟩
    · refine .inl ⟨u, mem_cons_of_mem t hu, huseat, ?_, hstate, ?_⟩
      · rw [hmem, not_or]
        refine ⟨?_, huout⟩
        rintro rfl
        exact h.identity_not_mem hpend hfloor (List.mem_map_of_mem hu)
      · intro v hv hvseat hvout
        obtain ⟨hv, hvout⟩ := hold v hv hvout
        exact hlast v hv hvseat hvout
    · refine .inr ⟨fun u hu huseat => ?_, hbase⟩
      rw [hmem]
      rcases mem_cons.mp hu with rfl | hu
      · exact .inl rfl
      · exact .inr (hall u hu huseat)

lemma remove (hexisting : existing ∈ s.pending.occupants) (hs' : Tracked s')
    (hcon : s'.config = s.config) (hseats : s'.seats = s.seats)
    (htick : s'.currentTick = s.currentTick) (hcont : s'.controls = s.controls)
    (hepo : s'.epochs = s.epochs) (hfloor : s'.highestAppliedSequence = s.highestAppliedSequence)
    (hpend : ∀ u, u ∈ s'.pending.occupants ↔
      u ∈ s.pending.occupants ∧ u.identity ≠ existing.identity)
    (hquar : ∀ i ∈ s'.quarantined.identities,
      i ∈ s.quarantined.identities ∨ i = existing.identity) :
    Controlled s' (ts.filter fun u => !(existing.identity == u.identity)) base := by
  have hmem : ∀ u, u ∈ ts.filter (fun u => !(existing.identity == u.identity)) ↔
      u ∈ ts ∧ u.identity ≠ existing.identity := fun u => by
    rw [mem_filter, Bool.not_eq_true', beq_eq_false_iff_ne, ne_comm]
  have hout : ∀ {u}, u ∈ ts ∧ u.identity ≠ existing.identity → u ∉ s'.pending.occupants →
      u ∉ s.pending.occupants := fun {u} hu hout hin => hout ((hpend u).mpr ⟨hin, hu.2⟩)
  refine ⟨hs', hcon ▸ h.delayed, ?_, ?_, ?_, ?_, ?_, ?_, ?_⟩
  · intro u hu
    obtain ⟨hu, hne⟩ := (hpend u).mp hu
    exact (hmem u).mpr ⟨h.stands hu, hne⟩
  · intro u hu
    rw [htick]
    exact h.ahead u ((hpend u).mp hu).1
  · intro u hu huout
    rw [htick, hfloor]
    have hu := (hmem u).mp hu
    exact h.behind u hu.1 (hout hu huout)
  · intro u hu
    rw [hseats, hepo]
    exact h.seated u ((hmem u).mp hu).1
  · exact h.standing_distinct.sublist (filter_sublist.map _)
  · intro u hu hq
    obtain ⟨hu, hne⟩ := (hmem u).mp hu
    exact (hquar _ hq).elim (h.standing_free u hu) hne
  · intro seat hseat
    rw [hcont]
    rcases h.control seat (hseats ▸ hseat) with ⟨u, hu, huseat, huout, hstate, hlast⟩ |
      ⟨hall, hbase⟩
    · have hne : u.identity ≠ existing.identity := by
        intro hid
        -- identities that stand are distinct, so `u` would be the pending one
        have heq := inj_on_of_nodup_map h.standing_distinct hu (h.stands hexisting) hid
        exact huout (heq ▸ hexisting)
      refine .inl ⟨u, (hmem u).mpr ⟨hu, hne⟩, huseat, ?_, hstate, ?_⟩
      · exact fun hin => huout ((hpend u).mp hin).1
      · intro v hv hvseat hvout
        have hv := (hmem v).mp hv
        exact hlast v hv.1 hvseat (hout hv hvout)
    · refine .inr ⟨fun u hu huseat => ?_, hbase⟩
      obtain ⟨hu, hne⟩ := (hmem u).mp hu
      exact (hpend u).mpr ⟨hall u hu huseat, hne⟩

omit h in
lemma filter_eq_self (h : t.identity ∉ ts.map identity) :
    ts.filter (fun u => !(t.identity == u.identity)) = ts := by
  rw [List.filter_eq_self]
  intro u hu
  rw [Bool.not_eq_true', beq_eq_false_iff_ne]
  exact fun hid => h (hid ▸ List.mem_map_of_mem hu)

def after (ts : List ScheduledTransition) (e : SessionEvent) : List ScheduledTransition :=
  e.accepted ++ ts.filter fun t => !e.withdraws t

omit h in
lemma after_quiet (hacc : outcome ≠ .accepted) (hreo : outcome ≠ .acceptedReordered)
    (hcon : outcome ≠ .conflict) (hres : outcome = .resyncRequired → resync = true) :
    after ts (.submitted resync t outcome) = ts := by
  cases outcome with
  | resyncRequired =>
    rw [hres rfl]
    simp [after, SessionEvent.accepted, withdraws, supersedes, drops]
  | accepted => exact absurd rfl hacc
  | acceptedReordered => exact absurd rfl hreo
  | conflict => exact absurd rfl hcon
  | _ => simp [after, SessionEvent.accepted, withdraws, supersedes, drops]

omit h in
lemma after_conflict (resync : Bool) (t : ScheduledTransition) :
    after ts (.submitted resync t .conflict) = ts.filter fun u => !(t.identity == u.identity) := by
  simp [after, SessionEvent.accepted, withdraws, supersedes, drops]

omit h in
lemma after_resync (t : ScheduledTransition) :
    after ts (.submitted false t .resyncRequired) =
      ts.filter fun u => !(t.identity == u.identity) := by
  simp [after, SessionEvent.accepted, withdraws, supersedes, drops]

omit h in
lemma after_schedule (resync : Bool) (t : ScheduledTransition)
    (hroom : s.pending.count < maxPendingTransitions) :
    after ts (.submitted resync t (s.schedule t hroom).2) = t :: ts := by
  simp only [RealtimeSession.schedule]
  split_ifs <;> simp [after, SessionEvent.accepted, withdraws, supersedes, drops]

lemma submitTransition (t : ScheduledTransition) :
    Controlled (s.submitTransition t).1
      (after ts (.submitted s.resyncRequired t (s.submitTransition t).2)) base := by
  have htrack := h.toTracked.submitTransition t
  have hsub := submitTransition_submitted s t
  have hrest : ∀ u, u ∈ (s.removePendingSequence t.identity).pending.occupants ↔
      u ∈ s.pending.occupants ∧ u.identity ≠ t.identity := fun u => by
    rw [removePendingSequence, SlotTable.mem_occupants_removeWhere, beq_eq_false_iff_ne]
  generalize s.submitTransition t = result at htrack hsub ⊢
  cases hsub with
  | @refused outcome hpreflight =>
    obtain ⟨hacc, hreo, hres, hcon⟩ := outcome_of_preflight hpreflight
    by_cases hc : outcome = .conflict
    · -- a quarantined identity does not stand any more
      rw [hc, after_conflict, filter_eq_self]
      · exact h
      · intro hmem
        obtain ⟨u, hu, hid⟩ := mem_map.mp hmem
        exact h.standing_free u hu (hid ▸ hcon hc)
    · rw [after_quiet hacc hreo hc hres]
      exact h
  | duplicate | stale | full =>
    rw [after_quiet (by simp) (by simp) (by simp) (by simp)]
    exact h
  | recent =>
    dsimp only [recentOutcome]
    split_ifs
    all_goals
      rw [after_quiet (by simp) (by simp) (by simp) (by simp)]
      exact h
  | quarantineFull hpreflight hpending hfloor =>
    rw [(passes_of_preflight hpreflight).resyncRequired, after_resync,
      filter_eq_self (h.identity_not_mem hpending hfloor)]
    exact ⟨htrack, h.2, h.3, h.4, h.5, h.6, h.7, h.8, h.9⟩
  | @conflict existing hroom hpreflight hexisting hid hne =>
    rw [after_conflict, ← hid]
    refine h.remove hexisting (hid ▸ htrack) rfl rfl rfl rfl rfl rfl (hid ▸ hrest) fun i hi => ?_
    refine (mem_append.mp hi).imp_right fun hi => ?_
    rw [mem_singleton.mp hi]
  | @conflictWhileFull existing hpreflight hexisting hid hne =>
    rw [(passes_of_preflight hpreflight).resyncRequired, after_resync, ← hid]
    exact h.remove hexisting (hid ▸ htrack) rfl rfl rfl rfl rfl rfl (hid ▸ hrest) fun i => .inl
  | scheduled hroom hpreflight hpending _ hfloor _ =>
    rw [after_schedule]
    exact h.schedule hroom (passes_of_preflight hpreflight) hpending hfloor

variable (htick : tick.toNat = s.currentTick.toNat + 1)
include htick

lemma next_le (ht : t ∈ s.pending.occupants) : tick ≤ t.applyTick := by
  have hahead := h.ahead t ht
  have hlt := tick.toNat_lt
  have hsize : UInt64.size = 2 ^ 64 := rfl
  rw [UInt64.lt_iff_toNat_lt] at hahead
  rw [UInt64.le_iff_toNat_le]
  omega

lemma lt_next (ht : t ∈ ts) (hout : t ∉ s.pending.occupants) : t.applyTick < tick := by
  have hle := (h.behind t ht hout).1
  rw [UInt64.le_iff_toNat_le] at hle
  rw [UInt64.lt_iff_toNat_lt]
  omega

lemma lt_of_mem_pending_applyTick (ht : t ∈ (s.applyTick tick).pending.occupants) :
    tick < t.applyTick := by
  obtain ⟨hin, hne⟩ := (s.mem_pending_applyTick tick).mp ht
  have hle := h.next_le htick hin
  grind

lemma applyTick : Controlled (s.applyTick tick) ts base := by
  have hseats : ∀ t ∈ s.pending.occupants, t.seat.toNat < maxSeats := fun t ht =>
    lt_of_lt_of_le (h.current t ht).1 s.seats_le
  have hfloor := s.highestAppliedSequence_applyTick tick hseats
  -- what is not pending after the tick was applied by it or before it
  have hcases : ∀ t ∈ ts, t ∉ (s.applyTick tick).pending.occupants →
      t ∈ s.dueTransitions tick ∨ t ∉ s.pending.occupants := by
    intro t ht hout
    rw [mem_pending_applyTick, not_and, not_not] at hout
    by_cases hin : t ∈ s.pending.occupants
    · exact .inl ((s.mem_dueTransitions tick).mpr ⟨hin, hout hin⟩)
    · exact .inr hin
  refine ⟨h.toTracked.applyTick tick, by simpa using h.delayed, ?_, ?_, ?_, ?_,
    h.standing_distinct, ?_, ?_⟩
  · exact fun t ht => h.stands ((s.mem_pending_applyTick tick).mp ht).1
  · intro t ht
    rw [currentTick_applyTick]
    exact .inl (h.lt_of_mem_pending_applyTick htick ht)
  · intro t ht hout
    rw [currentTick_applyTick]
    rcases hcases t ht hout with hin | hout
    · exact ⟨((s.mem_dueTransitions tick).mp hin).2 ▸ UInt64.le_refl _,
        (hfloor t.seat.toNat).2.1 t hin rfl⟩
    · exact ⟨UInt64.le_of_lt (h.lt_next htick ht hout),
        UInt32.le_trans (h.behind t ht hout).2 (hfloor t.seat.toNat).1⟩
  · intro t ht
    rw [seats_applyTick, epochs_applyTick]
    exact h.seated t ht
  · exact fun t ht hq => h.standing_free t ht ((s.quarantined_applyTick_sublist tick).subset hq)
  · intro seat hseat
    rw [seats_applyTick] at hseat
    rcases s.controls_applyTick tick hseats seat with
      ⟨t, ht, htseat, hstate, hmax⟩ | ⟨hnone, hsame⟩
    · obtain ⟨hin, hat⟩ := (s.mem_dueTransitions tick).mp ht
      refine .inl ⟨t, h.stands hin, htseat, ?_, hstate, ?_⟩
      · rw [mem_pending_applyTick]
        exact fun hstill => hstill.2 hat
      · intro u hu huseat huout
        rcases hcases u hu huout with hudue | huold
        · exact .inr ⟨(((s.mem_dueTransitions tick).mp hudue).2).trans hat.symm,
            hmax u hudue huseat⟩
        · exact .inl (hat ▸ h.lt_next htick hu huold)
    · -- no transition of the seat was due
      have hold : ∀ u ∈ ts, u.seat.toNat = seat →
          (u ∈ (s.applyTick tick).pending.occupants ↔ u ∈ s.pending.occupants) := by
        intro u hu huseat
        rw [mem_pending_applyTick]
        refine ⟨fun hin => hin.1, fun hin => ⟨hin, fun hat => ?_⟩⟩
        exact hnone u ((s.mem_dueTransitions tick).mpr ⟨hin, hat⟩) huseat
      rw [hsame]
      rcases h.control seat hseat with ⟨t, ht, htseat, htout, hstate, hlast⟩ | ⟨hall, hbase⟩
      · refine .inl ⟨t, ht, htseat, fun hin => htout ((hold t ht htseat).mp hin), hstate, ?_⟩
        intro u hu huseat huout
        exact hlast u hu huseat fun hin => huout ((hold u hu huseat).mpr hin)
      · exact .inr ⟨fun u hu huseat => (hold u hu huseat).mpr (hall u hu huseat), hbase⟩

omit htick

omit h in
lemma toNat_tick (hadv : s.advanceTick = .ok (s', advance)) :
    advance.tick.toNat = s.currentTick.toNat + 1 := by
  obtain ⟨hlt, htick, -⟩ := advanceTick_eq hadv
  rw [htick, UInt64.toNat_add]
  exact Nat.mod_eq_of_lt hlt

lemma advanceTick (hadv : s.advanceTick = .ok (s', advance)) : Controlled s' ts base := by
  have h' := h.applyTick (toNat_tick hadv)
  obtain ⟨-, -, -, -, -, rfl⟩ := advanceTick_eq hadv
  exact ⟨⟨h'.1.1, h'.1.2, h'.1.3, h'.1.4, h'.1.5, h'.1.6⟩, h'.2, h'.3, h'.4, h'.5, h'.6, h'.7, h'.8,
    h'.9⟩

lemma lifecycleEpoch {seat : ℕ} {active : Bool}
    (hreset : s.lifecycleEpoch seat active reason = .ok s') :
    Controlled s' (ts.filter fun t => !(seat == t.seat.toNat))
      fun other => if seat = other then .neutral else base other := by
  have htrack := h.toTracked.lifecycleEpoch hreset
  obtain ⟨hseat, next, hnext, rfl⟩ := lifecycleEpoch_eq hreset
  have hlt : seat < maxSeats := lt_of_lt_of_le hseat s.seats_le
  have hmem : ∀ t, t ∈ ts.filter (fun t => !(seat == t.seat.toNat)) ↔
      t ∈ ts ∧ seat ≠ t.seat.toNat := fun t => by
    rw [mem_filter, Bool.not_eq_true', beq_eq_false_iff_ne]
  have hpend : ∀ t, t ∈ (s.pending.removeWhere fun t => t.seat.toNat == seat).occupants ↔
      t ∈ s.pending.occupants ∧ seat ≠ t.seat.toNat := fun t => by
    rw [SlotTable.mem_occupants_removeWhere, beq_eq_false_iff_ne, ne_comm]
  have hkept : ∀ t, seat ≠ t.seat.toNat →
      t ∉ (s.pending.removeWhere fun t => t.seat.toNat == seat).occupants →
      t ∉ s.pending.occupants := fun t hne hout hin => hout ((hpend t).mpr ⟨hin, hne⟩)
  refine ⟨htrack, h.delayed, ?_, ?_, ?_, ?_, ?_, ?_, ?_⟩
  · intro t ht
    obtain ⟨hin, hne⟩ := (hpend t).mp ht
    exact (hmem t).mpr ⟨h.stands hin, hne⟩
  · exact fun t ht => h.ahead t ((hpend t).mp ht).1
  · intro t ht hout
    obtain ⟨ht, hne⟩ := (hmem t).mp ht
    obtain ⟨hle, hfloor⟩ := h.behind t ht (hkept t hne hout)
    refine ⟨hle, ?_⟩
    change _ ≤ (s.highestAppliedSequence.put seat 0).at t.seat.toNat 0
    rwa [SeatArray.at_put _ _ _ hlt, if_neg hne]
  · intro t ht
    obtain ⟨ht, hne⟩ := (hmem t).mp ht
    refine ⟨(h.seated t ht).1, ?_⟩
    change _ = (s.epochs.put seat next).at t.seat.toNat 0
    rw [SeatArray.at_put _ _ _ hlt, if_neg hne]
    exact (h.seated t ht).2
  · exact h.standing_distinct.sublist (filter_sublist.map _)
  · intro t ht hq
    exact h.standing_free t ((hmem t).mp ht).1 (mem_filter.mp hq).1
  · intro other hother
    change (∃ t ∈ _, _ ∧ _ ∧ (s.controls.put seat .neutral).at other .neutral = _ ∧ _) ∨
      (_ ∧ (s.controls.put seat .neutral).at other .neutral = _)
    rw [SeatArray.at_put _ _ _ hlt]
    by_cases heq : seat = other
    · subst heq
      rw [if_pos rfl, if_pos rfl]
      exact .inr ⟨fun t ht htseat => absurd htseat.symm ((hmem t).mp ht).2, rfl⟩
    · rw [if_neg heq, if_neg heq]
      rcases h.control other hother with ⟨t, ht, htseat, htout, hstate, hlast⟩ | ⟨hall, hbase⟩
      · refine .inl ⟨t, (hmem t).mpr ⟨ht, htseat.symm ▸ heq⟩, htseat,
          fun hin => htout ((hpend t).mp hin).1, hstate, ?_⟩
        intro u hu huseat huout
        obtain ⟨hu, hne⟩ := (hmem u).mp hu
        exact hlast u hu huseat (hkept u hne huout)
      · refine .inr ⟨fun u hu huseat => ?_, hbase⟩
        obtain ⟨hu, hne⟩ := (hmem u).mp hu
        exact (hpend u).mpr ⟨hall u hu huseat, hne⟩

omit h in
lemma cleared (hs : Tracked s) (hdelay : s.config.inputDelayTicks ≠ 0)
    (hpend : s.pending = .empty _ _)
    (hcon : ∀ seat < s.seats, s.controls.at seat .neutral = base seat) :
    Controlled s [] base := by
  have hocc : s.pending.occupants = [] := by rw [hpend, SlotTable.occupants_empty]
  exact ⟨hs, hdelay, by simp [hocc], by simp [hocc], by simp, by simp, .nil, by simp,
    fun seat hseat => .inr ⟨by simp, hcon seat hseat⟩⟩

lemma resetAll (hreset : s.resetAll reason = .ok s') : Controlled s' [] fun _ => .neutral := by
  have htrack := Tracked.resetAll hreset
  obtain ⟨epochs, -, rfl⟩ := resetAll_eq hreset
  refine cleared htrack h.delayed rfl fun seat hseat => ?_
  exact SeatArray.at_replicate _ _ (lt_of_lt_of_le hseat s.seats_le)

lemma applyAuthoritativeSnapshot (hsnap : s.applyAuthoritativeSnapshot snapshot = .ok s') :
    Controlled s' [] fun seat => snapshot.controls.at seat .neutral := by
  have htrack := Tracked.applyAuthoritativeSnapshot hsnap
  obtain ⟨-, rfl⟩ := applyAuthoritativeSnapshot_eq hsnap
  exact cleared htrack h.delayed rfl fun seat _ => rfl

end Controlled

def Recorded (s : RealtimeSession) (history : List SessionEvent) : Prop :=
  Controlled s (standing SessionEvent.withdraws history) fun seat => established seat history

namespace Recorded

variable {history : List SessionEvent} (h : Recorded s history)
include h

lemma submitLog (t : ScheduledTransition) :
    Recorded (s.submitLog t).1 (history ++ (s.submitLog t).2) := by
  have hnext := Controlled.submitTransition h t
  unfold Recorded
  simp only [RealtimeSession.submitLog, standing_append_singleton, established_append_singleton]
  exact hnext

lemma advanceLog : Recorded s.advanceLog.1 (history ++ s.advanceLog.2) := by
  unfold RealtimeSession.advanceLog
  cases hadv : s.advanceTick with
  | error e => simpa using h
  | ok result =>
    have hnext := Controlled.advanceTick h hadv
    have hquiet : ∀ ts : List ScheduledTransition,
        ts.filter (fun t => !(SessionEvent.advanced result.2).withdraws t) = ts := fun ts => by
      simp [withdraws, supersedes, drops]
    unfold Recorded
    simp only [standing_append_singleton, established_append_singleton, hquiet]
    exact hnext

lemma recordAuthoritativeHash (tick hash : UInt64) :
    Recorded (keepOnError s (s.recordAuthoritativeHash tick hash)) history := by
  have htrack := h.toTracked.recordAuthoritativeHash tick hash
  unfold RealtimeSession.recordAuthoritativeHash at htrack ⊢
  cases hlog : s.replay.recordHash tick hash with
  | error e => exact h
  | ok log =>
    rw [hlog] at htrack
    exact ⟨htrack, h.2, h.3, h.4, h.5, h.6, h.7, h.8, h.9⟩

lemma lifecycleEpoch {seat : ℕ} {active : Bool}
    (hcov : seat < maxSeats → ∀ other, reason.covers other = (seat == other)) :
    Recorded (s.lifecycleLog (.reset reason) (s.lifecycleEpoch seat active reason)).1
      (history ++ (s.lifecycleLog (.reset reason) (s.lifecycleEpoch seat active reason)).2) := by
  cases hreset : s.lifecycleEpoch seat active reason with
  | error e => simpa [lifecycleLog] using h
  | ok s' =>
    have hnext := Controlled.lifecycleEpoch h hreset
    have hseat := (lifecycleEpoch_eq hreset).1
    have hcov := hcov (lt_of_lt_of_le hseat s.seats_le)
    unfold Recorded
    simp only [lifecycleLog, standing_append_singleton,
      established_append_singleton, hcov, SessionEvent.accepted, withdraws,
      supersedes, drops, Bool.or_false, nil_append, beq_iff_eq]
    exact hnext

lemma resetAll (hcov : ∀ seat, reason.covers seat = true) :
    Recorded (s.lifecycleLog (.reset reason) (s.resetAll reason)).1
      (history ++ (s.lifecycleLog (.reset reason) (s.resetAll reason)).2) := by
  cases hreset : s.resetAll reason with
  | error e => simpa [lifecycleLog] using h
  | ok s' =>
    have hnext := Controlled.resetAll h hreset
    have hnone : ∀ ts : List ScheduledTransition, ts.filter (fun t =>
        !(SessionEvent.reset reason).withdraws t) = [] := fun ts => by
      simp [withdraws, supersedes, hcov]
    unfold Recorded
    simp only [lifecycleLog, standing_append_singleton,
      established_append_singleton, hcov, hnone, if_true]
    exact hnext

lemma applyAuthoritativeSnapshot (snapshot : AuthoritativeSnapshot) :
    Recorded (s.lifecycleLog (.snapshot snapshot) (s.applyAuthoritativeSnapshot snapshot)).1
      (history ++
        (s.lifecycleLog (.snapshot snapshot) (s.applyAuthoritativeSnapshot snapshot)).2) := by
  cases hsnap : s.applyAuthoritativeSnapshot snapshot with
  | error e => simpa [lifecycleLog] using h
  | ok s' =>
    have hnext := Controlled.applyAuthoritativeSnapshot h hsnap
    have hnone : ∀ ts : List ScheduledTransition, ts.filter (fun t =>
        !(SessionEvent.snapshot snapshot).withdraws t) = [] := fun ts => by
      simp [withdraws, supersedes]
    unfold Recorded
    simp only [lifecycleLog, standing_append_singleton, established_append_singleton, hnone]
    exact hnext

omit h in
lemma covers_ofNat {seat : ℕ} (h : seat < maxSeats) (other : ℕ) :
    ((UInt8.ofNat seat).toNat == other) = (seat == other) := by
  have hseat : (UInt8.ofNat seat).toNat = seat := by
    rw [UInt8.toNat_ofNat']
    exact Nat.mod_eq_of_lt (lt_of_lt_of_le h (by decide))
  rw [hseat]

lemma stepLog (op : Op) : Recorded (s.stepLog op).1 (history ++ (s.stepLog op).2) := by
  cases op with
  | submitTransition t => exact h.submitLog t
  | submitEnvelope | submitPayload =>
    exact runLog_invariant Recorded _ (fun _ _ t _ hs => hs.submitLog t) h
  | advanceTick => exact h.advanceLog
  | recordAuthoritativeHash tick hash =>
    simp only [RealtimeSession.stepLog, append_nil]
    exact h.recordAuthoritativeHash tick hash
  | disconnect | reconnect => exact h.lifecycleEpoch covers_ofNat
  | pause | focusLost | rematch => exact h.resetAll fun _ => rfl
  | applyAuthoritativeSnapshot snapshot => exact h.applyAuthoritativeSnapshot snapshot

omit h

lemma run {seats limit : ℕ} (hdelay : config.inputDelayTicks ≠ 0)
    (h : newWithReplayLimit config seats limit = .ok s) (ops : List Op) :
    Recorded (s.run ops) (s.history ops) := by
  have hfresh : Recorded s [] := controlled_new hdelay h
  have hrun := runLog_invariant Recorded ops (fun _ _ op _ hs => hs.stepLog op) hfresh
  rwa [fst_runLog_stepLog] at hrun

end Recorded

lemma Controlled.eq_of_latest (h : Controlled s ts base) {seat : ℕ} (ht : Latest ts seat tick t)
    (hu : Latest ts seat tick u) :
    u = t := by
  obtain ⟨ht, htseat, httick, htlast⟩ := ht
  obtain ⟨hu, huseat, hutick, hulast⟩ := hu
  have hut := htlast u hu huseat hutick
  have htu := hulast t ht htseat httick
  have hseq : u.sequence = t.sequence := by
    unfold NotAfter at hut htu
    grind
  have hseat : u.seat = t.seat := UInt8.toNat.inj (huseat.trans htseat.symm)
  have hepoch : u.epoch = t.epoch := by
    rw [(h.seated u hu).2, (h.seated t ht).2, hseat]
  refine inj_on_of_nodup_map h.standing_distinct hu ht ?_
  rw [identity, identity, hseat, hepoch, hseq]

/-- After a tick the control of each configured seat is the state of the one latest transition
that stands and is due, or what the last reset or snapshot established if none is.  A tick
applies the standing transitions scheduled for it, and no identity is applied twice. -/
theorem controls_follow_latest {simulationHz presentationHz controlHz inputDelayTicks : UInt32}
    {config : RealtimeConfig}
    (hconfig : RealtimeConfig.new simulationHz presentationHz controlHz inputDelayTicks =
      .ok config)
    {seats limit : ℕ} {fresh : RealtimeSession}
    (hfresh : newWithReplayLimit config seats limit = .ok fresh) (ops : List Op)
    {advance : TickAdvance} (hadvance : (fresh.run ops).advanceTick = .ok (s', advance)) :
    let ts := standing SessionEvent.withdraws (fresh.history ops)
    advance.controls = s'.controls ∧
    (∀ seat < advance.configuredSeats,
      (∃ t, Latest ts seat advance.tick t ∧ (∀ u, Latest ts seat advance.tick u → u = t) ∧
        advance.controls.at seat .neutral = t.state) ∨
      ((∀ t ∈ ts, t.seat.toNat = seat → advance.tick < t.applyTick) ∧
        advance.controls.at seat .neutral = established seat (fresh.history ops))) ∧
    (∀ t, t ∈ advance.applied ↔ t ∈ ts ∧ t.applyTick = advance.tick) ∧
    ((fresh.history ops).flatMap SessionEvent.applied ++ advance.applied).Pairwise
      fun t u => t.identity ≠ u.identity := by
  have h := Recorded.run (SessionMemory.inputDelayTicks_ne_zero hconfig) hfresh ops
  have htick := Controlled.toNat_tick hadvance
  have hafter := Controlled.applyTick h htick
  have honce := ((Once.run hfresh ops).advanceTick hadvance).once
  obtain ⟨-, -, hseats, happlied, hcontrols, rfl⟩ := advanceTick_eq hadvance
  intro ts
  refine ⟨hcontrols, fun seat hseat => ?_, fun t => ?_, ?_⟩
  · -- after the tick, what is due is exactly what is not pending
    have hdue : ∀ t ∈ ts, t.applyTick ≤ advance.tick ↔
        t ∉ ((fresh.run ops).applyTick advance.tick).pending.occupants := by
      intro t ht
      refine ⟨fun hle hin => ?_, fun hout => ?_⟩
      · exact UInt64.not_lt.mpr hle (Controlled.lt_of_mem_pending_applyTick h htick hin)
      · have hbehind := (hafter.behind t ht hout).1
        rwa [currentTick_applyTick] at hbehind
    rw [hcontrols]
    have hseat' : seat < ((fresh.run ops).applyTick advance.tick).seats := by
      rw [seats_applyTick, ← hseats]
      exact hseat
    rcases hafter.control seat hseat' with ⟨t, ht, htseat, hout, hstate, hlast⟩ | ⟨hall, hbase⟩
    · have hlatest : Latest ts seat advance.tick t :=
        ⟨ht, htseat, (hdue t ht).mpr hout, fun u hu huseat hle =>
          hlast u hu huseat ((hdue u hu).mp hle)⟩
      exact .inl ⟨t, hlatest, fun u hu => Controlled.eq_of_latest h hlatest hu, hstate⟩
    · refine .inr ⟨fun t ht htseat => ?_, hbase⟩
      exact Controlled.lt_of_mem_pending_applyTick h htick (hall t ht htseat)
  · rw [happlied, mem_dueTransitions]
    refine ⟨fun ⟨hin, hat⟩ => ⟨h.stands hin, hat⟩, fun ⟨ht, hat⟩ => ⟨?_, hat⟩⟩
    by_contra hout
    exact UInt64.lt_irrefl _ (hat ▸ Controlled.lt_next h htick ht hout)
  · rw [appliedIdentities, ← List.map_append] at honce
    exact List.pairwise_map.mp honce

/-- A press is applied by the tick it was scheduled for. -/
theorem press_applied_at_its_tick :
    ∃ s' advance, (sampleSession.run [.submitTransition (press 1 1)]).advanceTick =
        .ok (s', advance) ∧ press 1 1 ∈ advance.applied := by
  obtain ⟨⟨s', advance⟩, hadvance⟩ : ∃ result,
      (sampleSession.run [.submitTransition (press 1 1)]).advanceTick = .ok result := ⟨_, rfl⟩
  have htick : advance.tick = 1 := (advanceTick_eq hadvance).2.1
  have h := controls_follow_latest
    (show RealtimeConfig.new 60 60 60 1 = .ok sampleConfig from rfl)
    (show newWithReplayLimit sampleConfig 1 1000 = .ok sampleSession from rfl)
    [.submitTransition (press 1 1)] hadvance
  refine ⟨s', advance, hadvance, (h.2.2.1 (press 1 1)).mpr ⟨by decide +kernel, ?_⟩⟩
  rw [htick]
  rfl

/-- The run that fills the quarantine list, admits press 201, has it contradicted and ticks. -/
def dropPress : List Op := fillQuarantine 127 ++ loseTransition.take 5

/-- Press 201 was accepted and never quarantined, reset or superseded, it is the latest one due
at tick 1, and yet the tick leaves the control neutral. -/
theorem dropped_press_not_applied :
    Latest (standing SessionEvent.supersedes (sampleSession.history dropPress)) 0 1 (press 201 1) ∧
    (sampleSession.run dropPress).currentTick = 1 ∧
    (sampleSession.run dropPress).controls.at 0 .neutral ≠ (press 201 1).state := by
  rw [← fst_runLog_stepLog, history]
  decide +kernel

end RealtimeSession
end Stasis.Realtime
