import Stasis.Realtime.Invariant
import Stasis.Realtime.NativeAbi

namespace Stasis.Realtime

open RealtimeSession
open List
namespace NativeAbi

open SessionMemory (readAt_of_lt)

variable {s s' : RealtimeSession}

structure InRange (s : RealtimeSession) : Prop where
  tick_le : s.currentTick ≤ guestMaxTick
  epoch_le : ∀ seat < maxSeats, s.epochs.at seat 0 ≤ guestMaxEpoch

lemma toNat_nextEpoch {next : UInt32} (h : s.nextEpoch seat = .ok next) :
    next.toNat = (s.epochs.at seat 0).toNat + 1 := by
  unfold nextEpoch at h
  dsimp only at h
  split_ifs at h with hlt
  cases h
  rw [UInt32.toNat_add]
  exact Nat.mod_eq_of_lt hlt

lemma nextEpoch_le {next : UInt32} (h : s.nextEpoch seat = .ok next)
    (hlimit : ¬ s.epochs.at seat 0 ≥ guestMaxEpoch) :
    next ≤ guestMaxEpoch := by
  rw [ge_iff_le, UInt32.not_le, UInt32.lt_iff_toNat_lt] at hlimit
  rw [UInt32.le_iff_toNat_le, toNat_nextEpoch h]
  exact hlimit

namespace InRange

lemma new {config : RealtimeConfig} {seats limit : ℕ}
    (h : newWithReplayLimit config seats limit = .ok s) : InRange s := by
  unfold newWithReplayLimit at h
  split_ifs at h
  obtain ⟨replay, -, rfl⟩ := map_ok_iff.mp h
  refine ⟨show (0 : UInt64) ≤ guestMaxTick by decide, fun seat hseat => ?_⟩
  rw [SeatArray.at_replicate _ _ hseat]
  decide

variable (h : InRange s)
include h

lemma submitTransition (t : ScheduledTransition) : InRange (s.submitTransition t).1 := by
  have hsub := submitTransition_submitted s t
  generalize s.submitTransition t = result at hsub ⊢
  cases hsub with
  | refused | duplicate | recent | stale | full => exact h
  | conflict | conflictWhileFull | quarantineFull | scheduled => exact ⟨h.tick_le, h.epoch_le⟩

lemma submitEnvelope (e : ControlEnvelope) : InRange (s.submitEnvelope e).1 := by
  have hstep : (s.submitEnvelope e).1 = s.step (.submitEnvelope e) := rfl
  rw [hstep, ← fst_stepLog]
  simp only [stepLog]
  rw [fst_runLog_submitLog]
  exact List.foldlRecOn _ _ h fun _ hs t _ => hs.submitTransition t

lemma advanceTick (hlimit : ¬ s.currentTick ≥ guestMaxTick)
    (hadv : s.advanceTick = .ok (s', advance)) :
    InRange s' := by
  obtain ⟨hlt, htick, -, -, -, rfl⟩ := advanceTick_eq hadv
  constructor
  · change (s.applyTick advance.tick).currentTick ≤ guestMaxTick
    rw [currentTick_applyTick, htick, UInt64.le_iff_toNat_le, UInt64.toNat_add]
    rw [ge_iff_le, UInt64.not_le, UInt64.lt_iff_toNat_lt] at hlimit
    exact (Nat.mod_le _ _).trans hlimit
  · intro seat hseat
    change (s.applyTick advance.tick).epochs.at seat 0 ≤ guestMaxEpoch
    rw [epochs_applyTick]
    exact h.epoch_le seat hseat

lemma lifecycleEpoch {active : Bool}
    (hlimit : seat < s.seats → ¬ s.epochs.at seat 0 ≥ guestMaxEpoch)
    (hreset : s.lifecycleEpoch seat active reason = .ok s') : InRange s' := by
  unfold RealtimeSession.lifecycleEpoch at hreset
  split_ifs at hreset with hseat
  obtain ⟨next, hnext, rfl⟩ := map_ok_iff.mp hreset
  have hlt : seat < s.seats := not_le.mp hseat
  refine ⟨h.tick_le, fun other hother => ?_⟩
  change (s.epochs.put seat next).at other 0 ≤ guestMaxEpoch
  rw [SeatArray.at_put _ _ _ (hlt.trans_le s.seats_le)]
  split_ifs
  · exact nextEpoch_le hnext (hlimit hlt)
  · exact h.epoch_le other hother

lemma resetAll (hlimit : ∀ seat < s.seats, ¬ s.epochs.at seat 0 ≥ guestMaxEpoch)
    (hreset : s.resetAll reason = .ok s') : InRange s' := by
  obtain ⟨epochs, hepo, rfl⟩ := map_ok_iff.mp hreset
  have hrange : ∀ seat ∈ range s.seats, seat < maxSeats := fun seat hmem =>
    (mem_range.mp hmem).trans_le s.seats_le
  constructor
  · change (if reason = ResetReason.rematch then 0 else s.currentTick) ≤ guestMaxTick
    split_ifs
    · decide
    · exact h.tick_le
  · intro seat hseat
    change epochs.at seat 0 ≤ guestMaxEpoch
    obtain ⟨hin, hout⟩ := foldlM_nextEpoch hrange hepo seat
    by_cases hlt : seat < s.seats
    · exact nextEpoch_le (hin (mem_range.mpr hlt)) (hlimit seat hlt)
    · rw [hout fun hmem => hlt (mem_range.mp hmem)]
      exact h.epoch_le seat hseat

omit h

lemma applyAuthoritativeSnapshot (htick : snapshot.tick ≤ guestMaxTick)
    (hepo : ∀ seat < maxSeats, snapshot.epochs.at seat 0 ≤ guestMaxEpoch)
    (hsnap : s.applyAuthoritativeSnapshot snapshot = .ok s') : InRange s' := by
  obtain ⟨-, rfl⟩ := applyAuthoritativeSnapshot_eq hsnap
  exact ⟨htick, hepo⟩

end InRange

lemma toInt_toNat_lt (a : Int32) : a.toInt.toNat < 2 ^ 31 := by
  have hlt := a.toInt_lt
  omega

lemma toNat_u64 (a : Int32) : (u64 a).toNat < 2 ^ 31 := by
  have hlt := toInt_toNat_lt a
  rw [u64, UInt64.toNat_ofNat', Nat.mod_eq_of_lt (by omega)]
  exact hlt

lemma u64_le_guestMaxTick (a : Int32) : u64 a ≤ guestMaxTick := by
  have hlt := toNat_u64 a
  rw [UInt64.le_iff_toNat_le]
  change (u64 a).toNat ≤ 2147483647
  omega

lemma seat_epoch_le {arrays : SnapshotArrays} (h : arrays.seat index = some entry) :
    entry.epoch ≤ guestMaxEpoch := by
  unfold SnapshotArrays.seat at h
  simp only [Option.bind_eq_bind, Option.bind_eq_some_iff] at h
  obtain ⟨button, -, x, -, y, -, sequence, -, epoch, -, hentry⟩ := h
  split_ifs at hentry with hrange
  cases hentry
  exact UInt32.not_lt.mp fun hlt => hrange (.inr (.inl hlt))

lemma guestSnapshot_epoch_le {arrays : SnapshotArrays} {indices : List ℕ}
    {seats : List SnapshotSeat} (h : indices.mapM arrays.seat = some seats)
    (revision tick : Int32) (seat : ℕ) (hseat : seat < maxSeats) :
    (guestSnapshot revision tick seats).epochs.at seat 0 ≤ guestMaxEpoch := by
  have hat : (guestSnapshot revision tick seats).epochs.at seat 0 =
      (seats[seat]?.map SnapshotSeat.epoch).getD 1 := by
    simp [guestSnapshot, SeatArray.at, getD_eq_getElem?_getD, hseat]
  rw [hat]
  cases hentry : seats[seat]? with
  | none => decide
  | some entry =>
    obtain ⟨index, -, hindex⟩ := exists_of_mapM_some h (mem_of_getElem? hentry)
    exact seat_epoch_le hindex

def Valid : Slot → Prop
  | none => True
  | some m => ∃ s : RealtimeSession, m = s.memory ∧ s.Sound ∧ InRange s

/-- A call returns and leaves a valid slot, the same one where it is refused. -/
def Safe (refused : Int32 → Prop) (call : Abi Int32) : Prop :=
  ∀ slot, Valid slot → ∃ code slot', call slot = .ok code slot' ∧ Valid slot' ∧
    (refused code → slot' = slot)

def SafeMethod (refused : Int32 → Prop) (method : Method Int32) : Prop :=
  ∀ s : RealtimeSession, s.Sound → InRange s → ∃ code s', method s.memory = .ok code s'.memory ∧
    s'.Sound ∧ InRange s' ∧ (refused code → s' = s)

section Rules

variable {refused : Int32 → Prop}

lemma safe_return (code : Int32) : Safe refused (pure code) :=
  fun slot hslot => ⟨code, slot, rfl, hslot, fun _ => rfl⟩

lemma onSession_of_ok {α : Type} {method : Method α} {a : α} (h : method m = .ok a m')
    (missing : α) :
    onSession missing method (some m) = .ok a (some m') := by
  simp only [onSession, h]

lemma SafeMethod.onSession (h : SafeMethod refused method) (missing : Int32) :
    Safe refused (onSession missing method) := by
  intro slot hslot
  cases slot with
  | none => exact ⟨missing, none, rfl, trivial, fun _ => rfl⟩
  | some m =>
    obtain ⟨s, rfl, hsound, hrange⟩ := hslot
    obtain ⟨code, s', hrun, hsound', hrange', hkeep⟩ := h s hsound hrange
    exact ⟨code, some s'.memory, onSession_of_ok hrun missing, ⟨s', rfl, hsound', hrange'⟩,
      fun hcode => by rw [hkeep hcode]⟩

lemma safeMethod_read (h : ∀ s : RealtimeSession, ∃ code, method s.memory = .ok code s.memory) :
    SafeMethod refused method := by
  intro s hsound hrange
  obtain ⟨code, hrun⟩ := h s
  exact ⟨code, s, hrun, hsound, hrange, fun _ => rfl⟩

end Rules

lemma epoch_memory (s : RealtimeSession) (seat : ℕ) :
    epoch seat s.memory =
      .ok (if seat < s.seats then some (s.epochs.at seat 0) else none) s.memory := by
  refine bind_run rfl ?_
  split_ifs with hseat
  · exact bind_of_ok (readAt_of_lt _ (hseat.trans_le s.seats_le) 0 _)
  · rfl

lemma control_memory (s : RealtimeSession) (seat : ℕ) :
    control seat s.memory =
      .ok (if seat < s.seats then some (s.controls.at seat .neutral) else none) s.memory := by
  refine bind_run rfl ?_
  by_cases hseat : seat < s.seats
  · rw [if_pos hseat, if_pos hseat]
    exact bind_of_ok (readAt_of_lt _ (hseat.trans_le s.seats_le) ControlState.neutral _)
  · rw [if_neg hseat, if_neg hseat]
    rfl

lemma i32?_of_lt (h : n < 2 ^ 31) : ∃ code, i32? n = some code ∧ code.toInt = n :=
  ⟨_, if_pos h, Int32.toInt_ofNat_of_lt h⟩

lemma currentTick_memory (h : InRange s) : ∃ code,
    stasisRealtimeCurrentTick (some s.memory) = .ok code (some s.memory) ∧
      code.toInt = s.currentTick.toNat := by
  have hlt : s.currentTick.toNat < 2 ^ 31 := Nat.lt_succ_of_le (UInt64.le_iff_toNat_le.mp h.tick_le)
  obtain ⟨code, hcode, htoInt⟩ := i32?_of_lt hlt
  refine ⟨code, ?_, htoInt⟩
  change EStateM.Result.ok ((i32? s.currentTick.toNat).getD (-1)) (some s.memory) = _
  rw [hcode]
  rfl

variable {seat : Int32} {slot : Slot}

lemma currentEpoch_memory (h : InRange s) (hpos : 0 ≤ seat.toInt)
    (hseat : seat.toInt.toNat < s.seats) : ∃ code,
    stasisRealtimeCurrentEpoch seat (some s.memory) = .ok code (some s.memory) ∧
      code.toInt = (s.epochs.at seat.toInt.toNat 0).toNat := by
  have hle := h.epoch_le _ (hseat.trans_le s.seats_le)
  have hlt : (s.epochs.at seat.toInt.toNat 0).toNat < 2 ^ 31 :=
    Nat.lt_succ_of_le (UInt32.le_iff_toNat_le.mp hle)
  obtain ⟨code, hcode, htoInt⟩ := i32?_of_lt hlt
  refine ⟨code, ?_, htoInt⟩
  have hepoch := epoch_memory s seat.toInt.toNat
  rw [if_pos hseat] at hepoch
  unfold stasisRealtimeCurrentEpoch
  rw [usize?, if_pos hpos]
  refine onSession_of_ok ?_ _
  refine bind_run hepoch ?_
  simp only [Option.bind_some, hcode, Option.getD_some]
  rfl

lemma currentEpoch_of_invalid (hseat : ¬ (0 ≤ seat.toInt ∧ seat.toInt.toNat < s.seats)) :
    stasisRealtimeCurrentEpoch seat (some s.memory) = .ok (-1) (some s.memory) := by
  unfold stasisRealtimeCurrentEpoch usize?
  by_cases hpos : 0 ≤ seat.toInt
  · have hepoch := epoch_memory s seat.toInt.toNat
    rw [if_neg fun hlt => hseat ⟨hpos, hlt⟩] at hepoch
    rw [if_pos hpos]
    refine onSession_of_ok ?_ _
    exact bind_of_ok hepoch
  · rw [if_neg hpos]
    rfl

lemma safe_readers (refused : Int32 → Prop) : Safe refused stasisRealtimeCurrentTick ∧
    (∀ seat, Safe refused (stasisRealtimeCurrentEpoch seat)) ∧
      Safe refused stasisRealtimeResyncRequired := by
  refine ⟨?_, fun seat => ?_, ?_⟩
  · refine SafeMethod.onSession (safeMethod_read fun s => ?_) _
    exact ⟨_, bind_of_ok rfl⟩
  · unfold stasisRealtimeCurrentEpoch
    cases usize? seat with
    | none => exact safe_return _
    | some seat =>
      refine SafeMethod.onSession (safeMethod_read fun s => ?_) _
      exact ⟨_, bind_of_ok (epoch_memory s seat)⟩
  · refine SafeMethod.onSession (safeMethod_read fun s => ?_) _
    exact ⟨_, bind_of_ok rfl⟩

lemma readControl_memory (hslot : Valid slot) (seat : Int32) (outputs : Bool) :
    ∃ result, stasisRealtimeReadControl seat outputs slot = .ok result slot := by
  unfold stasisRealtimeReadControl
  split_ifs with hnull
  · exact ⟨_, rfl⟩
  cases slot with
  | none => exact ⟨_, rfl⟩
  | some m =>
    obtain ⟨s, rfl, -, -⟩ := hslot
    have hcon := control_memory s seat.toInt.toNat
    split_ifs at hcon with hseat <;> exact ⟨_, onSession_of_ok (by exact bind_of_ok hcon) _⟩

lemma safe_readControl (refused : Int32 → Prop) (seat : Int32) (outputs : Bool) :
    Safe refused (do return (← stasisRealtimeReadControl seat outputs).1) := by
  intro slot hslot
  obtain ⟨result, hres⟩ := readControl_memory hslot seat outputs
  exact ⟨result.1, slot, bind_of_ok hres, hslot, fun _ => rfl⟩

lemma safe_submitRealtimePayloadBytes (bytes : List UInt8) :
    Safe (fun _ => False) (submitRealtimePayloadBytes bytes) := by
  unfold submitRealtimePayloadBytes
  split_ifs
  · exact safe_return _
  cases ControlEnvelope.decode bytes with
  | error error => exact safe_return _
  | ok envelope =>
    dsimp only
    split_ifs
    · exact safe_return _
    · refine SafeMethod.onSession (fun s hsound hrange => ?_) _
      exact ⟨_, _, bind_of_ok (SessionMemory.submitEnvelope_memory envelope),
        hsound.step (.submitEnvelope envelope), hrange.submitEnvelope envelope, False.elim⟩

lemma safe_submitPayload (payload : Pointer) (length : Int32) :
    Safe (fun _ => False) (stasisRealtimeSubmitPayload payload length) := by
  unfold stasisRealtimeSubmitPayload
  split
  · split_ifs
    · exact safe_return _
    · split
      · exact safe_return _
      · exact safe_submitRealtimePayloadBytes _
  · exact safe_return _

lemma safe_schedule (seat epoch sequence applyTick buttons axisX axisY : Int32) :
    Safe (fun _ => False)
      (stasisRealtimeSchedule seat epoch sequence applyTick buttons axisX axisY) := by
  unfold stasisRealtimeSchedule
  split_ifs
  · exact safe_return _
  split
  · refine SafeMethod.onSession (fun s hsound hrange => ?_) _
    exact ⟨_, _, bind_of_ok (SessionMemory.submitTransition_memory _), hsound.submitTransition _,
      hrange.submitTransition _, False.elim⟩
  · exact safe_return _

lemma safe_start (simulationHz presentationHz controlHz inputDelayTicks seats : Int32) :
    Safe (fun _ => False)
      (stasisRealtimeStart simulationHz presentationHz controlHz inputDelayTicks seats) := by
  unfold stasisRealtimeStart
  split
  · split
    · exact safe_return _
    · rename_i config hcon
      intro slot hslot
      cases slot with
      | some m => exact ⟨-3, some m, rfl, hslot, False.elim⟩
      | none =>
        rcases hnew : SessionMemory.newWithReplayLimit config _ defaultReplayRecords with _ | _
        · exact ⟨-1, none, rfl, trivial, False.elim⟩
        obtain ⟨s, hs, rfl⟩ := SessionMemory.newWithReplayLimit_memory hnew
        have hsound := sound_new
          (SessionMemory.inputDelayTicks_ne_zero hcon) hs
        exact ⟨0, some s.memory, rfl, ⟨s, rfl, hsound, .new hs⟩, False.elim⟩
  · exact safe_return _

lemma safe_advance : Safe (· ≠ 0) stasisRealtimeAdvance := by
  refine SafeMethod.onSession (fun s hsound hrange => ?_) _
  by_cases hlimit : s.currentTick ≥ guestMaxTick
  · exact ⟨-4, s, bind_run rfl (congrFun (if_pos hlimit) _), hsound, hrange, fun _ => rfl⟩
  have htick := SessionMemory.advanceTickInner_memory hsound.toTracked hsound.recentNext_lt
  cases hadv : s.advanceTickInner with
  | error error =>
    cases error
    rw [hadv] at htick
    refine ⟨-3, s, bind_run rfl ?_, hsound, hrange, fun _ => rfl⟩
    rw [if_neg hlimit]
    exact bind_of_ok htick
  | ok result =>
    rw [hadv] at htick
    refine ⟨0, result.1, bind_run rfl ?_, hsound.advanceTick hadv, hrange.advanceTick hlimit hadv,
      fun hcode => absurd rfl hcode⟩
    rw [if_neg hlimit]
    exact bind_of_ok htick

lemma safe_recordHash (tick hashLow hashHigh : Int32) :
    Safe (fun _ => False) (stasisRealtimeRecordHash tick hashLow hashHigh) := by
  unfold stasisRealtimeRecordHash
  split_ifs
  · exact safe_return _
  refine SafeMethod.onSession (fun s hsound hrange => ?_) _
  have hrec := SessionMemory.recordAuthoritativeHash_memory (s := s) (u64 tick)
    (realtimeGuestHash hashLow hashHigh)
  rcases hres : s.recordAuthoritativeHash (u64 tick) (realtimeGuestHash hashLow hashHigh) with _ | _
  · rw [hres] at hrec
    exact ⟨-1, s, bind_of_ok hrec, hsound, hrange, False.elim⟩
  have hsound' := hsound.step (.recordAuthoritativeHash (u64 tick)
    (realtimeGuestHash hashLow hashHigh))
  simp only [step, hres] at hsound'
  rw [hres] at hrec
  obtain ⟨replay, -, rfl⟩ := map_ok_iff.mp hres
  exact ⟨0, _, bind_of_ok hrec, hsound', ⟨hrange.tick_le, hrange.epoch_le⟩, False.elim⟩

lemma epochAtLimit_memory (s : RealtimeSession) (seat : ℕ) :
    epochAtLimit seat s.memory =
      .ok (decide (seat < s.seats ∧ s.epochs.at seat 0 ≥ guestMaxEpoch)) s.memory := by
  refine bind_run (epoch_memory s seat) ?_
  split_ifs with hseat
  · simp [hseat]
  · simp [hseat]

lemma safeMethod_answer (result : RealtimeSession → Except LifecycleError RealtimeSession)
    (hsound : s.Sound) (hrange : InRange s)
    (hmem : lifecycle s.memory = SessionMemory.answer s (result s))
    (hok : ∀ s', result s = .ok s' → s'.Sound ∧ InRange s') : ∃ code s',
      (do return lifecycleCode (← lifecycle) : Method Int32) s.memory = .ok code s'.memory ∧
        s'.Sound ∧ InRange s' ∧ (code ≠ 0 → s' = s) := by
  cases hres : result s <;> rw [hres] at hmem
  · exact ⟨-3, s, bind_of_ok hmem, hsound, hrange, fun _ => rfl⟩
  · obtain ⟨hsound', hrange'⟩ := hok _ hres
    exact ⟨0, _, bind_of_ok hmem, hsound', hrange', fun hcode => absurd rfl hcode⟩

lemma safe_seatLifecycle {active : Bool} {reason : ℕ → ResetReason}
    (hlif : ∀ seat, lifecycle seat = SessionMemory.lifecycleEpoch seat active (reason seat))
    (seat : Int32) : Safe (· ≠ 0) (seatLifecycle lifecycle seat) := by
  unfold seatLifecycle
  rcases usize? seat with _ | seat
  · exact safe_return _
  refine SafeMethod.onSession (fun s hsound hrange => ?_) _
  by_cases hlimit : seat < s.seats ∧ s.epochs.at seat 0 ≥ guestMaxEpoch
  · refine ⟨-4, s, ?_, hsound, hrange, fun _ => rfl⟩
    refine bind_run (epochAtLimit_memory s seat) ?_
    rw [if_pos (decide_eq_true hlimit)]
    rfl
  · have hmem : lifecycle seat s.memory =
        SessionMemory.answer s (s.lifecycleEpoch seat active (reason seat)) := by
      rw [hlif]
      exact SessionMemory.lifecycleEpoch_memory _ _ _
    obtain ⟨code, s', hrun, hrest⟩ := safeMethod_answer
      (fun s => s.lifecycleEpoch seat active (reason seat)) hsound hrange hmem
      fun s' hs' => ⟨hsound.lifecycleEpoch hs',
        hrange.lifecycleEpoch (fun hseat hge => hlimit ⟨hseat, hge⟩) hs'⟩
    refine ⟨code, s', ?_, hrest⟩
    refine bind_run (epochAtLimit_memory s seat) ?_
    rw [if_neg (by simpa using hlimit)]
    exact hrun

lemma anyEpochAtLimit_memory (s : RealtimeSession) (seats : List ℕ) :
    anyEpochAtLimit seats s.memory =
      .ok (seats.any fun seat => seat < s.seats ∧ s.epochs.at seat 0 ≥ guestMaxEpoch) s.memory := by
  induction seats with
  | nil => rfl
  | cons seat seats ih =>
    refine bind_run (epochAtLimit_memory s seat) ?_
    by_cases hlimit : seat < s.seats ∧ s.epochs.at seat 0 ≥ guestMaxEpoch
    · rw [if_pos (decide_eq_true hlimit), any_cons, decide_eq_true hlimit]
      rfl
    · rw [if_neg (by simpa using hlimit), any_cons, decide_eq_false hlimit]
      exact ih

lemma safe_resetLifecycle (reason : ResetReason) :
    Safe (· ≠ 0) (resetLifecycle (SessionMemory.resetAll reason)) := by
  refine SafeMethod.onSession (fun s hsound hrange => ?_) _
  have hany := anyEpochAtLimit_memory s (range s.seats)
  cases hlimit : (range s.seats).any fun seat =>
      seat < s.seats ∧ s.epochs.at seat 0 ≥ guestMaxEpoch <;> rw [hlimit] at hany
  case true =>
    refine ⟨-4, s, ?_, hsound, hrange, fun _ => rfl⟩
    exact (bind_of_ok rfl).trans (bind_of_ok hany)
  case false =>
    have hbelow : ∀ seat < s.seats, ¬ s.epochs.at seat 0 ≥ guestMaxEpoch := by
      intro seat hseat hge
      have hnone := any_eq_false.mp hlimit seat (mem_range.mpr hseat)
      exact hnone (decide_eq_true ⟨hseat, hge⟩)
    obtain ⟨code, s', hrun, hrest⟩ := safeMethod_answer (fun s => s.resetAll reason)
      hsound hrange (SessionMemory.resetAll_memory reason)
      fun s' hs' => ⟨hsound.resetAll hs', hrange.resetAll hbelow hs'⟩
    refine ⟨code, s', ?_, hrest⟩
    exact (bind_of_ok rfl).trans ((bind_of_ok hany).trans hrun)

lemma safe_applySnapshot (revision tick seatCount : Int32)
    (buttons axisX axisY sequences epochs active : Pointer) :
    Safe (· ≠ 0) (stasisRealtimeApplySnapshot revision tick seatCount buttons axisX axisY
      sequences epochs active) := by
  unfold stasisRealtimeApplySnapshot
  split_ifs
  · exact safe_return _
  split
  · refine SafeMethod.onSession (fun s hsound hrange => ?_) _
    by_cases hcount : seatCount.toInt.toNat ≠ s.seats
    · exact ⟨-1, s, bind_run rfl (congrFun (if_pos hcount) _), hsound, hrange, fun _ => rfl⟩
    rename_i buttons axisX axisY sequences epochs active
    cases hseats : (range seatCount.toInt.toNat).mapM
        (SnapshotArrays.seat ⟨buttons, axisX, axisY, sequences, epochs, active⟩) with
    | none =>
      refine ⟨-1, s, bind_run rfl ?_, hsound, hrange, fun _ => rfl⟩
      rw [if_neg hcount, hseats]
      rfl
    | some seats =>
      have hmem := SessionMemory.applyAuthoritativeSnapshot_memory (s := s)
        (guestSnapshot revision tick seats)
      cases hres : s.applyAuthoritativeSnapshot (guestSnapshot revision tick seats) with
      | error error =>
        rw [hres] at hmem
        refine ⟨-1, s, bind_run rfl ?_, hsound, hrange, fun _ => rfl⟩
        rw [if_neg hcount, hseats]
        exact bind_of_ok hmem
      | ok s' =>
        rw [hres] at hmem
        refine ⟨0, s', bind_run rfl ?_, hsound.applyAuthoritativeSnapshot hres,
          .applyAuthoritativeSnapshot (u64_le_guestMaxTick tick)
            (guestSnapshot_epoch_le hseats revision tick) hres,
          fun hcode => absurd rfl hcode⟩
        rw [if_neg hcount, hseats]
        exact bind_of_ok hmem
  · exact safe_return _

def Call.raises : Call → Bool
  | .advance | .disconnect _ | .reconnect _ | .pause | .focusLost | .rematch
  | .applySnapshot .. => true
  | _ => false

lemma safe_perform (call : Call) :
    Safe (fun code => call.raises = true ∧ code ≠ 0) (perform call) := by
  have hrai {f : Abi Int32} (h : Safe (· ≠ 0) f) : Safe (fun code => true = true ∧ code ≠ 0) f := by
    intro slot hslot
    obtain ⟨code, slot', hrun, hvalid, hkeep⟩ := h slot hslot
    exact ⟨code, slot', hrun, hvalid, fun hcode => hkeep hcode.2⟩
  have hother {f : Abi Int32} (h : Safe (fun _ => False) f) :
      Safe (fun code => false = true ∧ code ≠ 0) f := by
    intro slot hslot
    obtain ⟨code, slot', hrun, hvalid, -⟩ := h slot hslot
    exact ⟨code, slot', hrun, hvalid, fun hcode => nomatch hcode.1⟩
  cases call with
  | start => exact hother (safe_start _ _ _ _ _)
  | stop => exact hother fun slot _ => ⟨0, none, rfl, trivial, False.elim⟩
  | submitPayload => exact hother (safe_submitPayload _ _)
  | submitPayloadBytes => exact hother (safe_submitRealtimePayloadBytes _)
  | buildPayload => exact safe_return _
  | schedule => exact hother (safe_schedule _ _ _ _ _ _ _)
  | advance => exact hrai safe_advance
  | recordHash => exact hother (safe_recordHash _ _ _)
  | disconnect seat | reconnect seat => exact hrai (safe_seatLifecycle (fun _ => rfl) seat)
  | pause | focusLost | rematch => exact hrai (safe_resetLifecycle _)
  | currentTick => exact (safe_readers _).1
  | currentEpoch seat => exact (safe_readers _).2.1 seat
  | resyncRequired => exact (safe_readers _).2.2
  | readControl seat outputs => exact safe_readControl _ seat outputs
  | applySnapshot => exact hrai (safe_applySnapshot _ _ _ _ _ _ _ _ _)

lemma valid_performAll (h : Valid slot) (calls : List Call) :
    ∃ slot', performAll calls slot = .ok () slot' ∧ Valid slot' := by
  induction calls generalizing slot with
  | nil => exact ⟨slot, rfl, h⟩
  | cons call calls ih =>
    obtain ⟨code, slot', hrun, hvalid, -⟩ := safe_perform call slot h
    obtain ⟨slot'', hrest, hvalid'⟩ := ih hvalid
    exact ⟨slot'', bind_run hrun hrest, hvalid'⟩

def namesSeat (slot : Slot) (seat : Int32) : Prop :=
  ∃ m, slot = some m ∧ 0 ≤ seat.toInt ∧ seat.toInt < m.seats

lemma currentTick_eq_neg_one_iff (h : Valid slot) : ∃ code,
    stasisRealtimeCurrentTick slot = .ok code slot ∧ (code = -1 ↔ slot = none) := by
  cases slot with
  | none => exact ⟨-1, rfl, by simp⟩
  | some m =>
    obtain ⟨s, rfl, -, hrange⟩ := h
    obtain ⟨code, hrun, htoInt⟩ := currentTick_memory hrange
    refine ⟨code, hrun, iff_of_false ?_ (by simp)⟩
    rintro rfl
    have hneg : (-1 : Int32).toInt = -1 := rfl
    omega

lemma currentEpoch_eq_neg_one_iff (h : Valid slot) (seat : Int32) : ∃ code,
    stasisRealtimeCurrentEpoch seat slot = .ok code slot ∧ (code = -1 ↔ ¬ namesSeat slot seat) := by
  cases slot with
  | none =>
    refine ⟨-1, ?_, iff_of_true rfl ?_⟩
    · unfold stasisRealtimeCurrentEpoch
      cases usize? seat with
      | none => rfl
      | some seat => rfl
    · rintro ⟨m, hm, -⟩
      cases hm
  | some m =>
    obtain ⟨s, rfl, -, hrange⟩ := h
    by_cases hseat : 0 ≤ seat.toInt ∧ seat.toInt.toNat < s.seats
    · obtain ⟨code, hrun, htoInt⟩ := currentEpoch_memory hrange hseat.1 hseat.2
      refine ⟨code, hrun, iff_of_false ?_ (not_not.mpr ⟨_, rfl, hseat.1, ?_⟩)⟩
      · rintro rfl
        have hneg : (-1 : Int32).toInt = -1 := rfl
        omega
      · change seat.toInt < (s.seats : ℤ)
        omega
    · refine ⟨-1, currentEpoch_of_invalid hseat, iff_of_true rfl ?_⟩
      rintro ⟨m, hm, hpos, hlt⟩
      cases hm
      change seat.toInt < (s.seats : ℤ) at hlt
      exact hseat ⟨hpos, by omega⟩

lemma submitRealtimePayloadBytes_of_exceedsGuest
    (hdec : ControlEnvelope.decode bytes = .ok envelope)
    (hexceeds : envelope.transitions.any exceedsGuest = true) (slot : Slot) :
    submitRealtimePayloadBytes bytes slot = .ok (-1) slot := by
  unfold submitRealtimePayloadBytes
  rw [hdec]
  dsimp only
  rw [if_pos hexceeds, ite_self]
  rfl

/-- In every process ticks and epochs stay in the range of a guest: the readers fail for
missing sessions and seats only, and what is refused at the limit changes nothing. -/
theorem native_realtime_stays_in_range (calls : List Call) : ∃ slot,
    performAll calls none = .ok () slot ∧
      (∀ m, slot = some m → m.currentTick.toNat < 2 ^ 31 ∧
        ∀ epoch ∈ m.epochs, epoch.toNat < 2 ^ 31) ∧
      (∃ code, stasisRealtimeCurrentTick slot = .ok code slot ∧ (code = -1 ↔ slot = none)) ∧
      (∀ seat, ∃ code, stasisRealtimeCurrentEpoch seat slot = .ok code slot ∧
        (code = -1 ↔ ¬ namesSeat slot seat)) ∧
      (∀ call, call.raises = true → ∃ code slot', perform call slot = .ok code slot' ∧
        (code ≠ 0 → slot' = slot)) ∧
      ∀ bytes envelope, ControlEnvelope.decode bytes = .ok envelope →
        envelope.transitions.any exceedsGuest = true →
          perform (.submitPayloadBytes bytes) slot = .ok (-1) slot := by
  have hnone : Valid none := trivial
  obtain ⟨slot, hrun, hvalid⟩ := valid_performAll hnone calls
  refine ⟨slot, hrun, ?_, currentTick_eq_neg_one_iff hvalid, currentEpoch_eq_neg_one_iff hvalid, ?_,
    fun bytes envelope hdecode hexceeds =>
      submitRealtimePayloadBytes_of_exceedsGuest hdecode hexceeds slot⟩
  · rintro m rfl
    obtain ⟨s, rfl, -, hrange⟩ := hvalid
    refine ⟨Nat.lt_succ_of_le (UInt64.le_iff_toNat_le.mp hrange.tick_le), fun epoch hepoch => ?_⟩
    obtain ⟨seat, hseat, rfl⟩ := Vector.mem_iff_getElem.mp hepoch
    have hget : s.epochs[seat]? = some (s.epochs.at seat 0) :=
      SessionMemory.getElem?_of_at hseat rfl
    rw [Vector.getElem?_eq_getElem hseat, Option.some.injEq] at hget
    rw [hget]
    exact Nat.lt_succ_of_le (UInt32.le_iff_toNat_le.mp (hrange.epoch_le seat hseat))
  · intro call hcall
    obtain ⟨code, slot', hperform, -, hkeep⟩ := safe_perform call slot hvalid
    exact ⟨code, slot', hperform, fun hcode => hkeep ⟨hcall, hcode⟩⟩

end NativeAbi
end Stasis.Realtime
