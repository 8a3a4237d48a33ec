import Stasis.Lib.SlotTable
import Stasis.Realtime.Envelope
import Mathlib.Data.List.Sort

namespace Stasis.Realtime

inductive AdmissionOutcome
  | accepted
  | acceptedReordered
  | inactive
  | duplicate
  | stale
  | conflict
  | late
  | tooFar
  | resyncRequired
  | malformed
  | full
deriving DecidableEq

inductive ResetReason
  | disconnect (seat : UInt8)
  | reconnect (seat : UInt8)
  | pause
  | focusLost
  | rematch
deriving DecidableEq

inductive LifecycleError
  | invalidSeat
  | invalidReplayLimit
  | epochExhausted
deriving DecidableEq

inductive SnapshotError
  | revisionRegression
  | tickOutOfRange
  | tickRegression
  | epochRegression
  | epochExhausted
  | sequenceRegression
  | inactiveSeatState (seat : ℕ)
  | tokenTooLarge
deriving DecidableEq

inductive TickError
  | exhausted
deriving DecidableEq

inductive HashRecordError
  | noUnfinishedTick
  | wrongTick (expected received : UInt64)
  | alreadyRecorded
deriving DecidableEq

abbrev SeatArray (α : Type) := Vector α maxSeats

/-- An index past the array panics in Rust; every seat number a session keeps is below its seat
count, so the fallback is never read. -/
def SeatArray.at {α : Type} (v : SeatArray α) (seat : ℕ) (fallback : α) : α :=
  v.toList.getD seat fallback

def SeatArray.put {α : Type} (v : SeatArray α) (seat : ℕ) (a : α) : SeatArray α :=
  v.setIfInBounds seat a

def SeatArray.fillBelow {α : Type} (v : SeatArray α) (seats : ℕ) (a : α) : SeatArray α :=
  v.mapIdx fun seat x => if seat < seats then a else x

structure AuthoritativeSnapshot where
  revision : UInt64
  tick : UInt64
  controls : SeatArray ControlState
  sequences : SeatArray UInt32
  epochs : SeatArray UInt32
  active : SeatArray Bool
  gameToken : Vector UInt8 maxSnapshotTokenBytes
  gameTokenLen : UInt8
deriving DecidableEq

inductive ReplayRecord
  | scheduled (t : ScheduledTransition)
  | tick (tick : UInt64) (controls : SeatArray ControlState) (authoritativeHash : Option UInt64)
  | reset (reason : ResetReason)
  | snapshot (snapshot : AuthoritativeSnapshot)
  | quarantine (seat : UInt8) (epoch sequence : UInt32)
deriving DecidableEq

structure ReplayLog where
  records : List ReplayRecord
  limit : ℕ
  complete : Bool
deriving DecidableEq

namespace ReplayLog

def withLimit (limit : ℕ) : Except LifecycleError ReplayLog :=
  if limit = 0 ∨ limit > maxReplayRecords then .error .invalidReplayLimit
  else .ok ⟨[], limit, true⟩

/-- The flag tells whether the record fitted; every caller drops it. -/
def push (log : ReplayLog) (record : ReplayRecord) : ReplayLog × Bool :=
  if log.records.length = log.limit then ({ log with complete := false }, false)
  else ({ log with records := log.records ++ [record] }, true)

def recordHash (log : ReplayLog) (tick hash : UInt64) : Except HashRecordError ReplayLog :=
  match log.records.getLast? with
  | some (.tick latestTick controls authoritativeHash) =>
    if latestTick ≠ tick then .error (.wrongTick latestTick tick)
    else if authoritativeHash.isSome then .error .alreadyRecorded
    else .ok { log with
      records := log.records.dropLast ++ [.tick latestTick controls (some hash)] }
  | _ => .error .noUnfinishedTick

end ReplayLog

structure Identity where
  seat : UInt8
  epoch : UInt32
  sequence : UInt32
deriving DecidableEq

def ScheduledTransition.identity (t : ScheduledTransition) : Identity :=
  ⟨t.seat, t.epoch, t.sequence⟩

structure QuarantineTable where
  identities : List Identity
  bounded : identities.length ≤ maxPendingTransitions
deriving DecidableEq

namespace QuarantineTable

def empty : QuarantineTable := ⟨[], Nat.zero_le _⟩

def count (q : QuarantineTable) : ℕ := q.identities.length

def push (q : QuarantineTable) (i : Identity) (h : q.count < maxPendingTransitions) :
    QuarantineTable :=
  ⟨q.identities ++ [i], by rw [List.length_append, List.length_singleton]; exact h⟩

def retain (q : QuarantineTable) (keep : Identity → Bool) : QuarantineTable :=
  ⟨q.identities.filter keep, (List.length_filter_le _ _).trans q.bounded⟩

end QuarantineTable

abbrev PendingTable := SlotTable ScheduledTransition maxPendingTransitions
abbrev RecentRing := Vector (Option ScheduledTransition) maxPendingTransitions

def RecentRing.forgetSeat (ring : RecentRing) (seat : ℕ) : RecentRing :=
  ring.map fun entry => if entry.any fun t => t.seat.toNat == seat then none else entry

structure RealtimeSession where
  config : RealtimeConfig
  seats : ℕ
  currentTick : UInt64
  snapshotRevision : UInt64
  controls : SeatArray ControlState
  epochs : SeatArray UInt32
  active : SeatArray Bool
  highestAppliedSequence : SeatArray UInt32
  highestSequence : SeatArray UInt32
  quarantined : QuarantineTable
  resyncRequired : Bool
  pending : PendingTable
  recent : RecentRing
  recentNext : ℕ
  replay : ReplayLog
  seats_le : seats ≤ maxSeats
deriving DecidableEq

namespace RealtimeSession

def newWithReplayLimit (config : RealtimeConfig) (seats replayLimit : ℕ) :
    Except LifecycleError RealtimeSession :=
  if h : seats = 0 ∨ seats > maxSeats then .error .invalidSeat
  else (ReplayLog.withLimit replayLimit).map fun replay =>
    { config, seats, replay
      currentTick := 0
      snapshotRevision := 0
      controls := Vector.replicate _ .neutral
      epochs := Vector.replicate _ 1
      active := SeatArray.fillBelow (Vector.replicate _ false) seats true
      highestAppliedSequence := Vector.replicate _ 0
      highestSequence := Vector.replicate _ 0
      quarantined := .empty
      resyncRequired := false
      pending := .empty _ _
      recent := Vector.replicate _ none
      recentNext := 0
      seats_le := by omega }

def new (config : RealtimeConfig) (seats : ℕ) : Except LifecycleError RealtimeSession :=
  newWithReplayLimit config seats defaultReplayRecords

def saturatingAdd (a b : UInt64) : UInt64 :=
  if a.toNat + b.toNat < UInt64.size then a + b else .ofNat (UInt64.size - 1)

def earliestApplyTick (s : RealtimeSession) : UInt64 :=
  saturatingAdd s.currentTick s.config.inputDelayTicks.toUInt64

def latestApplyTick (s : RealtimeSession) : UInt64 := saturatingAdd s.currentTick maxFutureTicks

def log (s : RealtimeSession) (record : ReplayRecord) : RealtimeSession :=
  { s with replay := (s.replay.push record).1 }

def removePendingSequence (s : RealtimeSession) (i : Identity) : RealtimeSession :=
  { s with pending := s.pending.removeWhere fun t => t.identity == i }

/-- The pending entry goes whether or not the identity finds room in the quarantine table. -/
def quarantineIdentity (s : RealtimeSession) (i : Identity) : RealtimeSession × Bool :=
  let s := s.removePendingSequence i
  if i ∈ s.quarantined.identities then (s, true)
  else if h : s.quarantined.count < maxPendingTransitions then
    ({ s with quarantined := s.quarantined.push i h }, true)
  else (s, false)

/-- The identity checks of `submit_transition` that precede every table lookup. -/
def preflight (s : RealtimeSession) (t : ScheduledTransition) : Option AdmissionOutcome :=
  if (validateTransition t).isOk = false ∨ t.seat.toNat ≥ s.seats then some .malformed
  else if s.resyncRequired then some .resyncRequired
  else if s.active.at t.seat.toNat false = false then some .inactive
  else if t.epoch ≠ s.epochs.at t.seat.toNat 0 then some .stale
  else if t.applyTick < s.earliestApplyTick then some .late
  else if t.applyTick > s.latestApplyTick then some .tooFar
  else if t.identity ∈ s.quarantined.identities then some .conflict
  else none

/-- What `submit_transition` answers to a sequence number still in the recent ring. -/
def recentOutcome (s : RealtimeSession) (existing t : ScheduledTransition) : AdmissionOutcome :=
  if sameIdentity existing t ∧ existing = t then .duplicate
  else if t.applyTick ≤ s.currentTick then .late
  else .stale

def schedule (s : RealtimeSession) (t : ScheduledTransition)
    (h : s.pending.count < maxPendingTransitions) : RealtimeSession × AdmissionOutcome :=
  let seat := t.seat.toNat
  let highest := s.highestSequence.at seat 0
  let s' := { s with
    pending := s.pending.insert t h
    highestSequence := s.highestSequence.put seat (max highest t.sequence) }
  (s'.log (.scheduled t), if t.sequence < highest then .acceptedReordered else .accepted)

def submitTransition (s : RealtimeSession) (t : ScheduledTransition) :
    RealtimeSession × AdmissionOutcome :=
  match s.preflight t with
  | some outcome => (s, outcome)
  | none =>
    match s.pending.occupants.find? (sameSequence · t) with
    | some existing =>
      if sameIdentity existing t ∧ existing = t then (s, .duplicate)
      else
        match s.quarantineIdentity t.identity with
        | (s, false) => ({ s with resyncRequired := true }, .resyncRequired)
        | (s, true) => (s.log (.quarantine t.seat t.epoch t.sequence), .conflict)
    | none =>
      match (s.recent.toList.filterMap id).find? (sameSequence · t) with
      | some existing => (s, s.recentOutcome existing t)
      | none =>
        if t.sequence ≤ s.highestAppliedSequence.at t.seat.toNat 0 then (s, .stale)
        else if s.quarantined.count = maxPendingTransitions then
          ({ s with resyncRequired := true }, .resyncRequired)
        else if h : s.pending.count < maxPendingTransitions then s.schedule t h
        else (s, .full)

/-- `submit_envelope` and `submit_payload` return their outcomes as a list of the used count. -/
def submitEnvelope (s : RealtimeSession) (e : ControlEnvelope) :
    RealtimeSession × List AdmissionOutcome :=
  e.transitions.foldl (fun (s, report) t =>
    let (s, outcome) := s.submitTransition t
    (s, report ++ [outcome])) (s, [])

def submitPayload (s : RealtimeSession) (payload : List UInt8) :
    RealtimeSession × List AdmissionOutcome :=
  match ControlEnvelope.decode payload with
  | .ok envelope => s.submitEnvelope envelope
  | .error _ => (s, [.malformed])

structure TickAdvance where
  tick : UInt64
  configuredSeats : ℕ
  controls : SeatArray ControlState
  applied : List ScheduledTransition
deriving DecidableEq

def compactQuarantine (s : RealtimeSession) (seat : ℕ) : RealtimeSession :=
  let floor := s.highestAppliedSequence.at seat 0
  let epoch := s.epochs.at seat 0
  { s with quarantined := s.quarantined.retain fun i =>
      !(i.seat.toNat == seat && i.epoch == epoch && i.sequence ≤ floor) }

/-- The order of `sort_by_key` on `(seat, sequence, apply_tick)`. -/
def dueBefore (l r : ℕ × ScheduledTransition) : Prop :=
  l.2.seat < r.2.seat ∨ l.2.seat = r.2.seat ∧
    (l.2.sequence < r.2.sequence ∨ l.2.sequence = r.2.sequence ∧ l.2.applyTick ≤ r.2.applyTick)

instance : DecidableRel dueBefore := fun _ _ => inferInstanceAs (Decidable (_ ∨ _))

/-- The due slots with their occupants, in application order. -/
def due (s : RealtimeSession) (tick : UInt64) : List (ℕ × ScheduledTransition) :=
  (s.pending.slots.zipIdx.filterMap fun (slot, index) =>
    slot.bind fun t => if t.applyTick = tick then some (index, t) else none).insertionSort dueBefore

def applyDue (s : RealtimeSession) (entry : ℕ × ScheduledTransition) : RealtimeSession :=
  let (index, t) := entry
  let seat := t.seat.toNat
  let s := { s with
    pending := s.pending.take index
    controls := s.controls.put seat t.state
    highestAppliedSequence := s.highestAppliedSequence.put seat
      (max (s.highestAppliedSequence.at seat 0) t.sequence) }
  let s := s.compactQuarantine seat
  { s with
    recent := s.recent.setIfInBounds s.recentNext (some t)
    recentNext := (s.recentNext + 1) % maxPendingTransitions }

def checkedSucc (n : UInt64) : Option UInt64 :=
  if n.toNat + 1 < UInt64.size then some (n + 1) else none

/-- The session after moving to `tick`, before the tick is logged. -/
def applyTick (s : RealtimeSession) (tick : UInt64) : RealtimeSession :=
  (s.due tick).foldl applyDue { s with currentTick := tick }

def advanceTickInner (s : RealtimeSession) : Except TickError (RealtimeSession × TickAdvance) :=
  match checkedSucc s.currentTick with
  | none => .error .exhausted
  | some tick =>
    let applied := s.due tick
    let s := s.applyTick tick
    let advance : TickAdvance :=
      { tick := s.currentTick, configuredSeats := s.seats, controls := s.controls
        applied := applied.map (·.2) }
    .ok (s.log (.tick advance.tick advance.controls none), advance)

def advanceTick (s : RealtimeSession) : Except TickError (RealtimeSession × TickAdvance) :=
  s.advanceTickInner

def recordAuthoritativeHash (s : RealtimeSession) (tick hash : UInt64) :
    Except HashRecordError RealtimeSession :=
  (s.replay.recordHash tick hash).map fun replay => { s with replay }

def nextEpoch (s : RealtimeSession) (seat : ℕ) : Except LifecycleError UInt32 :=
  let epoch := s.epochs.at seat 0
  if epoch.toNat + 1 < UInt32.size then .ok (epoch + 1) else .error .epochExhausted

def lifecycleEpoch (s : RealtimeSession) (seat : ℕ) (active : Bool) (reason : ResetReason) :
    Except LifecycleError RealtimeSession :=
  if seat ≥ s.seats then .error .invalidSeat
  else (s.nextEpoch seat).map fun nextEpoch =>
    let s := { s with
      epochs := s.epochs.put seat nextEpoch
      active := s.active.put seat active
      controls := s.controls.put seat .neutral
      pending := s.pending.removeWhere fun t => t.seat.toNat == seat
      highestSequence := s.highestSequence.put seat 0
      highestAppliedSequence := s.highestAppliedSequence.put seat 0
      recent := s.recent.forgetSeat seat
      quarantined := s.quarantined.retain fun i => i.seat.toNat != seat }
    s.log (.reset reason)

def disconnect (s : RealtimeSession) (seat : ℕ) : Except LifecycleError RealtimeSession :=
  s.lifecycleEpoch seat false (.disconnect (.ofNat seat))

def reconnect (s : RealtimeSession) (seat : ℕ) : Except LifecycleError RealtimeSession :=
  s.lifecycleEpoch seat true (.reconnect (.ofNat seat))

/-- The epochs of all configured seats advance together, or none does. -/
def nextEpochs (s : RealtimeSession) : Except LifecycleError (SeatArray UInt32) :=
  (List.range s.seats).foldlM (fun epochs seat =>
    (s.nextEpoch seat).map fun next => SeatArray.put epochs seat next) s.epochs

def resetAll (s : RealtimeSession) (reason : ResetReason) :
    Except LifecycleError RealtimeSession :=
  s.nextEpochs.map fun epochs =>
    let s := { s with
      epochs
      currentTick := if reason = ResetReason.rematch then 0 else s.currentTick
      active := if reason = ResetReason.rematch then s.active.fillBelow s.seats true else s.active
      controls := Vector.replicate _ .neutral
      pending := .empty _ _
      highestSequence := s.highestSequence.fillBelow s.seats 0
      highestAppliedSequence := s.highestAppliedSequence.fillBelow s.seats 0
      quarantined := .empty
      resyncRequired := false
      recent := Vector.replicate _ none
      recentNext := 0 }
    s.log (.reset reason)

def pause (s : RealtimeSession) : Except LifecycleError RealtimeSession := s.resetAll .pause
def focusLost (s : RealtimeSession) : Except LifecycleError RealtimeSession := s.resetAll .focusLost
def rematch (s : RealtimeSession) : Except LifecycleError RealtimeSession := s.resetAll .rematch

def applySnapshot (s : RealtimeSession) (snapshot : AuthoritativeSnapshot) : RealtimeSession :=
  { s with
    snapshotRevision := snapshot.revision
    currentTick := snapshot.tick
    controls := snapshot.controls
    highestAppliedSequence := snapshot.sequences
    highestSequence := snapshot.sequences
    epochs := snapshot.epochs
    active := snapshot.active
    pending := .empty _ _
    recent := Vector.replicate _ none
    recentNext := 0
    quarantined := .empty
    resyncRequired := false }

/-- The first loop of the snapshot validation: a seat without a player carries no state. -/
def snapshotSeatError (s : RealtimeSession) (snapshot : AuthoritativeSnapshot) (seat : ℕ) :
    Option SnapshotError :=
  let active := snapshot.active.at seat false
  if (seat ≥ s.seats ∨ active = false) ∧
      (snapshot.controls.at seat .neutral ≠ .neutral ∨ snapshot.sequences.at seat 0 ≠ 0 ∨ active)
  then some (.inactiveSeatState seat) else none

/-- The second loop: epochs, ticks and sequence floors never move backwards. -/
def snapshotEpochError (s : RealtimeSession) (snapshot : AuthoritativeSnapshot) (seat : ℕ) :
    Option SnapshotError :=
  let epoch := snapshot.epochs.at seat 0
  let current := s.epochs.at seat 0
  if epoch.toNat = UInt32.size - 1 then some .epochExhausted
  else if epoch < current then some .epochRegression
  else if epoch = current ∧ snapshot.tick < s.currentTick then some .tickRegression
  else if epoch = current ∧ snapshot.sequences.at seat 0 < s.highestSequence.at seat 0 then
    some .sequenceRegression
  else none

def applyAuthoritativeSnapshot (s : RealtimeSession) (snapshot : AuthoritativeSnapshot) :
    Except SnapshotError RealtimeSession :=
  if snapshot.revision = 0 ∨ snapshot.revision ≤ s.snapshotRevision then .error .revisionRegression
  else if snapshot.tick.toNat > UInt64.size - 1 - maxFutureTicks.toNat then .error .tickOutOfRange
  else
    match (List.range maxSeats).findSome? (s.snapshotSeatError snapshot) with
    | some error => .error error
    | none =>
      if snapshot.gameTokenLen.toNat > maxSnapshotTokenBytes then .error .tokenTooLarge
      else
        match (List.range s.seats).findSome? (s.snapshotEpochError snapshot) with
        | some error => .error error
        | none => .ok ((s.applySnapshot snapshot).log (.snapshot snapshot))

end RealtimeSession
end Stasis.Realtime
