import Stasis.Lib.Effects
import Stasis.Realtime.Replay

namespace Stasis.Realtime

inductive Panic
  | expect (message : String)
  | indexOutOfBounds
  | subtractOverflow
deriving DecidableEq

structure SessionMemory where
  config : RealtimeConfig
  seats : ℕ
  currentTick : UInt64
  snapshotRevision : UInt64
  controls : SeatArray ControlState
  epochs : SeatArray UInt32
  active : SeatArray Bool
  highestAppliedSequence : SeatArray UInt32
  highestSequence : SeatArray UInt32
  quarantined : List Identity
  quarantinedCount : ℕ
  resyncRequired : Bool
  pending : List (Option ScheduledTransition)
  pendingCount : ℕ
  recent : RecentRing
  recentNext : ℕ
  replay : ReplayLog
deriving DecidableEq

abbrev Method := EStateM Panic SessionMemory

namespace SessionMemory

section Statements

variable {α : Type} {n : ℕ}

def expect (message : String) : Option α → Method α
  | some a => return a
  | none => throw (.expect message)

def readAt (v : Vector α n) (i : ℕ) : Method α :=
  match v[i]? with
  | some a => return a
  | none => throw .indexOutOfBounds

def writeAt (v : Vector α n) (i : ℕ) (a : α) : Method (Vector α n) :=
  if i < n then return v.setIfInBounds i a else throw .indexOutOfBounds

def readSlot (slots : List α) (i : ℕ) : Method α :=
  match slots[i]? with
  | some a => return a
  | none => throw .indexOutOfBounds

def writeSlot (slots : List α) (i : ℕ) (a : α) : Method (List α) :=
  if i < slots.length then return slots.set i a else throw .indexOutOfBounds

end Statements

def decrementPending : Method Unit := do
  let m ← get
  if m.pendingCount = 0 then throw .subtractOverflow
  set { m with pendingCount := m.pendingCount - 1 }

def pushReplay (record : ReplayRecord) : Method Unit :=
  modify fun m => { m with replay := (m.replay.push record).1 }

def noIdentity : Identity := ⟨0, 0, 0⟩

def newWithReplayLimit (config : RealtimeConfig) (seats replayLimit : ℕ) :
    Except LifecycleError SessionMemory :=
  if seats = 0 ∨ seats > maxSeats then .error .invalidSeat
  else (ReplayLog.withLimit replayLimit).map fun replay =>
    { config, seats, replay
      currentTick := 0
      snapshotRevision := 0
      controls := Vector.replicate _ .neutral
      epochs := Vector.replicate _ 1
      active := SeatArray.fillBelow (Vector.replicate _ false) seats true
      highestAppliedSequence := Vector.replicate _ 0
      highestSequence := Vector.replicate _ 0
      quarantined := List.replicate maxPendingTransitions noIdentity
      quarantinedCount := 0
      resyncRequired := false
      pending := List.replicate maxPendingTransitions none
      pendingCount := 0
      recent := Vector.replicate _ none
      recentNext := 0 }

def earliestApplyTick (m : SessionMemory) : UInt64 :=
  RealtimeSession.saturatingAdd m.currentTick m.config.inputDelayTicks.toUInt64

def latestApplyTick (m : SessionMemory) : UInt64 :=
  RealtimeSession.saturatingAdd m.currentTick maxFutureTicks

def quarantinedIdentities (m : SessionMemory) : List Identity :=
  m.quarantined.take m.quarantinedCount

/-- The body of the loops of `remove_pending_seat` and `remove_pending_sequence`. -/
def removeSlot (p : ScheduledTransition → Bool) (slot : ℕ) : Method Unit := do
  let m ← get
  if (← readSlot m.pending slot).any p then
    set { m with pending := ← writeSlot m.pending slot none }
    decrementPending

def removePending (p : ScheduledTransition → Bool) : Method Unit :=
  (List.range maxPendingTransitions).forM (removeSlot p)

def removePendingSeat (seat : ℕ) : Method Unit := removePending fun t => t.seat.toNat == seat

def removePendingSequence (i : Identity) : Method Unit := removePending fun t => t.identity == i

/-- The body of the loop that copies the entries to keep to the front of a fresh array. -/
def retainEntry (keep : Identity → Bool) (retained : List Identity × ℕ) (entry : Identity) :
    Method (List Identity × ℕ) := do
  if keep entry then return (← writeSlot retained.1 retained.2 entry, retained.2 + 1)
  else return retained

def retainQuarantined (keep : Identity → Bool) : Method Unit := do
  let m ← get
  let retained ← m.quarantinedIdentities.foldlM (retainEntry keep)
    (List.replicate maxPendingTransitions noIdentity, 0)
  set { m with quarantined := retained.1, quarantinedCount := retained.2 }

def quarantineIdentity (i : Identity) : Method Bool := do
  removePendingSequence i
  let m ← get
  if i ∈ m.quarantinedIdentities then return true
  else if m.quarantinedCount < maxPendingTransitions then
    set { m with
      quarantined := ← writeSlot m.quarantined m.quarantinedCount i
      quarantinedCount := m.quarantinedCount + 1 }
    return true
  else return false

def compactQuarantine (seat : ℕ) : Method Unit := do
  let m ← get
  let floor ← readAt m.highestAppliedSequence seat
  let epoch ← readAt m.epochs seat
  retainQuarantined fun i => !(i.seat.toNat == seat && i.epoch == epoch && i.sequence ≤ floor)

/-- The rest of `submit_transition` for an identity that nothing is known of. -/
def schedule (t : ScheduledTransition) : Method AdmissionOutcome := do
  let m ← get
  let seat := t.seat.toNat
  if t.sequence ≤ (← readAt m.highestAppliedSequence seat) then return .stale
  if m.quarantinedCount = maxPendingTransitions then
    set { m with resyncRequired := true }
    return .resyncRequired
  if m.pendingCount = maxPendingTransitions then return .full
  let highest ← readAt m.highestSequence seat
  let slot ← expect "pending_count and slots remain consistent" (m.pending.findIdx? Option.isNone)
  set { m with
    pending := ← writeSlot m.pending slot (some t)
    pendingCount := m.pendingCount + 1
    highestSequence := ← writeAt m.highestSequence seat (max highest t.sequence) }
  pushReplay (.scheduled t)
  return if t.sequence < highest then .acceptedReordered else .accepted

/-- The checks of `submit_transition` that precede every table lookup. -/
def preflight (t : ScheduledTransition) : Method (Option AdmissionOutcome) := do
  let m ← get
  if (validateTransition t).isOk = false ∨ t.seat.toNat ≥ m.seats then return some .malformed
  if m.resyncRequired then return some .resyncRequired
  let seat := t.seat.toNat
  if (← readAt m.active seat) = false then return some .inactive
  if t.epoch ≠ (← readAt m.epochs seat) then return some .stale
  if t.applyTick < m.earliestApplyTick then return some .late
  if t.applyTick > m.latestApplyTick then return some .tooFar
  if t.identity ∈ m.quarantinedIdentities then return some .conflict
  return none

/-- What `submit_transition` does about a pending transition of the same identity. -/
def meetPending (existing t : ScheduledTransition) : Method AdmissionOutcome := do
  if sameIdentity existing t ∧ existing = t then return .duplicate
  if (← quarantineIdentity t.identity) = false then
    modify fun m => { m with resyncRequired := true }
    return .resyncRequired
  pushReplay (.quarantine t.seat t.epoch t.sequence)
  return .conflict

def submitTransition (t : ScheduledTransition) : Method AdmissionOutcome := do
  match ← preflight t with
  | some outcome => return outcome
  | none =>
    let m ← get
    match (m.pending.filterMap id).find? (sameSequence · t) with
    | some existing => meetPending existing t
    | none =>
      match (m.recent.toList.filterMap id).find? (sameSequence · t) with
      | some existing =>
        if sameIdentity existing t ∧ existing = t then return .duplicate
        return if t.applyTick ≤ m.currentTick then .late else .stale
      | none => schedule t

def reportTransition (report : List AdmissionOutcome) (t : ScheduledTransition) :
    Method (List AdmissionOutcome) := do
  return report ++ [← submitTransition t]

def submitEnvelope (e : ControlEnvelope) : Method (List AdmissionOutcome) :=
  e.transitions.foldlM reportTransition []

def submitPayload (payload : List UInt8) : Method (List AdmissionOutcome) :=
  match ControlEnvelope.decode payload with
  | .ok envelope => submitEnvelope envelope
  | .error _ => return [.malformed]

def applySlot (slot : ℕ) : Method ScheduledTransition := do
  let m ← get
  let t ← expect "due index is populated" (← readSlot m.pending slot)
  set { m with pending := ← writeSlot m.pending slot none }
  decrementPending
  let seat := t.seat.toNat
  let m ← get
  set { m with controls := ← writeAt m.controls seat t.state }
  let m ← get
  let applied ← readAt m.highestAppliedSequence seat
  set { m with
    highestAppliedSequence := ← writeAt m.highestAppliedSequence seat (max applied t.sequence) }
  compactQuarantine seat
  let m ← get
  set { m with
    recent := ← writeAt m.recent m.recentNext (some t)
    recentNext := (m.recentNext + 1) % maxPendingTransitions }
  return t

def dueSlots (m : SessionMemory) : List ℕ :=
  (List.range maxPendingTransitions).filter fun slot =>
    (m.pending[slot]?.join).any fun t => t.applyTick = m.currentTick

/-- A due slot with the transition that its sort key is read from. -/
def keyedSlot (slot : ℕ) : Method (ℕ × ScheduledTransition) := do
  let m ← get
  return (slot, ← expect "due index is populated" (← readSlot m.pending slot))

def advanceTickInner : Method (Except TickError RealtimeSession.TickAdvance) := do
  let m ← get
  match RealtimeSession.checkedSucc m.currentTick with
  | none => return .error .exhausted
  | some tick =>
    set { m with currentTick := tick }
    let m ← get
    let keyed ← m.dueSlots.mapM keyedSlot
    let applied ← (keyed.insertionSort RealtimeSession.dueBefore).mapM fun entry =>
      applySlot entry.1
    let m ← get
    let advance : RealtimeSession.TickAdvance :=
      { tick := m.currentTick, configuredSeats := m.seats, controls := m.controls, applied }
    pushReplay (.tick advance.tick advance.controls none)
    return .ok advance

def advanceTick : Method (Except TickError RealtimeSession.TickAdvance) := advanceTickInner

def recordAuthoritativeHash (tick hash : UInt64) : Method (Except HashRecordError Unit) := do
  let m ← get
  match m.replay.recordHash tick hash with
  | .error error => return .error error
  | .ok replay =>
    set { m with replay }
    return .ok ()

def nextEpoch (seat : ℕ) : Method (Except LifecycleError UInt32) := do
  let epoch ← readAt (← get).epochs seat
  return if epoch.toNat + 1 < UInt32.size then .ok (epoch + 1) else .error .epochExhausted

def lifecycleEpoch (seat : ℕ) (active : Bool) (reason : ResetReason) :
    Method (Except LifecycleError Unit) := do
  if seat ≥ (← get).seats then return .error .invalidSeat
  match ← nextEpoch seat with
  | .error error => return .error error
  | .ok nextEpoch =>
    let m ← get
    set { m with
      epochs := ← writeAt m.epochs seat nextEpoch
      active := ← writeAt m.active seat active
      controls := ← writeAt m.controls seat .neutral }
    removePendingSeat seat
    let m ← get
    set { m with
      highestSequence := ← writeAt m.highestSequence seat 0
      highestAppliedSequence := ← writeAt m.highestAppliedSequence seat 0
      recent := m.recent.forgetSeat seat }
    retainQuarantined fun i => i.seat.toNat != seat
    pushReplay (.reset reason)
    return .ok ()

def disconnect (seat : ℕ) : Method (Except LifecycleError Unit) :=
  lifecycleEpoch seat false (.disconnect (.ofNat seat))

def reconnect (seat : ℕ) : Method (Except LifecycleError Unit) :=
  lifecycleEpoch seat true (.reconnect (.ofNat seat))

/-- The loop over the copy of the epochs; nothing is stored before all of them advance. -/
def nextEpochs : List ℕ → SeatArray UInt32 → Method (Except LifecycleError (SeatArray UInt32))
  | [], epochs => return .ok epochs
  | seat :: seats, epochs => do
    match ← nextEpoch seat with
    | .error error => return .error error
    | .ok next => nextEpochs seats (← writeAt epochs seat next)

def resetAll (reason : ResetReason) : Method (Except LifecycleError Unit) := do
  let m ← get
  match ← nextEpochs (List.range m.seats) m.epochs with
  | .error error => return .error error
  | .ok epochs =>
    set { m with epochs }
    if reason = .rematch then
      modify fun m => { m with currentTick := 0, active := m.active.fillBelow m.seats true }
    modify fun m => { m with
      controls := Vector.replicate _ .neutral
      pending := List.replicate maxPendingTransitions none
      pendingCount := 0
      highestSequence := m.highestSequence.fillBelow m.seats 0
      highestAppliedSequence := m.highestAppliedSequence.fillBelow m.seats 0
      quarantined := List.replicate maxPendingTransitions noIdentity
      quarantinedCount := 0
      resyncRequired := false
      recent := Vector.replicate _ none
      recentNext := 0 }
    pushReplay (.reset reason)
    return .ok ()

def pause : Method (Except LifecycleError Unit) := resetAll .pause
def focusLost : Method (Except LifecycleError Unit) := resetAll .focusLost
def rematch : Method (Except LifecycleError Unit) := resetAll .rematch

def applySnapshot (snapshot : AuthoritativeSnapshot) : Method Unit :=
  modify fun m => { m with
    snapshotRevision := snapshot.revision
    currentTick := snapshot.tick
    controls := snapshot.controls
    highestAppliedSequence := snapshot.sequences
    highestSequence := snapshot.sequences
    epochs := snapshot.epochs
    active := snapshot.active
    pending := List.replicate maxPendingTransitions none
    pendingCount := 0
    recent := Vector.replicate _ none
    recentNext := 0
    quarantined := List.replicate maxPendingTransitions noIdentity
    quarantinedCount := 0
    resyncRequired := false }

/-- The checks of one seat in the first loop of `apply_authoritative_snapshot`. -/
def snapshotSeatError (snapshot : AuthoritativeSnapshot) (seat : ℕ) :
    Method (Option SnapshotError) := do
  let m ← get
  let active ← readAt snapshot.active seat
  let controls ← readAt snapshot.controls seat
  let sequence ← readAt snapshot.sequences seat
  return if (seat ≥ m.seats ∨ active = false) ∧
      (controls ≠ .neutral ∨ sequence ≠ 0 ∨ active) then some (.inactiveSeatState seat) else none

def snapshotEpochError (snapshot : AuthoritativeSnapshot) (seat : ℕ) :
    Method (Option SnapshotError) := do
  let m ← get
  let epoch ← readAt snapshot.epochs seat
  if epoch.toNat = UInt32.size - 1 then return some .epochExhausted
  let current ← readAt m.epochs seat
  if epoch < current then return some .epochRegression
  if epoch = current ∧ snapshot.tick < m.currentTick then return some .tickRegression
  if epoch = current ∧
      (← readAt snapshot.sequences seat) < (← readAt m.highestSequence seat) then
    return some .sequenceRegression
  return none

def firstError (check : ℕ → Method (Option SnapshotError)) :
    List ℕ → Method (Option SnapshotError)
  | [] => return none
  | seat :: seats => do
    match ← check seat with
    | some error => return some error
    | none => firstError check seats

def applyAuthoritativeSnapshot (snapshot : AuthoritativeSnapshot) :
    Method (Except SnapshotError Unit) := do
  let m ← get
  if snapshot.revision = 0 ∨ snapshot.revision ≤ m.snapshotRevision then
    return .error .revisionRegression
  if snapshot.tick.toNat > UInt64.size - 1 - maxFutureTicks.toNat then
    return .error .tickOutOfRange
  match ← firstError (snapshotSeatError snapshot) (List.range maxSeats) with
  | some error => return .error error
  | none =>
    if snapshot.gameTokenLen.toNat > maxSnapshotTokenBytes then return .error .tokenTooLarge
    match ← firstError (snapshotEpochError snapshot) (List.range m.seats) with
    | some error => return .error error
    | none =>
      applySnapshot snapshot
      pushReplay (.snapshot snapshot)
      return .ok ()

inductive Response
  | outcomes (report : List AdmissionOutcome)
  | tick (result : Except TickError RealtimeSession.TickAdvance)
  | hash (result : Except HashRecordError Unit)
  | lifecycle (result : Except LifecycleError Unit)
  | snapshot (result : Except SnapshotError Unit)

def Response.isErr : Response → Bool
  | .outcomes _ => false
  | .tick result => !result.isOk
  | .hash result => !result.isOk
  | .lifecycle result => !result.isOk
  | .snapshot result => !result.isOk

def call : Op → Method Response
  | .submitTransition t => return .outcomes [← submitTransition t]
  | .submitEnvelope e => return .outcomes (← submitEnvelope e)
  | .submitPayload payload => return .outcomes (← submitPayload payload)
  | .advanceTick => return .tick (← advanceTick)
  | .recordAuthoritativeHash tick hash => return .hash (← recordAuthoritativeHash tick hash)
  | .disconnect seat => return .lifecycle (← disconnect seat)
  | .reconnect seat => return .lifecycle (← reconnect seat)
  | .pause => return .lifecycle (← pause)
  | .focusLost => return .lifecycle (← focusLost)
  | .rematch => return .lifecycle (← rematch)
  | .applyAuthoritativeSnapshot snapshot =>
    return .snapshot (← applyAuthoritativeSnapshot snapshot)

def run : List Op → Method Unit
  | [] => return ()
  | op :: ops => do
    let _ ← call op
    run ops

end SessionMemory

end Stasis.Realtime
