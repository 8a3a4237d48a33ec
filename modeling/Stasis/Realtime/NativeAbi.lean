import Stasis.Realtime.Memory

namespace Stasis.Realtime
namespace NativeAbi

abbrev Slot := Option SessionMemory

abbrev Abi := EStateM Panic Slot

abbrev Pointer := Option (ℕ → Int32)

def guestMaxTick : UInt64 := 2147483647
def guestMaxEpoch : UInt32 := 2147483647

def u32? (a : Int32) : Option UInt32 := if 0 ≤ a.toInt then some (.ofNat a.toInt.toNat) else none

def usize? (a : Int32) : Option ℕ := if 0 ≤ a.toInt then some a.toInt.toNat else none

def u64 (a : Int32) : UInt64 := .ofNat a.toInt.toNat

def u16? (a : Int32) : Option UInt16 :=
  if 0 ≤ a.toInt ∧ a.toInt < 2 ^ 16 then some (.ofNat a.toInt.toNat) else none

def i8? (a : Int32) : Option Int8 :=
  if -128 ≤ a.toInt ∧ a.toInt ≤ 127 then some (.ofInt a.toInt) else none

def u8? (a : Int32) : Option UInt8 :=
  if 0 ≤ a.toInt ∧ a.toInt < 2 ^ 8 then some (.ofNat a.toInt.toNat) else none

def i32? (n : ℕ) : Option Int32 := if n < 2 ^ 31 then some (.ofNat n) else none

/-- A method of the session, with what is returned where there is none. -/
def onSession {α : Type} (missing : α) (method : Method α) : Abi α := fun slot =>
  match slot with
  | none => .ok missing none
  | some m =>
    match method m with
    | .ok code m' => .ok code (some m')
    | .error panic m' => .error panic (some m')

def epoch (seat : ℕ) : Method (Option UInt32) := do
  let m ← get
  if seat < m.seats then return some (← SessionMemory.readAt m.epochs seat) else return none

def control (seat : ℕ) : Method (Option ControlState) := do
  let m ← get
  if seat < m.seats then return some (← SessionMemory.readAt m.controls seat) else return none

def realtimeAdmissionCode : AdmissionOutcome → Int32
  | .accepted | .acceptedReordered => 0
  | .duplicate => 1
  | .inactive => -4
  | .resyncRequired => -5
  | .malformed => -1
  | .conflict => -6
  | .stale => -7
  | .late => -8
  | .tooFar => -9
  | .full => -10

def realtimeAdmissionPrecedence : AdmissionOutcome → ℕ
  | .resyncRequired => 100
  | .conflict => 90
  | .full => 80
  | .malformed => 70
  | .inactive => 60
  | .stale => 50
  | .late => 40
  | .tooFar => 30
  | .duplicate => 20
  | .acceptedReordered => 10
  | .accepted => 0

def maxByPrecedence (outcomes : List AdmissionOutcome) : Option AdmissionOutcome :=
  outcomes.foldl (fun best outcome =>
    if best.any fun best => realtimeAdmissionPrecedence outcome < realtimeAdmissionPrecedence best
    then best else some outcome) none

def realtimeNativeMaxPayload : ℕ := maxEnvelopeBytes

def exceedsGuest (t : ScheduledTransition) : Bool :=
  t.seat.toNat ≥ maxSeats || t.epoch > guestMaxEpoch || t.sequence.toNat > 2 ^ 31 - 1 ||
    t.applyTick > guestMaxTick

def submitRealtimePayloadBytes (bytes : List UInt8) : Abi Int32 :=
  if bytes.length > realtimeNativeMaxPayload then return -1
  else
    match ControlEnvelope.decode bytes with
    | .error _ => return -1
    | .ok envelope =>
      if envelope.transitions.any exceedsGuest then return -1
      else onSession (-3) do
        let report ← SessionMemory.submitEnvelope envelope
        return ((maxByPrecedence report).map realtimeAdmissionCode).getD 0

def stasisRealtimeSubmitPayload (payload : Pointer) (length : Int32) : Abi Int32 :=
  match payload, usize? length with
  | some values, some length =>
    if length > realtimeNativeMaxPayload then return -1
    else
      match (List.range length).mapM fun index => u8? (values index) with
      | none => return -1
      | some bytes => submitRealtimePayloadBytes bytes
  | _, _ => return -1

def stasisRealtimeBuildPayload (outPayload : Bool)
    (capacity seat epoch sequence applyTick buttons axisX axisY : Int32) : Int32 × List Int32 :=
  if outPayload = false ∨ capacity.toInt < 0 ∨ seat.toInt < 0 ∨ seat.toInt ≥ maxSeats ∨
      epoch.toInt ≤ 0 ∨ epoch.toInt > guestMaxEpoch.toNat ∨ sequence.toInt ≤ 0 ∨
      applyTick.toInt < 0 then (-1, [])
  else
    match u16? buttons, i8? axisX, i8? axisY with
    | some buttons, some axisX, some axisY =>
      match ControlEnvelope.new.push
          { seat := .ofNat seat.toInt.toNat
            epoch := .ofNat epoch.toInt.toNat
            sequence := .ofNat sequence.toInt.toNat
            applyTick := u64 applyTick
            state := ⟨buttons, axisX, axisY⟩ } with
      | .error _ => (-1, [])
      | .ok envelope =>
        let bytes := envelope.encode
        if capacity.toInt < bytes.length then (-11, [])
        else (.ofNat bytes.length, bytes.map fun byte => .ofNat byte.toNat)
    | _, _, _ => (-1, [])

def stasisRealtimeSchedule (seat epoch sequence applyTick buttons axisX axisY : Int32) :
    Abi Int32 :=
  if seat.toInt < 0 ∨ seat.toInt ≥ maxSeats ∨ epoch.toInt ≤ 0 ∨
      epoch.toInt > guestMaxEpoch.toNat ∨ sequence.toInt ≤ 0 ∨ applyTick.toInt < 0 then return -1
  else
    match u16? buttons, i8? axisX, i8? axisY with
    | some buttons, some axisX, some axisY => onSession (-3) do
      let outcome ← SessionMemory.submitTransition
        { seat := .ofNat seat.toInt.toNat
          epoch := .ofNat epoch.toInt.toNat
          sequence := .ofNat sequence.toInt.toNat
          applyTick := u64 applyTick
          state := ⟨buttons, axisX, axisY⟩ }
      return realtimeAdmissionCode outcome
    | _, _, _ => return -1

def stasisRealtimeStart (simulationHz presentationHz controlHz inputDelayTicks seats : Int32) :
    Abi Int32 :=
  match u32? simulationHz, u32? presentationHz, u32? controlHz, u32? inputDelayTicks,
    usize? seats with
  | some simulationHz, some presentationHz, some controlHz, some inputDelayTicks, some seats =>
    match RealtimeConfig.new simulationHz presentationHz controlHz inputDelayTicks with
    | .error _ => return -1
    | .ok config => do
      if (← get).isSome then return -3
      match SessionMemory.newWithReplayLimit config seats defaultReplayRecords with
      | .error _ => return -1
      | .ok session =>
        set (some session)
        return 0
  | _, _, _, _, _ => return -1

def stasisRealtimeStop : Abi Int32 := do
  set (none : Slot)
  return 0

def stasisRealtimeAdvance : Abi Int32 := onSession (-2) do
  if (← get).currentTick ≥ guestMaxTick then return -4
  match ← SessionMemory.advanceTick with
  | .ok _ => return 0
  | .error .exhausted => return -3

def realtimeGuestHash (hashLow hashHigh : Int32) : UInt64 :=
  hashLow.toUInt32.toUInt64 ||| (hashHigh.toUInt32.toUInt64 <<< 32)

def stasisRealtimeRecordHash (tick hashLow hashHigh : Int32) : Abi Int32 :=
  if tick.toInt < 0 then return -1
  else onSession (-3) do
    match ← SessionMemory.recordAuthoritativeHash (u64 tick)
      (realtimeGuestHash hashLow hashHigh) with
    | .ok _ => return 0
    | .error _ => return -1

def epochAtLimit (seat : ℕ) : Method Bool := do
  return (← epoch seat).any (· ≥ guestMaxEpoch)

def lifecycleCode : Except LifecycleError Unit → Int32
  | .ok _ => 0
  | .error _ => -3

def seatLifecycle (lifecycle : ℕ → Method (Except LifecycleError Unit)) (seat : Int32) :
    Abi Int32 :=
  match usize? seat with
  | none => return -3
  | some seat => onSession (-2) do
    if ← epochAtLimit seat then return -4
    return lifecycleCode (← lifecycle seat)

def stasisRealtimeDisconnect (seat : Int32) : Abi Int32 :=
  seatLifecycle SessionMemory.disconnect seat

def stasisRealtimeReconnect (seat : Int32) : Abi Int32 :=
  seatLifecycle SessionMemory.reconnect seat

/-- Whether the epoch of one of these seats cannot be raised. -/
def anyEpochAtLimit : List ℕ → Method Bool
  | [] => return false
  | seat :: seats => do if ← epochAtLimit seat then return true else anyEpochAtLimit seats

def resetLifecycle (lifecycle : Method (Except LifecycleError Unit)) : Abi Int32 :=
  onSession (-2) do
    if ← anyEpochAtLimit (List.range (← get).seats) then return -4
    return lifecycleCode (← lifecycle)

def stasisRealtimePause : Abi Int32 := resetLifecycle SessionMemory.pause
def stasisRealtimeFocusLost : Abi Int32 := resetLifecycle SessionMemory.focusLost
def stasisRealtimeRematch : Abi Int32 := resetLifecycle SessionMemory.rematch

def stasisRealtimeCurrentTick : Abi Int32 := onSession (-1) do
  return (i32? (← get).currentTick.toNat).getD (-1)

def stasisRealtimeCurrentEpoch (seat : Int32) : Abi Int32 :=
  match usize? seat with
  | none => return -1
  | some seat => onSession (-1) do
    return ((← epoch seat).bind fun epoch => i32? epoch.toNat).getD (-1)

def stasisRealtimeResyncRequired : Abi Int32 := onSession (-1) do
  return if (← get).resyncRequired then 1 else 0

structure ControlOutputs where
  buttons : Int32
  axisX : Int32
  axisY : Int32

def stasisRealtimeReadControl (seat : Int32) (outputs : Bool) :
    Abi (Int32 × Option ControlOutputs) :=
  if seat.toInt < 0 ∨ outputs = false then return (-1, none)
  else onSession (-3, none) do
    match ← control seat.toInt.toNat with
    | none => return (-3, none)
    | some control =>
      return (0, some ⟨.ofNat control.buttons.toNat, control.axisX.toInt32,
        control.axisY.toInt32⟩)

structure SnapshotArrays where
  buttons : ℕ → Int32
  axisX : ℕ → Int32
  axisY : ℕ → Int32
  sequences : ℕ → Int32
  epochs : ℕ → Int32
  active : ℕ → Int32

structure SnapshotSeat where
  state : ControlState
  sequence : UInt32
  epoch : UInt32
  active : Bool

def SnapshotArrays.seat (arrays : SnapshotArrays) (index : ℕ) : Option SnapshotSeat := do
  let button ← u16? (arrays.buttons index)
  let x ← i8? (arrays.axisX index)
  let y ← i8? (arrays.axisY index)
  let sequence ← u32? (arrays.sequences index)
  let epoch ← u32? (arrays.epochs index)
  let isActive := arrays.active index
  if sequence.toNat > 2 ^ 31 - 1 ∨ epoch > guestMaxEpoch ∨ ¬ (isActive = 0 ∨ isActive = 1) then none
  else some ⟨⟨button, x, y⟩, sequence, epoch, isActive ≠ 0⟩

/-- The snapshot of the seats that were read; the others are as in a new session. -/
def guestSnapshot (revision tick : Int32) (seats : List SnapshotSeat) : AuthoritativeSnapshot where
  revision := u64 revision
  tick := u64 tick
  controls := Vector.ofFn fun seat => (seats[seat]?.map SnapshotSeat.state).getD .neutral
  sequences := Vector.ofFn fun seat => (seats[seat]?.map SnapshotSeat.sequence).getD 0
  epochs := Vector.ofFn fun seat => (seats[seat]?.map SnapshotSeat.epoch).getD 1
  active := Vector.ofFn fun seat => (seats[seat]?.map SnapshotSeat.active).getD false
  gameToken := Vector.replicate _ 0
  gameTokenLen := 0

def stasisRealtimeApplySnapshot (revision tick seatCount : Int32)
    (buttons axisX axisY sequences epochs active : Pointer) : Abi Int32 :=
  if revision.toInt ≤ 0 ∨ tick.toInt < 0 ∨ seatCount.toInt ≤ 0 ∨ seatCount.toInt > maxSeats then
    return -1
  else
    match buttons, axisX, axisY, sequences, epochs, active with
    | some buttons, some axisX, some axisY, some sequences, some epochs, some active =>
      onSession (-3) do
        let seatCount := seatCount.toInt.toNat
        if seatCount ≠ (← get).seats then return -1
        let arrays : SnapshotArrays := ⟨buttons, axisX, axisY, sequences, epochs, active⟩
        match (List.range seatCount).mapM arrays.seat with
        | none => return -1
        | some seats =>
          match ← SessionMemory.applyAuthoritativeSnapshot (guestSnapshot revision tick seats) with
          | .ok _ => return 0
          | .error _ => return -1
    | _, _, _, _, _, _ => return -1

inductive Call
  | start (simulationHz presentationHz controlHz inputDelayTicks seats : Int32)
  | stop
  | submitPayload (payload : Pointer) (length : Int32)
  | submitPayloadBytes (bytes : List UInt8)
  | buildPayload (outPayload : Bool)
      (capacity seat epoch sequence applyTick buttons axisX axisY : Int32)
  | schedule (seat epoch sequence applyTick buttons axisX axisY : Int32)
  | advance
  | recordHash (tick hashLow hashHigh : Int32)
  | disconnect (seat : Int32)
  | reconnect (seat : Int32)
  | pause
  | focusLost
  | rematch
  | currentTick
  | currentEpoch (seat : Int32)
  | resyncRequired
  | readControl (seat : Int32) (outputs : Bool)
  | applySnapshot (revision tick seatCount : Int32)
      (buttons axisX axisY sequences epochs active : Pointer)

def perform : Call → Abi Int32
  | .start simulationHz presentationHz controlHz inputDelayTicks seats =>
    stasisRealtimeStart simulationHz presentationHz controlHz inputDelayTicks seats
  | .stop => stasisRealtimeStop
  | .submitPayload payload length => stasisRealtimeSubmitPayload payload length
  | .submitPayloadBytes bytes => submitRealtimePayloadBytes bytes
  | .buildPayload outPayload capacity seat epoch sequence applyTick buttons axisX axisY =>
    return (stasisRealtimeBuildPayload outPayload capacity seat epoch sequence applyTick buttons
      axisX axisY).1
  | .schedule seat epoch sequence applyTick buttons axisX axisY =>
    stasisRealtimeSchedule seat epoch sequence applyTick buttons axisX axisY
  | .advance => stasisRealtimeAdvance
  | .recordHash tick hashLow hashHigh => stasisRealtimeRecordHash tick hashLow hashHigh
  | .disconnect seat => stasisRealtimeDisconnect seat
  | .reconnect seat => stasisRealtimeReconnect seat
  | .pause => stasisRealtimePause
  | .focusLost => stasisRealtimeFocusLost
  | .rematch => stasisRealtimeRematch
  | .currentTick => stasisRealtimeCurrentTick
  | .currentEpoch seat => stasisRealtimeCurrentEpoch seat
  | .resyncRequired => stasisRealtimeResyncRequired
  | .readControl seat outputs => return (← stasisRealtimeReadControl seat outputs).1
  | .applySnapshot revision tick seatCount buttons axisX axisY sequences epochs active =>
    stasisRealtimeApplySnapshot revision tick seatCount buttons axisX axisY sequences epochs active

def performAll : List Call → Abi Unit
  | [] => return ()
  | call :: calls => do
    let _ ← perform call
    performAll calls

end NativeAbi
end Stasis.Realtime
