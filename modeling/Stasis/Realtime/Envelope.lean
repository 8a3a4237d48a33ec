import Stasis.Lib.BigEndian

namespace Stasis.Realtime

def maxSeats : ℕ := 8
def maxEnvelopeTransitions : ℕ := 16
def maxPendingTransitions : ℕ := 128
def defaultReplayRecords : ℕ := 65536
def maxReplayRecords : ℕ := 1000000
def maxDelayTicks : UInt32 := 240
def maxFutureTicks : UInt64 := 240
def maxSnapshotTokenBytes : ℕ := 64
def maxRateHz : UInt32 := 1000
def envelopeMagic : List UInt8 := [0x52, 0x54, 0x43, 0x31]
def envelopeVersion : ℕ := 1
def envelopeHeaderBytes : ℕ := 8
def transitionBytes : ℕ := 21
def maxEnvelopeBytes : ℕ := envelopeHeaderBytes + maxEnvelopeTransitions * transitionBytes

structure ControlState where
  buttons : UInt16
  axisX : Int8
  axisY : Int8
deriving DecidableEq

def ControlState.neutral : ControlState := ⟨0, 0, 0⟩

structure ScheduledTransition where
  seat : UInt8
  epoch : UInt32
  sequence : UInt32
  applyTick : UInt64
  state : ControlState
deriving DecidableEq

inductive ConfigError
  | zeroRate
  | rateTooHigh
  | delayZero
  | delayTooHigh
deriving DecidableEq

structure RealtimeConfig where
  simulationHz : UInt32
  presentationHz : UInt32
  controlHz : UInt32
  inputDelayTicks : UInt32
deriving DecidableEq

def RealtimeConfig.new (simulationHz presentationHz controlHz inputDelayTicks : UInt32) :
    Except ConfigError RealtimeConfig :=
  if simulationHz = 0 ∨ presentationHz = 0 ∨ controlHz = 0 then .error .zeroRate
  else if simulationHz > maxRateHz ∨ presentationHz > maxRateHz ∨ controlHz > maxRateHz then
    .error .rateTooHigh
  else if inputDelayTicks = 0 then .error .delayZero
  else if inputDelayTicks > maxDelayTicks then .error .delayTooHigh
  else .ok ⟨simulationHz, presentationHz, controlHz, inputDelayTicks⟩

inductive EnvelopeError
  | invalidTransition
  | full
  | duplicate
  | conflict
  | malformed
deriving DecidableEq

def validateTransition (t : ScheduledTransition) : Except EnvelopeError Unit :=
  if t.seat.toNat ≥ maxSeats ∨ t.epoch = 0 ∨ t.sequence = 0 then .error .invalidTransition
  else .ok ()

def sameSequence (l r : ScheduledTransition) : Bool :=
  l.seat == r.seat && l.epoch == r.epoch && l.sequence == r.sequence

def sameIdentity (l r : ScheduledTransition) : Bool :=
  l.seat == r.seat && l.epoch == r.epoch && l.sequence == r.sequence && l.applyTick == r.applyTick

structure ControlEnvelope where
  transitions : List ScheduledTransition
  bounded : transitions.length ≤ maxEnvelopeTransitions
deriving DecidableEq

namespace ControlEnvelope

def new : ControlEnvelope := ⟨[], Nat.zero_le _⟩

def push (e : ControlEnvelope) (t : ScheduledTransition) :
    Except EnvelopeError ControlEnvelope := do
  validateTransition t
  match e.transitions.find? (sameSequence · t) with
  | some existing =>
    if sameIdentity existing t ∧ existing = t then .error .duplicate else .error .conflict
  | none =>
    if h : e.transitions.length < maxEnvelopeTransitions then
      .ok ⟨e.transitions ++ [t], by rw [List.length_append, List.length_singleton]; omega⟩
    else .error .full

end ControlEnvelope

def encodeTransition (t : ScheduledTransition) : List UInt8 :=
  [t.seat] ++ beBytes 4 t.epoch.toNat ++ beBytes 4 t.sequence.toNat ++
    beBytes 8 t.applyTick.toNat ++ beBytes 2 t.state.buttons.toNat ++
    [t.state.axisX.toUInt8, t.state.axisY.toUInt8]

def slice (bytes : List UInt8) (start stop : ℕ) : List UInt8 :=
  (bytes.drop start).take (stop - start)

def decodeTransition (bytes : List UInt8) : Except EnvelopeError ScheduledTransition :=
  if bytes.length ≠ transitionBytes then .error .malformed
  else
    let t : ScheduledTransition :=
      { seat := bytes.getD 0 0
        epoch := .ofNat (beValue (slice bytes 1 5))
        sequence := .ofNat (beValue (slice bytes 5 9))
        applyTick := .ofNat (beValue (slice bytes 9 17))
        state :=
          { buttons := .ofNat (beValue (slice bytes 17 19))
            axisX := (bytes.getD 19 0).toInt8
            axisY := (bytes.getD 20 0).toInt8 } }
    (validateTransition t).map fun _ => t

namespace ControlEnvelope

def encode (e : ControlEnvelope) : List UInt8 :=
  envelopeMagic ++ beBytes 2 envelopeVersion ++ [UInt8.ofNat e.transitions.length, 0] ++
    e.transitions.flatMap encodeTransition

def decode (bytes : List UInt8) : Except EnvelopeError ControlEnvelope :=
  if bytes.length < envelopeHeaderBytes ∨ bytes.length > maxEnvelopeBytes then .error .malformed
  else if bytes.take 4 ≠ envelopeMagic ∨ beValue (slice bytes 4 6) ≠ envelopeVersion ∨
      bytes.getD 7 0 ≠ 0 then .error .malformed
  else
    let count := (bytes.getD 6 0).toNat
    if count > maxEnvelopeTransitions ∨
        bytes.length ≠ envelopeHeaderBytes + count * transitionBytes then .error .malformed
    else
      (List.range count).foldlM (fun envelope index => do
        let start := envelopeHeaderBytes + index * transitionBytes
        envelope.push (← decodeTransition (slice bytes start (start + transitionBytes)))) new

end ControlEnvelope
end Stasis.Realtime
