import Stasis.Realtime.Session

namespace Stasis.Realtime

inductive ReplayEvent
  | reset (reason : ResetReason)
  | snapshot (snapshot : AuthoritativeSnapshot)
  | quarantine (seat : UInt8) (epoch sequence : UInt32)
deriving DecidableEq

inductive ReplayError
  | incomplete
  | invalidSetup
  | admission (index : ℕ) (outcome : AdmissionOutcome)
  | tickMismatch (index : ℕ) (tick : UInt64)
  | tickExhausted (index : ℕ)
  | missingHash (index : ℕ) (tick : UInt64)
  | hashMismatch (index : ℕ) (tick expected observed : UInt64)
deriving DecidableEq

def RealtimeSession.applyReset (s : RealtimeSession) (reason : ResetReason) :
    Except ReplayError RealtimeSession :=
  match reason with
  | .disconnect seat => (s.lifecycleEpoch seat.toNat false reason).mapError fun _ => .invalidSetup
  | .reconnect seat => (s.lifecycleEpoch seat.toNat true reason).mapError fun _ => .invalidSetup
  | .pause | .focusLost | .rematch => (s.resetAll reason).mapError fun _ => .invalidSetup

section Replay

variable {ε η : Type} (event : ε → ReplayEvent → ε)
  (hash : η → UInt64 → SeatArray ControlState → UInt64 × η)

/-- One record of the replay loop.  The two callbacks are `FnMut`s, so their captured state is
threaded along. -/
def replayRecord (index : ℕ) (record : ReplayRecord) :
    RealtimeSession × ε × η → Except ReplayError (RealtimeSession × ε × η)
  | (session, e, h) =>
    match record with
    | .scheduled t =>
      match session.submitTransition t with
      | (session, .accepted) | (session, .acceptedReordered) => .ok (session, e, h)
      | (_, outcome) => .error (.admission index outcome)
    | .tick tick controls authoritativeHash =>
      match session.advanceTick with
      | .error _ => .error (.tickExhausted index)
      | .ok (session, advance) =>
        if advance.tick ≠ tick ∨ advance.controls ≠ controls then .error (.tickMismatch index tick)
        else
          match authoritativeHash with
          | none => .error (.missingHash index tick)
          | some expected =>
            let (observed, h) := hash h tick controls
            if observed ≠ expected then .error (.hashMismatch index tick expected observed)
            else .ok (session, e, h)
    | .reset reason =>
      (session.applyReset reason).map fun session => (session, event e (.reset reason), h)
    | .snapshot snapshot => .ok (session.applySnapshot snapshot, event e (.snapshot snapshot), h)
    | .quarantine seat epoch sequence =>
      match session.quarantineIdentity ⟨seat, epoch, sequence⟩ with
      | (session, true) => .ok (session, event e (.quarantine seat epoch sequence), h)
      | (_, false) => .error .invalidSetup

def replayRecords : ℕ → List ReplayRecord → RealtimeSession × ε × η →
    Except ReplayError (RealtimeSession × ε × η)
  | _, [], state => .ok state
  | index, record :: records, state =>
    (replayRecord event hash index record state).bind (replayRecords (index + 1) records)

/-- The callbacks' final states come back with the `Ok(())` of the source. -/
def ReplayLog.replayWithEvents (log : ReplayLog) (config : RealtimeConfig) (seats : ℕ) (e : ε)
    (h : η) : Except ReplayError (ε × η) :=
  if log.complete = false then .error .incomplete
  else
    match RealtimeSession.new config seats with
    | .error _ => .error .invalidSetup
    | .ok session => (replayRecords event hash 0 log.records (session, e, h)).map (·.2)

end Replay

inductive Op
  | submitTransition (t : ScheduledTransition)
  | submitEnvelope (e : ControlEnvelope)
  | submitPayload (payload : List UInt8)
  | advanceTick
  | recordAuthoritativeHash (tick hash : UInt64)
  | disconnect (seat : ℕ)
  | reconnect (seat : ℕ)
  | pause
  | focusLost
  | rematch
  | applyAuthoritativeSnapshot (snapshot : AuthoritativeSnapshot)

/-- What a failed operation leaves behind is the session it was called on. -/
def keepOnError {E : Type} (s : RealtimeSession) : Except E RealtimeSession → RealtimeSession
  | .ok s' => s'
  | .error _ => s

lemma keepOnError_of {E : Type} {P : RealtimeSession → Prop} {result : Except E RealtimeSession}
    (h : P s) (hres : ∀ s', result = .ok s' → P s') :
    P (keepOnError s result) := by
  cases result with
  | error e => exact h
  | ok s' => exact hres s' rfl

def RealtimeSession.step (s : RealtimeSession) : Op → RealtimeSession
  | .submitTransition t => (s.submitTransition t).1
  | .submitEnvelope e => (s.submitEnvelope e).1
  | .submitPayload payload => (s.submitPayload payload).1
  | .advanceTick => keepOnError s (s.advanceTick.map (·.1))
  | .recordAuthoritativeHash tick hash => keepOnError s (s.recordAuthoritativeHash tick hash)
  | .disconnect seat => keepOnError s (s.disconnect seat)
  | .reconnect seat => keepOnError s (s.reconnect seat)
  | .pause => keepOnError s s.pause
  | .focusLost => keepOnError s s.focusLost
  | .rematch => keepOnError s s.rematch
  | .applyAuthoritativeSnapshot snapshot => keepOnError s (s.applyAuthoritativeSnapshot snapshot)

def RealtimeSession.run (s : RealtimeSession) (ops : List Op) : RealtimeSession :=
  ops.foldl step s

end Stasis.Realtime
