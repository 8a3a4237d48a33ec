import Mathlib
import Stasis.Lib.Threads

namespace Stasis.Network

abbrev Payload := List UInt8

def maxSeats : ℕ := 8
def maxMessageBytes : ℕ := 64 * 1024
def maxBufferedPayload : ℕ := 1024 * 1024
def maxEventRecords : ℕ := 256

def writerCapacity : ℕ := 32

/-- `fetch_sub` of an `AtomicUsize`, which wraps around below zero. -/
def wrappingSub (a b : ℕ) : ℕ := if b ≤ a then a - b else a + 2 ^ 64 - b

namespace Host

inductive EventKind
  | connected
  | httpRequest
  | message
  | disconnected
  | rejected
  | overflow
  deriving DecidableEq, Repr

structure NetworkEvent where
  kind : EventKind
  connection : ℕ
  payload : Payload
  deriving DecidableEq, Repr

inductive HostCommand
  | send (connection : ℕ) (payload : Payload)
  | stop
  deriving DecidableEq, Repr

structure ResumeRecord where
  credential : List UInt8
  handle : ℕ
  active : Bool
  deriving DecidableEq, Repr

structure HostLimits where
  maxConnections : ℕ
  maxBufferedBytes : ℕ
  connections : 0 < maxConnections ∧ maxConnections ≤ maxSeats
  buffered : maxMessageBytes ≤ maxBufferedBytes ∧ maxBufferedBytes ≤ maxBufferedPayload

/-- A connection's channel to its writer, until the receiver is dropped. -/
structure WriterQueue where
  queue : List Payload
  receiver : Bool
  deriving DecidableEq, Repr

structure Shared where
  stopped : Bool
  nextConnection : ℕ
  activeConnections : ℕ
  bufferedBytes : ℕ
  overflowCount : ℕ
  commands : List HostCommand
  /-- The listener still holds the receiver of the commands. -/
  listening : Bool
  events : List NetworkEvent
  /-- The queue, by its place in `queues`, that is registered for a handle. -/
  writers : List (ℕ × ℕ)
  queues : List WriterQueue
  resumeCredentials : List ResumeRecord
  deriving DecidableEq, Repr

def Shared.initial : Shared where
  stopped := false
  nextConnection := 1
  activeConnections := 0
  bufferedBytes := 0
  overflowCount := 0
  commands := []
  listening := true
  events := []
  writers := []
  queues := []
  resumeCredentials := []

inductive Reservation
  | publish (event : NetworkEvent)
  | send (connection : ℕ) (payload : Payload)
  deriving DecidableEq, Repr

def Reservation.amount : Reservation → ℕ
  | .publish event => event.payload.length
  | .send _ payload => payload.length

inductive BufferOp
  /-- `reserve`, at the load of its loop. -/
  | reserve (purpose : Reservation)
  | exchange (current : ℕ) (purpose : Reservation)
  | release (amount : ℕ)
  | countOverflow
  /-- The event of `note_overflow`, which may find the queue full. -/
  | offerOverflow (connection : ℕ)
  | sendEvent (event : NetworkEvent)
  deriving DecidableEq, Repr

inductive CallOp
  | sendCommand (connection : ℕ) (payload : Payload)
  | poll
  | stop
  | sendStop
  deriving DecidableEq, Repr

inductive ListenerOp
  | receive
  | lookup (connection : ℕ) (payload : Payload)
  /-- The sender of a writer queue has been cloned and is about to be used. -/
  | deliver (queue connection : ℕ) (payload : Payload)
  | accept
  | startConnection
  | cancelConnection
  | checkStopped
  | joinWorkers
  | dropCommands
  deriving DecidableEq, Repr

inductive ConnectionOp
  | handshake (id : ℕ)
  | claim (id : ℕ) (credential : List UInt8)
  | register (handle : ℕ) (peer : Payload)
  | serve (handle queue : ℕ)
  | write (handle queue : ℕ)
  | read (handle queue : ℕ)
  | unregister (handle queue : ℕ)
  | drain (handle queue : ℕ)
  | releaseResume (handle : ℕ)
  | dropWriter (queue : ℕ)
  | finish
  deriving DecidableEq, Repr

inductive Op
  | buffer (op : BufferOp)
  | call (op : CallOp)
  | listener (op : ListenerOp)
  | connection (op : ConnectionOp)
  deriving DecidableEq, Repr

inductive Choice
  | none
  -- of `listener.accept` and the start of a thread
  | incoming
  | wouldBlock
  | failed
  -- of a request
  | closed
  | rejected
  | served (path : Payload)
  | upgrade (credential : List UInt8)
  | upgraded (peer : Payload)
  -- of a socket
  | written
  | message (payload : Payload)
  | idle
  deriving DecidableEq, Repr

abbrev releasePayload (payload : Payload) : Op := .buffer (.release payload.length)

def noteOverflow (connection : ℕ) : List Op :=
  [.buffer .countOverflow, .buffer (.offerOverflow connection)]

def publish (event : NetworkEvent) : List Op :=
  if event.payload.length > 0 then [.buffer (.reserve (.publish event))]
  else [.buffer (.sendEvent event)]

def reject (connection : ℕ) : List Op := publish ⟨.rejected, connection, []⟩

namespace Reservation

def granted : Reservation → List Op
  | .publish event => [.buffer (.sendEvent event)]
  | .send connection payload => [.call (.sendCommand connection payload)]

def refused : Reservation → List Op
  | .publish event => noteOverflow event.connection
  | .send _ _ => []

end Reservation

/-- `fetch_add(1)` of the connection counter, an `AtomicU32`. -/
def Shared.takeConnection (s : Shared) : ℕ × Shared :=
  (s.nextConnection, { s with nextConnection := (s.nextConnection + 1) % 2 ^ 32 })

def Shared.claimResume (s : Shared) (credential : List UInt8) : Option (ℕ × Shared) :=
  match s.resumeCredentials.find? (·.credential = credential) with
  | some record =>
    if record.active then none
    else some (record.handle, { s with
      resumeCredentials := s.resumeCredentials.map fun r =>
        if r.credential = credential then { r with active := true } else r })
  | none =>
    if s.resumeCredentials.length ≥ maxSeats then none
    else
      -- zero is not a handle
      let (handle, s) := if s.nextConnection = 0 then s.takeConnection.2.takeConnection
        else s.takeConnection
      some (handle, { s with
        resumeCredentials := s.resumeCredentials ++ [⟨credential, handle, true⟩] })

def Shared.releaseResume (s : Shared) (handle : ℕ) : Shared :=
  match s.resumeCredentials.findIdx? (·.handle = handle) with
  | some i =>
    { s with resumeCredentials := s.resumeCredentials.modify i ({ · with active := false }) }
  | none => s

def Shared.queue (s : Shared) (queue : ℕ) : List Payload :=
  ((s.queues[queue]?).map WriterQueue.queue).getD []

def Shared.setQueue (s : Shared) (queue : ℕ) (payloads : List Payload) : Shared :=
  { s with queues := s.queues.modify queue ({ · with queue := payloads }) }

def payloadBytes (payloads : List Payload) : ℕ := (payloads.map List.length).sum

def HostCommand.payload : HostCommand → Payload
  | .send _ payload => payload
  | .stop => []

def commandBytes (commands : List HostCommand) : ℕ :=
  payloadBytes (commands.map HostCommand.payload)

def eventBytes (events : List NetworkEvent) : ℕ := payloadBytes (events.map NetworkEvent.payload)

def queueBytes (queues : List WriterQueue) : ℕ := (queues.map (payloadBytes ·.queue)).sum

/-- The payload held in the command queue, the writers' queues and the event queue. -/
def Shared.held (s : Shared) : ℕ :=
  commandBytes s.commands + queueBytes s.queues + eventBytes s.events

/-- The event of an operation is the number of payload bytes that it drops with a queue. -/
abbrev OpEffect := Effect Shared (List Op) ℕ

def BufferOp.exec (limits : HostLimits) (s : Shared) : BufferOp → OpEffect
  | .reserve purpose =>
    if purpose.amount > limits.maxBufferedBytes - s.bufferedBytes then
      { shared := s, thread := purpose.refused }
    else
      { shared := s, thread := [.buffer (.exchange s.bufferedBytes purpose)] }
  | .exchange current purpose =>
    if s.bufferedBytes = current then
      { shared := { s with bufferedBytes := current + purpose.amount }, thread := purpose.granted }
    else
      { shared := s, thread := [.buffer (.reserve purpose)] }
  | .release amount =>
    { shared := { s with bufferedBytes := wrappingSub s.bufferedBytes amount }, thread := [] }
  | .countOverflow => { shared := { s with overflowCount := s.overflowCount + 1 }, thread := [] }
  | .offerOverflow connection =>
    if s.events.length < maxEventRecords then
      { shared := { s with events := s.events ++ [⟨.overflow, connection, []⟩] }, thread := [] }
    else
      { shared := s, thread := [] }
  | .sendEvent event =>
    if s.events.length < maxEventRecords then
      { shared := { s with events := s.events ++ [event] }, thread := [] }
    else
      { shared := s, thread := [.buffer .countOverflow, releasePayload event.payload] }

def CallOp.exec (s : Shared) : CallOp → OpEffect
  | .sendCommand connection payload =>
    if !s.listening then
      { shared := s, thread := [releasePayload payload] }
    else if s.commands.length < maxEventRecords then
      { shared := { s with commands := s.commands ++ [.send connection payload] }, thread := [] }
    else
      { shared := s, thread := releasePayload payload :: noteOverflow connection }
  | .poll =>
    match s.events with
    | [] => { shared := s, thread := [] }
    | event :: events => { shared := { s with events }, thread := [releasePayload event.payload] }
  | .stop =>
    if s.stopped then { shared := s, thread := [] }
    else { shared := { s with stopped := true }, thread := [.call .sendStop] }
  | .sendStop =>
    if s.listening ∧ s.commands.length < maxEventRecords then
      { shared := { s with commands := s.commands ++ [.stop] }, thread := [] }
    else
      { shared := s, thread := [] }

def ListenerOp.exec (limits : HostLimits) (s : Shared) (choice : Choice) :
    ListenerOp → Option OpEffect
  | .receive =>
    match s.commands with
    | [] => some { shared := s, thread := [.listener .accept] }
    | .send connection payload :: commands =>
      some { shared := { s with commands },
             thread := [.listener (.lookup connection payload), .listener .accept] }
    | .stop :: commands =>
      some { shared := { s with commands }, thread := [.listener .joinWorkers] }
  | .lookup connection payload =>
    match s.writers.lookup connection with
    | some queue => some { shared := s, thread := [.listener (.deliver queue connection payload)] }
    | none => some { shared := s, thread := releasePayload payload :: reject connection }
  | .deliver queue connection payload =>
    match s.queues[queue]? with
    | some ⟨payloads, true⟩ =>
      if payloads.length < writerCapacity then
        some { shared := s.setQueue queue (payloads ++ [payload]), thread := [] }
      else
        some { shared := s, thread := releasePayload payload :: noteOverflow connection }
    | _ => some { shared := s, thread := releasePayload payload :: reject connection }
  | .accept =>
    match choice with
    | .incoming =>
      if s.activeConnections ≥ limits.maxConnections then
        some { shared := s, thread := noteOverflow 0 ++ [.listener .receive] }
      else
        some { shared := s, thread := [.listener .startConnection] }
    | .wouldBlock => some { shared := s, thread := [.listener .checkStopped] }
    | .failed => some { shared := s, thread := [.listener .joinWorkers] }
    | _ => none
  | .startConnection =>
    let (id, s) := { s with activeConnections := s.activeConnections + 1 }.takeConnection
    match choice with
    | .incoming =>
      some { shared := s, thread := [.listener .checkStopped],
             spawned := [[.connection (.handshake id)]] }
    | .failed =>
      some { shared := s, thread := [.listener .cancelConnection, .listener .checkStopped] }
    | _ => none
  | .cancelConnection =>
    some { shared := { s with activeConnections := wrappingSub s.activeConnections 1 },
           thread := [] }
  | .checkStopped =>
    some { shared := s, thread := [.listener (if s.stopped then .joinWorkers else .receive)] }
  | .joinWorkers =>
    -- the threads of all connections have come to their `finish`
    if s.activeConnections = 0 then some { shared := s, thread := [.listener .dropCommands] }
    else none
  | .dropCommands =>
    some { shared := { s with commands := [], listening := false }, thread := [],
           event := some (commandBytes s.commands) }

def ConnectionOp.exec (s : Shared) (choice : Choice) : ConnectionOp → Option OpEffect
  | .handshake id =>
    match choice with
    | .closed => some { shared := s, thread := [.connection .finish] }
    | .rejected => some { shared := s, thread := reject id ++ [.connection .finish] }
    | .served path =>
      some { shared := s, thread := publish ⟨.httpRequest, id, path⟩ ++ [.connection .finish] }
    | .upgrade credential => some { shared := s, thread := [.connection (.claim id credential)] }
    | _ => none
  | .claim id credential =>
    match s.claimResume credential, choice with
    | none, _ => some { shared := s, thread := reject id ++ [.connection .finish] }
    | some (handle, s), .upgraded peer =>
      some { shared := s, thread := [.connection (.register handle peer), .connection .finish] }
    | some (handle, s), .failed =>
      some { shared := s, thread := .connection (.releaseResume handle) :: reject id ++
               [.connection .finish] }
    | _, _ => none
  | .register handle peer =>
    let queue := s.queues.length
    some { shared := { s with
             queues := s.queues ++ [⟨[], true⟩]
             writers := (handle, queue) :: s.writers.filter (·.1 ≠ handle) },
           thread := publish ⟨.connected, handle, peer⟩ ++ [.connection (.serve handle queue)] }
  | .serve handle queue =>
    some { shared := s, thread :=
             [.connection (if s.stopped then .unregister handle queue else .write handle queue)] }
  | .write handle queue =>
    match s.queue queue, choice with
    | [], _ => some { shared := s, thread := [.connection (.read handle queue)] }
    | payload :: payloads, .written =>
      some { shared := s.setQueue queue payloads,
             thread := [releasePayload payload, .connection (.write handle queue)] }
    | payload :: payloads, .failed =>
      some { shared := s.setQueue queue payloads,
             thread := [releasePayload payload, .connection (.read handle queue)] }
    | _, _ => none
  | .read handle queue =>
    match choice with
    | .message payload =>
      some { shared := s, thread := publish ⟨.message, handle, payload⟩ ++
               [.connection (.serve handle queue)] }
    | .idle => some { shared := s, thread := [.connection (.serve handle queue)] }
    | .closed => some { shared := s, thread := [.connection (.unregister handle queue)] }
    | _ => none
  | .unregister handle queue =>
    some { shared := { s with writers := s.writers.filter (·.1 ≠ handle) },
           thread := [.connection (.drain handle queue)] }
  | .drain handle queue =>
    match s.queue queue with
    | payload :: payloads =>
      some { shared := s.setQueue queue payloads,
             thread := [releasePayload payload, .connection (.drain handle queue)] }
    | [] =>
      some { shared := s, thread := publish ⟨.disconnected, handle, []⟩ ++
               [.connection (.releaseResume handle), .connection (.dropWriter queue)] }
  | .releaseResume handle => some { shared := s.releaseResume handle, thread := [] }
  | .dropWriter queue =>
    some { shared := { s with queues := s.queues.modify queue fun _ => ⟨[], false⟩ }, thread := [],
           event := some (payloadBytes (s.queue queue)) }
  | .finish =>
    some { shared := { s with activeConnections := wrappingSub s.activeConnections 1 },
           thread := [] }

def Op.exec (limits : HostLimits) (s : Shared) (choice : Choice) : Op → Option OpEffect
  | .buffer op => some (op.exec limits s)
  | .call op => some (op.exec s)
  | .listener op => op.exec limits s choice
  | .connection op => op.exec s choice

inductive HostCall
  | send (connection : ℕ) (payload : Payload)
  | poll
  | stop
  deriving DecidableEq, Repr

def HostCall.enter : HostCall → List Op
  | .send connection payload =>
    if payload.length > maxMessageBytes then []
    else [.buffer (.reserve (.send connection payload))]
  | .poll => [.call .poll]
  | .stop => [.call .stop]

def execThread (limits : HostLimits) (s : Shared) (thread : List Op) (choice : Choice) :
    Option OpEffect :=
  match thread with
  | [] => none
  | op :: rest =>
    (op.exec limits s choice).map fun effect => { effect with thread := effect.thread ++ rest }

def system (limits : HostLimits) : ThreadSystem Shared (List Op) Choice HostCall ℕ where
  exec := execThread limits
  enter := HostCall.enter

def start : Threads Shared (List Op) := ⟨.initial, [[.listener .receive]]⟩

end Host

end Stasis.Network
