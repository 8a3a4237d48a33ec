import Stasis.Network.Host

namespace Stasis.Network.Client

def statusDisconnected : ℤ := 0
def statusConnected : ℤ := 1
def statusConnecting : ℤ := 2
def transportError : ℤ := -2
def queueFull : ℤ := -3
def invalidCredential : ℤ := -4

inductive Signal
  | wake
  | disconnect
  | background (value : Bool)
  | shutdown
  deriving DecidableEq, Repr

inductive Command
  | signal (signal : Signal)
  | send (generation : ℕ) (payload : Payload)
  deriving DecidableEq, Repr

structure Shared where
  desired : Bool
  background : Bool
  acceptingIncoming : Bool
  status : ℤ
  error : ℤ
  outboundBytes : ℕ
  outboundRecords : ℕ
  /-- An `AtomicUsize` that starts at one. A `disconnect` or a move into the background adds
  one to it, so it wraps only after `2 ^ 64 - 1` of them; no run is that long. -/
  generation : ℕ
  incoming : List Payload
  incomingBytes : ℕ
  /-- The worker holds the lock of the incoming queue. -/
  incomingLocked : Bool
  commands : List Command
  /-- The worker still holds the receiver of the commands. -/
  running : Bool
  deriving DecidableEq, Repr

def Shared.initial : Shared where
  desired := false
  background := false
  acceptingIncoming := false
  status := statusDisconnected
  error := 0
  outboundBytes := 0
  outboundRecords := 0
  generation := 1
  incoming := []
  incomingBytes := 0
  incomingLocked := false
  commands := []
  running := true

structure Worker where
  /-- The generation that the open socket was opened under. -/
  socket : Option ℕ
  socketGeneration : ℕ
  pending : List (ℕ × Payload)
  deriving DecidableEq, Repr

def Worker.initial : Worker := ⟨none, 0, []⟩

inductive Event
  /-- `send` has put the payload into the command queue, under the generation it read. -/
  | accepted (generation : ℕ) (payload : Payload)
  /-- The payload, accepted under `generation`, is written to a socket. -/
  | written (socket generation : ℕ) (payload : Payload)
  | received (payload : Payload)
  | delivered (payload : Payload)
  /-- `disconnect`, or the way into the background, starts a new generation. -/
  | transition
  | cleared
  deriving DecidableEq, Repr

inductive Assignment
  | desired (value : Bool)
  | accepting (value : Bool)
  | status (value : ℤ)
  | error (value : ℤ)
  deriving DecidableEq, Repr

def Assignment.apply (s : Shared) : Assignment → Shared
  | .desired value => { s with desired := value }
  | .accepting value => { s with acceptingIncoming := value }
  | .status value => { s with status := value }
  | .error value => { s with error := value }

inductive Test
  | desired
  | background
  | accepting
  | connected
  | nonnegative
  | generation (expected : ℕ)
  deriving DecidableEq, Repr

def Test.holds (s : Shared) : Test → Bool
  | .desired => s.desired
  | .background => s.background
  | .accepting => s.acceptingIncoming
  | .connected => s.status = statusConnected
  | .nonnegative => s.status ≥ 0
  | .generation expected => s.generation = expected

inductive BranchOp
  -- `connect`, `set_background` and `send`
  | connectBackground
  | connectStatus
  | foreground
  | sendDesired (payload : Payload)
  | sendBackground (payload : Payload)
  -- `worker_loop` and `connection_lost`
  | activeDesired
  | activeBackground
  | settleStatus
  | confirmDesired (generation : ℕ)
  | confirmBackground (generation : ℕ)
  | lostDesired
  | lostBackground
  -- `flush_pending`
  | flushGeneration (socket generation : ℕ) (record : ℕ × Payload)
  | flushDesired (socket generation : ℕ) (record : ℕ × Payload)
  | flushBackground (socket generation : ℕ) (record : ℕ × Payload)
  -- `enqueue_incoming`, under the lock of the queue
  | incomingAccepting (generation : ℕ) (payload : Payload)
  | incomingDesired (generation : ℕ) (payload : Payload)
  | incomingBackground (generation : ℕ) (payload : Payload)
  | incomingGeneration (generation : ℕ) (payload : Payload)
  deriving DecidableEq, Repr

inductive SharedOp
  | assign (assignment : Assignment)
  | branch (op : BranchOp)
  | bumpGeneration (transition : Bool)
  | swapBackground (value : Bool)
  | clearIncoming
  | poll (capacity : ℕ)
  | sendSignal (signal : Signal)
  | lock (generation : ℕ) (payload : Payload)
  | push (generation : ℕ) (payload : Payload)
  | unlock
  deriving DecidableEq, Repr

/-- `reserve_outbound`, the rest of `send`, and `release_outbound`. -/
inductive OutboundOp
  | reserveRecord (payload : Payload)
  | loadBytes (payload : Payload)
  | exchangeBytes (current : ℕ) (payload : Payload)
  | loadGeneration (payload : Payload)
  | sendPayload (generation : ℕ) (payload : Payload)
  | releaseBytes (amount : ℕ)
  | releaseRecord
  deriving DecidableEq, Repr

inductive CommandOp
  | drain
  | wait
  | compare (record : ℕ × Payload)
  | closeSocket
  | clearPending
  | drainCommands
  deriving DecidableEq, Repr

inductive SocketOp
  | checkGeneration
  | attempt
  | loadAttempt
  | openSocket (generation : ℕ)
  | confirmGeneration (generation : ℕ)
  | service
  | flush (socket generation : ℕ)
  | write (socket generation : ℕ) (record : ℕ × Payload)
  | read (generation : ℕ)
  deriving DecidableEq, Repr

inductive Op
  | shared (op : SharedOp)
  | outbound (op : OutboundOp)
  | command (op : CommandOp)
  | socket (op : SocketOp)
  deriving DecidableEq, Repr

inductive Choice
  | none
  | timeout
  | due
  -- of `open_socket`
  | opened
  | cancelled
  | rejected
  | retry
  -- of the socket
  | sent
  | failed
  | message (payload : Payload)
  | control
  | idle
  deriving DecidableEq, Repr

abbrev assign (assignment : Assignment) : Op := .shared (.assign assignment)

abbrev branch (op : BranchOp) : Op := .shared (.branch op)

abbrev signal (signal : Signal) : Op := .shared (.sendSignal signal)

def releaseOutbound (payload : Payload) : List Op :=
  [.outbound (.releaseBytes payload.length), .outbound .releaseRecord]

/-- The part of the loop for a client that is not to be connected. -/
def inactive : List Op :=
  [.command .closeSocket, .command .clearPending, branch .settleStatus, .command .wait]

def stale : List Op := [assign (.status statusDisconnected), .socket .service]

/-- What follows a failed read or write, with `connection_lost`. -/
def lost : List Op :=
  [.command .closeSocket, .shared (.bumpGeneration false), .command .clearPending,
    assign (.accepting false), branch .lostDesired, assign (.error transportError),
    .shared .clearIncoming, .command .drain]

/-- `handle_command`, followed by the rest of the loop or, on a shutdown, by its end. -/
def handleCommand : Command → List Op
  | .signal .wake | .signal (.background false) => [.command .drain]
  | .signal .disconnect | .signal (.background true) =>
    [.command .closeSocket, .command .clearPending, .shared .clearIncoming,
      assign (.status statusDisconnected), .command .drain]
  | .send generation payload => [.command (.compare (generation, payload)), .command .drain]
  | .signal .shutdown => [.command .closeSocket, .command .clearPending, .command .drainCommands]

/-- The test of a branch, and how the thread goes on when it holds and when it does not. -/
def BranchOp.paths : BranchOp → Test × List Op × List Op
  | .connectBackground => (.background, [], [branch .connectStatus])
  | .connectStatus =>
    (.connected, [], [assign (.status statusConnecting), assign (.error 0), signal .wake])
  | .foreground =>
    (.desired, [assign (.status statusConnecting), signal (.background false)],
      [signal (.background false)])
  | .sendDesired payload => (.desired, [branch (.sendBackground payload)], [])
  | .sendBackground payload => (.background, [], [.outbound (.reserveRecord payload)])
  | .activeDesired => (.desired, [branch .activeBackground], inactive)
  | .activeBackground => (.background, inactive, [.socket .attempt])
  | .settleStatus => (.nonnegative, [assign (.status statusDisconnected)], [])
  | .confirmDesired generation => (.desired, [branch (.confirmBackground generation)], stale)
  | .confirmBackground generation =>
    (.background, stale, [.socket (.confirmGeneration generation)])
  | .lostDesired => (.desired, [branch .lostBackground], [assign (.status statusDisconnected)])
  | .lostBackground =>
    (.background, [assign (.status statusDisconnected)], [assign (.status statusConnecting)])
  | .flushGeneration socket generation record =>
    (.generation generation, [branch (.flushDesired socket generation record)],
      releaseOutbound record.2 ++ [.socket (.flush socket generation)])
  | .flushDesired socket generation record =>
    (.desired, [branch (.flushBackground socket generation record)],
      releaseOutbound record.2 ++ [.socket (.flush socket generation)])
  | .flushBackground socket generation record =>
    (.background, releaseOutbound record.2 ++ [.socket (.flush socket generation)],
      [.socket (.write socket generation record)])
  | .incomingAccepting generation payload =>
    (.accepting, [branch (.incomingDesired generation payload)], [.shared .unlock])
  | .incomingDesired generation payload =>
    (.desired, [branch (.incomingBackground generation payload)], [.shared .unlock])
  | .incomingBackground generation payload =>
    (.background, [.shared .unlock], [branch (.incomingGeneration generation payload)])
  | .incomingGeneration generation payload =>
    (.generation generation, [.shared (.push generation payload)], [.shared .unlock])

structure Thread where
  worker : Worker
  ops : List Op
  deriving DecidableEq, Repr

abbrev OpEffect := Effect Shared Thread Event

def SharedOp.exec (s : Shared) (w : Worker) : SharedOp → Option OpEffect
  | .assign assignment => some { shared := assignment.apply s, thread := ⟨w, []⟩ }
  | .branch op =>
    let (test, yes, no) := op.paths
    some { shared := s, thread := ⟨w, if test.holds s then yes else no⟩ }
  | .bumpGeneration transition =>
    some { shared := { s with generation := s.generation + 1 }, thread := ⟨w, []⟩,
           event := if transition then some .transition else none }
  | .swapBackground value =>
    let s' := { s with background := value }
    if s.background = value then some { shared := s', thread := ⟨w, []⟩ }
    else if value then
      some { shared := s', thread := ⟨w, [.shared (.bumpGeneration true),
        Client.assign (.accepting false), Client.assign (.status statusDisconnected),
        Client.assign (.error 0), .shared .clearIncoming, signal (.background true)]⟩ }
    else
      some { shared := s', thread := ⟨w, [Client.branch .foreground]⟩ }
  | .clearIncoming =>
    if s.incomingLocked then none
    else some { shared := { s with incoming := [], incomingBytes := 0 }, thread := ⟨w, []⟩,
                event := some .cleared }
  | .poll capacity =>
    if s.incomingLocked then none
    else match s.incoming with
      | [] => some { shared := s, thread := ⟨w, []⟩ }
      | next :: records =>
        if next.length > capacity then some { shared := s, thread := ⟨w, []⟩ }
        else
          some { shared := { s with incoming := records,
                                    incomingBytes := s.incomingBytes - next.length },
                 thread := ⟨w, []⟩, event := some (.delivered next) }
  | .sendSignal signal =>
    if s.running ∧ s.commands.length < maxEventRecords then
      some { shared := { s with commands := s.commands ++ [.signal signal] }, thread := ⟨w, []⟩ }
    -- `shutdown` waits for a place, the other calls go on without one
    else if s.running ∧ signal = .shutdown then none
    else some { shared := s, thread := ⟨w, []⟩ }
  | .lock generation payload =>
    if s.incomingLocked then none
    else some { shared := { s with incomingLocked := true },
                thread := ⟨w, [Client.branch (.incomingAccepting generation payload)]⟩ }
  | .push _ payload =>
    if s.incoming.length ≥ maxEventRecords ∨
        s.incomingBytes + payload.length > maxBufferedPayload then
      some { shared := s, thread := ⟨w, [Client.assign (.error queueFull), .shared .unlock]⟩ }
    else
      some { shared := { s with incoming := s.incoming ++ [payload],
                                incomingBytes := s.incomingBytes + payload.length },
             thread := ⟨w, [.shared .unlock]⟩ }
  | .unlock => some { shared := { s with incomingLocked := false }, thread := ⟨w, []⟩ }

def OutboundOp.exec (s : Shared) (w : Worker) : OutboundOp → OpEffect
  | .reserveRecord payload =>
    { shared := { s with outboundRecords := s.outboundRecords + 1 },
      thread := ⟨w, [.outbound (if s.outboundRecords ≥ maxEventRecords then .releaseRecord
        else .loadBytes payload)]⟩ }
  | .loadBytes payload =>
    { shared := s, thread := ⟨w, [.outbound (.exchangeBytes s.outboundBytes payload)]⟩ }
  | .exchangeBytes current payload =>
    if current + payload.length > maxBufferedPayload then
      { shared := s, thread := ⟨w, [.outbound .releaseRecord]⟩ }
    else if s.outboundBytes = current then
      { shared := { s with outboundBytes := current + payload.length },
        thread := ⟨w, [.outbound (.loadGeneration payload)]⟩ }
    else
      { shared := s, thread := ⟨w, [.outbound (.exchangeBytes s.outboundBytes payload)]⟩ }
  | .loadGeneration payload =>
    { shared := s, thread := ⟨w, [.outbound (.sendPayload s.generation payload)]⟩ }
  | .sendPayload generation payload =>
    if s.running ∧ s.commands.length < maxEventRecords then
      { shared := { s with commands := s.commands ++ [.send generation payload] },
        thread := ⟨w, []⟩, event := some (.accepted generation payload) }
    else
      { shared := s, thread := ⟨w, releaseOutbound payload⟩ }
  | .releaseBytes amount =>
    { shared := { s with outboundBytes := wrappingSub s.outboundBytes amount }, thread := ⟨w, []⟩ }
  | .releaseRecord =>
    { shared := { s with outboundRecords := wrappingSub s.outboundRecords 1 }, thread := ⟨w, []⟩ }

def CommandOp.exec (s : Shared) (w : Worker) (choice : Choice) : CommandOp → Option OpEffect
  | .drain =>
    match s.commands with
    | [] => some { shared := s, thread := ⟨w, [.socket .checkGeneration]⟩ }
    | command :: commands =>
      some { shared := { s with commands }, thread := ⟨w, handleCommand command⟩ }
  | .wait =>
    match s.commands, choice with
    | _, .timeout => some { shared := s, thread := ⟨w, [.command .drain]⟩ }
    | command :: commands, .none =>
      some { shared := { s with commands }, thread := ⟨w, handleCommand command⟩ }
    | _, _ => none
  | .compare record =>
    if record.1 = s.generation then
      some { shared := s, thread := ⟨{ w with pending := w.pending ++ [record] }, []⟩ }
    else
      some { shared := s, thread := ⟨w, releaseOutbound record.2⟩ }
  | .closeSocket => some { shared := s, thread := ⟨{ w with socket := none }, []⟩ }
  | .clearPending =>
    match w.pending with
    | [] => some { shared := s, thread := ⟨w, []⟩ }
    | record :: pending =>
      some { shared := s,
             thread := ⟨{ w with pending }, releaseOutbound record.2 ++ [.command .clearPending]⟩ }
  | .drainCommands =>
    match s.commands with
    | .send _ payload :: commands =>
      some { shared := { s with commands },
             thread := ⟨w, releaseOutbound payload ++ [.command .drainCommands]⟩ }
    | .signal _ :: commands =>
      some { shared := { s with commands }, thread := ⟨w, [.command .drainCommands]⟩ }
    -- no call is under way when the client is dropped: the queue stays empty to the end
    | [] => some { shared := { s with running := false }, thread := ⟨w, []⟩ }

def SocketOp.exec (s : Shared) (w : Worker) (choice : Choice) : SocketOp → Option OpEffect
  | .checkGeneration =>
    if w.socket.isSome ∧ w.socketGeneration ≠ s.generation then
      some { shared := s, thread := ⟨w, [.command .closeSocket, assign (.accepting false),
        .command .clearPending, branch .activeDesired]⟩ }
    else
      some { shared := s, thread := ⟨w, [branch .activeDesired]⟩ }
  | .attempt =>
    some { shared := s, thread := ⟨w, [.socket (if w.socket.isNone ∧ choice = .due then .loadAttempt
      else .service)]⟩ }
  | .loadAttempt =>
    some { shared := s, thread :=
      ⟨w, [assign (.status statusConnecting), .socket (.openSocket s.generation)]⟩ }
  | .openSocket generation =>
    match choice with
    | .opened => some { shared := s, thread := ⟨w, [branch (.confirmDesired generation)]⟩ }
    | .cancelled =>
      some { shared := s, thread := ⟨w, [assign (.status statusDisconnected), .socket .service]⟩ }
    | .rejected =>
      some { shared := s, thread := ⟨w, [assign (.desired false),
        assign (.error invalidCredential), assign (.status invalidCredential),
        .command .clearPending, .socket .service]⟩ }
    | .retry =>
      some { shared := s, thread := ⟨w, [assign (.error transportError), .socket .service]⟩ }
    | _ => none
  | .confirmGeneration generation =>
    if s.generation = generation then
      some { shared := s,
             thread := ⟨{ w with socket := some generation, socketGeneration := generation },
               [assign (.error 0), assign (.status statusConnected), assign (.accepting true),
                 .socket .service]⟩ }
    else
      some { shared := s, thread := ⟨w, stale⟩ }
  | .service =>
    match w.socket with
    | some socket =>
      some { shared := s, thread := ⟨w, [.socket (.flush socket w.socketGeneration)]⟩ }
    | none => some { shared := s, thread := ⟨w, [.command .drain]⟩ }
  | .flush socket generation =>
    match w.pending with
    | [] => some { shared := s, thread := ⟨w, [.socket (.read generation)]⟩ }
    | record :: pending =>
      if record.1 ≠ generation then
        some { shared := s, thread :=
          ⟨{ w with pending }, releaseOutbound record.2 ++ [.socket (.flush socket generation)]⟩ }
      else
        some { shared := s, thread :=
          ⟨{ w with pending }, [branch (.flushGeneration socket generation record)]⟩ }
  | .write socket generation record =>
    match choice with
    | .sent =>
      some { shared := s, event := some (.written socket record.1 record.2), thread :=
        ⟨w, releaseOutbound record.2 ++ [.socket (.flush socket generation)]⟩ }
    | .failed =>
      some { shared := s, event := some (.written socket record.1 record.2), thread :=
        ⟨w, releaseOutbound record.2 ++ lost⟩ }
    | _ => none
  | .read generation =>
    match choice with
    | .message payload =>
      some { shared := s, event := some (.received payload), thread :=
        ⟨w, if payload.length > maxMessageBytes then lost
          else [.shared (.lock generation payload), .command .drain]⟩ }
    | .control => some { shared := s, thread := ⟨w, [.command .drain]⟩ }
    | .idle => some { shared := s, thread := ⟨w, [.command .wait]⟩ }
    | .failed => some { shared := s, thread := ⟨w, lost⟩ }
    | _ => none

def Op.exec (s : Shared) (w : Worker) (choice : Choice) : Op → Option OpEffect
  | .shared op => op.exec s w
  | .outbound op => some (op.exec s w)
  | .command op => op.exec s w choice
  | .socket op => op.exec s w choice

inductive ClientCall
  | connect
  | disconnect
  | setBackground (value : Bool)
  | send (payload : Payload)
  | poll (capacity : ℕ)
  | shutdown
  deriving DecidableEq, Repr

def ClientCall.ops : ClientCall → List Op
  | .connect => [assign (.desired true), branch .connectBackground]
  | .disconnect =>
    [assign (.desired false), .shared (.bumpGeneration true), assign (.accepting false),
      assign (.status statusDisconnected), assign (.error 0), .shared .clearIncoming,
      signal .disconnect]
  | .setBackground value => [.shared (.swapBackground value)]
  | .send payload =>
    if payload.length > maxMessageBytes then [] else [branch (.sendDesired payload)]
  | .poll capacity => [.shared (.poll capacity)]
  | .shutdown => [assign (.desired false), assign (.accepting false), signal .shutdown]

def execThread (s : Shared) (thread : Thread) (choice : Choice) : Option OpEffect :=
  match thread.ops with
  | [] => none
  | op :: rest =>
    (op.exec s thread.worker choice).map fun effect =>
      { effect with thread := ⟨effect.thread.worker, effect.thread.ops ++ rest⟩ }

def system : ThreadSystem Shared Thread Choice ClientCall Event where
  exec := execThread
  enter call := ⟨.initial, call.ops⟩

def start : Threads Shared Thread := ⟨.initial, [⟨.initial, [.command .drain]⟩]⟩

end Stasis.Network.Client
