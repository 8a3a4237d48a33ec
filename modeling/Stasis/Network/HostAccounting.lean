import Stasis.Network.Host

namespace Stasis.Network.Host

open Shared
open Option
open List
open ThreadSystem

/-- The bytes an operation has reserved, or taken from a queue, and still has to account for. -/
def Op.weight : Op → ℕ
  | .buffer (.release amount) => amount
  | .buffer (.sendEvent event) => event.payload.length
  | .call (.sendCommand _ payload) => payload.length
  | .listener (.lookup _ payload) | .listener (.deliver _ _ payload) => payload.length
  | _ => 0

def threadWeight (thread : List Op) : ℕ := carried Op.weight thread

/-- A compare-exchange is only tried when the reservation fits. -/
def Op.Fits (limits : HostLimits) : Op → Prop
  | .buffer (.exchange current purpose) => purpose.amount ≤ limits.maxBufferedBytes - current
  | _ => True

variable (event : NetworkEvent)

@[simp] lemma weight_publish : carried Op.weight (publish event) = 0 := by
  unfold publish
  split_ifs with h
  · simp [Op.weight]
  · simpa [Op.weight] using h

variable (connection : ℕ)

@[simp] lemma weight_reject : carried Op.weight (reject connection) = 0 :=
  weight_publish _

@[simp] lemma weight_noteOverflow : carried Op.weight (noteOverflow connection) = 0 := rfl

variable (purpose : Reservation)

@[simp] lemma weight_granted : carried Op.weight purpose.granted = purpose.amount := by
  cases purpose <;> simp [Reservation.granted, Reservation.amount, Op.weight]

@[simp] lemma weight_refused : carried Op.weight purpose.refused = 0 := by
  cases purpose <;> rfl

@[simp] lemma payloadBytes_nil : payloadBytes [] = 0 := rfl

@[simp] lemma payloadBytes_cons (payload : Payload) (payloads : List Payload) :
    payloadBytes (payload :: payloads) = payload.length + payloadBytes payloads := by
  simp [payloadBytes]

@[simp] lemma payloadBytes_append (payloads payloads' : List Payload) :
    payloadBytes (payloads ++ payloads') = payloadBytes payloads + payloadBytes payloads' := by
  simp [payloadBytes]

@[simp] lemma commandBytes_nil : commandBytes [] = 0 := rfl

@[simp] lemma commandBytes_cons (command : HostCommand) (commands : List HostCommand) :
    commandBytes (command :: commands) = command.payload.length + commandBytes commands := by
  simp [commandBytes]

@[simp] lemma commandBytes_append (commands : List HostCommand) (command : HostCommand) :
    commandBytes (commands ++ [command]) = commandBytes commands + command.payload.length := by
  simp [commandBytes, payloadBytes]

@[simp] lemma eventBytes_cons (events : List NetworkEvent) :
    eventBytes (event :: events) = event.payload.length + eventBytes events := by
  simp [eventBytes]

@[simp] lemma eventBytes_append (events : List NetworkEvent) (event : NetworkEvent) :
    eventBytes (events ++ [event]) = eventBytes events + event.payload.length := by
  simp [eventBytes, payloadBytes]

lemma queueBytes_append (queues : List WriterQueue) :
    queueBytes (queues ++ [⟨[], true⟩]) = queueBytes queues := by
  simp [queueBytes, payloadBytes]

variable {i : ℕ} {payloads : List Payload}

lemma queueBytes_modify {queues : List WriterQueue} (h : queues[i]? = some writer)
    (f : WriterQueue → WriterQueue) :
    queueBytes (queues.modify i f) + payloadBytes writer.queue =
      queueBytes queues + payloadBytes (f writer).queue := by
  obtain ⟨others, hque, hset⟩ := exists_carried_eq (fun q : WriterQueue => payloadBytes q.queue) h
  have hmod : queues.modify i f = queues.set i (f writer) := by
    rw [modify_eq_set_getElem?, h]
    rfl
  change carried _ _ + _ = carried _ _ + _
  rw [hmod, hset, hque]
  omega

lemma exists_of_queue_eq_cons {s : Shared} (h : s.queue i = payload :: payloads) :
    ∃ receiver, s.queues[i]? = some ⟨payload :: payloads, receiver⟩ := by
  unfold queue at h
  cases hi : s.queues[i]? with
  | none => simp [hi] at h
  | some writer =>
    obtain ⟨queue, receiver⟩ := writer
    simp only [hi, map_some, getD_some] at h
    exact ⟨receiver, by rw [h]⟩

lemma held_setQueue_tail {s : Shared} (h : s.queue i = payload :: payloads) :
    (s.setQueue i payloads).held + payload.length = s.held := by
  obtain ⟨receiver, hi⟩ := exists_of_queue_eq_cons h
  have hbytes := queueBytes_modify hi ({ · with queue := payloads })
  simp only [payloadBytes_cons] at hbytes
  simp only [held, setQueue]
  omega

lemma held_setQueue_append {s : Shared} (h : s.queues[i]? = some ⟨payloads, receiver⟩)
    (payload : Payload) :
    (s.setQueue i (payloads ++ [payload])).held = s.held + payload.length := by
  have hbytes := queueBytes_modify h ({ · with queue := payloads ++ [payload] })
  simp only [payloadBytes_append, payloadBytes_cons, payloadBytes_nil] at hbytes
  simp only [held, setQueue]
  omega

lemma held_dropWriter (s : Shared) (i : ℕ) :
    ({ s with queues := s.queues.modify i fun _ => ⟨[], false⟩ } : Shared).held +
      payloadBytes (s.queue i) = s.held := by
  cases hi : s.queues[i]? with
  | none =>
    have hsame : s.queues.modify i (fun _ => ⟨[], false⟩) = s.queues := by
      rw [modify_eq_set_getElem?, hi]
      rfl
    simp [queue, hi, hsame]
  | some writer =>
    have hbytes := queueBytes_modify hi fun _ => ⟨[], false⟩
    simp only [payloadBytes_nil] at hbytes
    simp only [held, queue, hi, map_some, getD_some]
    omega

lemma held_releaseResume (s : Shared) (handle : ℕ) :
    (s.releaseResume handle).bufferedBytes = s.bufferedBytes ∧
      (s.releaseResume handle).held = s.held := by
  unfold releaseResume
  split <;> exact ⟨rfl, rfl⟩

lemma held_claimResume {s s' : Shared} (h : s.claimResume credential = some (handle, s')) :
    s'.bufferedBytes = s.bufferedBytes ∧ s'.held = s.held := by
  unfold claimResume at h
  split at h <;> split_ifs at h <;> cases h <;> exact ⟨rfl, rfl⟩

/-- What an operation moves: payload between the queues and its thread, bytes reserved in
the counter, or bytes released from it. -/
inductive Moves (limits : HostLimits) (s : Shared) (weight : ℕ) (e : OpEffect) : Prop
  | keep (hbuffered : e.shared.bufferedBytes = s.bufferedBytes)
      (hheld : e.shared.held + carried Op.weight e.thread + carried threadWeight e.spawned +
        e.event.toList.sum = s.held + weight)
  | reserve (amount : ℕ) (hfits : amount ≤ limits.maxBufferedBytes - s.bufferedBytes)
      (hbuffered : e.shared.bufferedBytes = s.bufferedBytes + amount)
      (hheld : e.shared.held + carried Op.weight e.thread + carried threadWeight e.spawned +
        e.event.toList.sum = s.held + weight + amount)
  | release (amount : ℕ) (hweight : weight = amount)
      (hbuffered : e.shared.bufferedBytes = wrappingSub s.bufferedBytes amount)
      (hheld : e.shared.held + carried Op.weight e.thread + carried threadWeight e.spawned +
        e.event.toList.sum = s.held)

variable {limits : HostLimits} {s : Shared} {choice : Choice} {e : OpEffect}

lemma Moves.idle (h : carried Op.weight ops = weight) :
    Moves limits s weight { shared := s, thread := ops } := .keep rfl (by simp [h])

lemma BufferOp.exec_moves (hfits : (Op.buffer op).Fits limits) :
    Moves limits s (Op.buffer op).weight (op.exec limits s) := by
  cases op with
  | reserve purpose =>
    simp only [exec]
    split_ifs <;> exact .keep rfl (by simp [Op.weight])
  | exchange current purpose =>
    simp only [exec]
    split_ifs with hcur
    · subst hcur
      exact .reserve purpose.amount hfits rfl (by simp [Op.weight, held])
    · exact .idle rfl
  | release amount =>
    simp only [exec]
    exact .release amount rfl rfl (by simp [held])
  | countOverflow => exact .keep rfl (by simp [exec, Op.weight, held])
  | offerOverflow connection =>
    simp only [exec]
    split_ifs
    · exact .keep rfl (by simp [Op.weight, held])
    · exact .idle rfl
  | sendEvent event =>
    simp only [exec]
    split_ifs
    · exact .keep rfl (by simp [Op.weight, held, Nat.add_assoc])
    · exact .keep rfl (by simp [Op.weight])

lemma CallOp.exec_moves (op : CallOp) : Moves limits s (Op.call op).weight (op.exec s) := by
  cases op with
  | sendCommand connection payload =>
    simp only [exec]
    split_ifs
    · exact .idle rfl
    · refine .keep rfl ?_
      simp only [held, commandBytes_append, HostCommand.payload, carried_nil, Op.weight,
        toList_none, sum_nil]
      omega
    · exact .idle rfl
  | poll =>
    simp only [exec]
    split
    · exact .idle rfl
    next event events heve =>
      refine .keep rfl ?_
      simp only [held, heve, eventBytes_cons, carried_cons, carried_nil,
        Op.weight, toList_none, sum_nil]
      omega
  | stop =>
    simp only [exec]
    split_ifs
    · exact .idle rfl
    · exact .keep rfl (by simp [Op.weight, held])
  | sendStop =>
    simp only [exec]
    split_ifs
    · exact .keep rfl (by simp [Op.weight, held, HostCommand.payload])
    · exact .idle rfl

lemma ListenerOp.exec_moves (h : op.exec limits s choice = some e) :
    Moves limits s (Op.listener op).weight e := by
  cases op with
  | receive =>
    simp only [exec] at h
    split at h <;> cases h
    · exact .idle rfl
    next connection payload commands hcmds =>
      refine .keep rfl ?_
      simp only [held, hcmds, commandBytes_cons, HostCommand.payload, carried_cons,
        carried_nil, Op.weight, toList_none, sum_nil]
      omega
    next commands hcmds => exact .keep rfl (by simp [Op.weight, held, hcmds, HostCommand.payload])
  | lookup connection payload =>
    simp only [exec] at h
    split at h <;> cases h <;> exact .idle rfl
  | deliver queue connection payload =>
    simp only [exec] at h
    split at h
    next payloads hqueue =>
      split_ifs at h <;> cases h
      · exact .keep rfl (by simp [Op.weight, held_setQueue_append hqueue])
      · exact .idle rfl
    · cases h
      exact .idle rfl
  | accept =>
    simp only [exec] at h
    split at h
    · split_ifs at h <;> cases h <;> exact .idle rfl
    · cases h
      exact .idle rfl
    · cases h
      exact .idle rfl
    · cases h
  | startConnection =>
    simp only [exec] at h
    split at h <;> cases h
    · exact .keep rfl (by simp [Op.weight, threadWeight, held, takeConnection])
    · exact .keep rfl (by simp [Op.weight, held, takeConnection])
  | cancelConnection =>
    cases h
    exact .keep rfl (by simp [Op.weight, held])
  | checkStopped =>
    cases h
    exact .keep rfl (by split_ifs <;> simp [Op.weight])
  | joinWorkers =>
    simp only [exec] at h
    split_ifs at h
    cases h
    exact .idle rfl
  | dropCommands =>
    cases h
    refine .keep rfl ?_
    simp only [held, commandBytes_nil, carried_nil, Op.weight, toList_some, sum_cons, sum_nil]
    omega

lemma ConnectionOp.exec_moves (h : op.exec s choice = some e) :
    Moves limits s (Op.connection op).weight e := by
  cases op with
  | handshake id | read handle queue =>
    simp only [exec] at h
    split at h <;> cases h <;> exact .keep rfl (by simp [Op.weight])
  | claim id credential =>
    simp only [exec] at h
    split at h
    · cases h
      exact .idle rfl
    next handle s' peer hclaim =>
      cases h
      obtain ⟨hbuf, hheld⟩ := held_claimResume hclaim
      exact .keep hbuf (by simp [Op.weight, hheld])
    next handle s' hclaim =>
      cases h
      obtain ⟨hbuf, hheld⟩ := held_claimResume hclaim
      exact .keep hbuf (by simp [Op.weight, hheld])
    · cases h
  | register handle peer =>
    cases h
    exact .keep rfl (by simp [Op.weight, held, queueBytes_append])
  | serve handle queue =>
    cases h
    exact .keep rfl (by split_ifs <;> simp [Op.weight])
  | write handle queue =>
    simp only [exec] at h
    split at h
    · cases h
      exact .idle rfl
    next payload payloads hqueue =>
      cases h
      exact .keep rfl (by simp [Op.weight, held_setQueue_tail hqueue])
    next payload payloads hqueue =>
      cases h
      exact .keep rfl (by simp [Op.weight, held_setQueue_tail hqueue])
    · cases h
  | unregister handle queue | finish =>
    cases h
    exact .keep rfl (by simp [Op.weight, held])
  | drain handle queue =>
    simp only [exec] at h
    split at h <;> cases h
    next payload payloads hqueue => exact .keep rfl (by simp [Op.weight, held_setQueue_tail hqueue])
    · exact .idle rfl
  | releaseResume handle =>
    cases h
    obtain ⟨hbuf, hheld⟩ := held_releaseResume s handle
    exact .keep hbuf (by simp [Op.weight, hheld])
  | dropWriter queue =>
    cases h
    exact .keep rfl (by simp [Op.weight, held_dropWriter s queue])

lemma Op.exec_moves {op : Op} (hfits : op.Fits limits)
    (h : op.exec limits s choice = some e) : Moves limits s op.weight e := by
  cases op with
  | buffer op =>
    cases h
    exact op.exec_moves hfits
  | call op =>
    cases h
    exact op.exec_moves
  | listener op | connection op => exact op.exec_moves h

def FitsAll (limits : HostLimits) (ops : List Op) : Prop := ∀ op ∈ ops, op.Fits limits

@[simp] lemma fitsAll_nil : FitsAll limits [] := nofun

@[simp] lemma fitsAll_cons : FitsAll limits (op :: ops) ↔ op.Fits limits ∧ FitsAll limits ops :=
  forall_mem_cons

@[simp] lemma fitsAll_append :
    FitsAll limits (ops ++ ops') ↔ FitsAll limits ops ∧ FitsAll limits ops' :=
  forall_mem_append

@[simp] lemma fitsAll_publish : FitsAll limits (publish event) := by
  unfold publish
  split_ifs <;> simp [Op.Fits]

@[simp] lemma fitsAll_reject : FitsAll limits (reject connection) :=
  fitsAll_publish _

@[simp] lemma fitsAll_noteOverflow : FitsAll limits (noteOverflow connection) := by
  simp [noteOverflow, Op.Fits]

def EffectFits (limits : HostLimits) (e : OpEffect) : Prop :=
  FitsAll limits e.thread ∧ ∀ thread ∈ e.spawned, FitsAll limits thread

lemma BufferOp.exec_fits (op : BufferOp) : EffectFits limits (op.exec limits s) := by
  cases op with
  | reserve purpose =>
    simp only [exec]
    split_ifs with hfits
    · cases purpose <;> simp [EffectFits, Reservation.refused]
    · simpa [EffectFits, Op.Fits] using hfits
  | exchange current purpose =>
    simp only [exec]
    split_ifs
    · cases purpose <;> simp [EffectFits, Reservation.granted, Op.Fits]
    · simp [EffectFits, Op.Fits]
  | release amount | countOverflow => simp [exec, EffectFits]
  | offerOverflow connection =>
    simp only [exec]
    split_ifs <;> simp [EffectFits]
  | sendEvent event =>
    simp only [exec]
    split_ifs <;> simp [EffectFits, Op.Fits]

lemma CallOp.exec_fits (op : CallOp) : EffectFits limits (op.exec s) := by
  cases op with
  | sendCommand connection payload | stop =>
    simp only [exec]
    split_ifs <;> simp [EffectFits, Op.Fits]
  | poll =>
    simp only [exec]
    split <;> simp [EffectFits, Op.Fits]
  | sendStop =>
    simp only [exec]
    split_ifs <;> simp [EffectFits]

lemma ListenerOp.exec_fits {op : ListenerOp} (h : op.exec limits s choice = some e) :
    EffectFits limits e := by
  cases op with
  | receive | lookup | startConnection =>
    simp only [exec] at h
    split at h <;> cases h <;> simp [EffectFits, Op.Fits]
  | deliver | accept =>
    simp only [exec] at h
    split at h <;> (try split_ifs at h) <;> cases h <;> simp [EffectFits, Op.Fits]
  | cancelConnection | checkStopped | dropCommands =>
    cases h
    simp [EffectFits, Op.Fits]
  | joinWorkers =>
    simp only [exec] at h
    split_ifs at h
    cases h
    simp [EffectFits, Op.Fits]

lemma ConnectionOp.exec_fits {op : ConnectionOp} (h : op.exec s choice = some e) :
    EffectFits limits e := by
  cases op with
  | handshake | claim | write | read | drain =>
    simp only [exec] at h
    split at h <;> cases h <;> simp [EffectFits, Op.Fits]
  | register | serve | unregister | releaseResume | dropWriter | finish =>
    cases h
    simp [EffectFits, Op.Fits]

lemma Op.exec_fits {op : Op} (h : op.exec limits s choice = some e) : EffectFits limits e := by
  cases op with
  | buffer op | call op =>
    cases h
    exact op.exec_fits
  | listener op | connection op => exact op.exec_fits h

lemma execThread_eq_some (h : execThread limits s thread choice = some e) :
    ∃ op rest e', thread = op :: rest ∧ op.exec limits s choice = some e' ∧
      e = { e' with thread := e'.thread ++ rest } := by
  cases thread with
  | nil => cases h
  | cons op rest =>
    obtain ⟨e', he', rfl⟩ := map_eq_some_iff.mp h
    exact ⟨op, rest, e', rfl, he', rfl⟩

/-- The counter is the payload in the queues, the payload between a queue and the counter,
and the payload that was dropped with a queue. -/
structure Balanced (limits : HostLimits) (dropped : List ℕ) (s : Shared) (carried : ℕ) : Prop where
  counter : s.bufferedBytes = s.held + carried + dropped.sum
  bound : s.bufferedBytes ≤ limits.maxBufferedBytes

lemma Moves.balanced (h : Moves limits s weight e)
    (hbal : Balanced limits dropped s (weight + others)) :
    Balanced limits (dropped ++ e.event.toList) e.shared
      (carried Op.weight e.thread + carried threadWeight e.spawned + others) := by
  obtain ⟨hctr, hbound⟩ := hbal
  cases h with
  | keep hbuffered hheld =>
    constructor
    · rw [hbuffered, sum_append]
      omega
    · rw [hbuffered]
      exact hbound
  | reserve amount hfits hbuffered hheld =>
    constructor
    · rw [hbuffered, sum_append]
      omega
    · omega
  | release amount hweight hbuffered hheld =>
    have hle : amount ≤ s.bufferedBytes := by omega
    rw [wrappingSub, if_pos hle] at hbuffered
    constructor
    · rw [hbuffered, sum_append]
      omega
    · omega

def balance (limits : HostLimits) : Invariant (system limits) ℕ where
  weight := threadWeight
  holds := Balanced limits
  ok _ thread := FitsAll limits thread
  enter_weight call := by
    cases call with
    | send connection payload =>
      simp only [system, HostCall.enter]
      split_ifs <;> rfl
    | poll => rfl
    | stop => rfl
  enter_ok call _ := by
    cases call with
    | send connection payload =>
      simp only [system, HostCall.enter]
      split_ifs <;> simp [Op.Fits]
    | poll | stop => simp [system, HostCall.enter, Op.Fits]
  exec := by
    intro dropped s thread choice effect others h hok hbalanced
    obtain ⟨op, rest, e, rfl, hexec, rfl⟩ := execThread_eq_some h
    have hmoves := Op.exec_moves (fitsAll_cons.mp hok).1 hexec
    -- the rest of the thread is carried along like the other threads
    rw [threadWeight, carried_cons, Nat.add_assoc] at hbalanced
    have hnext := hmoves.balanced hbalanced
    rw [← Nat.add_assoc] at hnext
    simpa only [threadWeight, carried_append, Nat.add_right_comm] using hnext
  exec_ok := by
    intro _ s thread choice effect _ h hok _
    obtain ⟨op, rest, e, rfl, hexec, rfl⟩ := execThread_eq_some h
    obtain ⟨hthread, hspawned⟩ := Op.exec_fits hexec
    exact ⟨fitsAll_append.mpr ⟨hthread, (fitsAll_cons.mp hok).2⟩, hspawned⟩
  stable _ _ hok := hok

def Op.moving : Op → Bool
  | .buffer (.release _) | .buffer (.sendEvent _) | .call (.sendCommand _ _)
  | .listener (.lookup _ _) | .listener (.deliver _ _ _) => true
  | _ => false

/-- No thread is between an enqueue and its accounting step. -/
def Settled (c : Threads Shared (List Op)) : Prop :=
  ∀ thread ∈ c.threads, ∀ op ∈ thread, op.moving = false

instance (c : Threads Shared (List Op)) : Decidable (Settled c) :=
  inferInstanceAs (Decidable (∀ thread ∈ c.threads, ∀ op ∈ thread, op.moving = false))

structure Drained (s : Shared) : Prop where
  commands : s.commands = []
  events : s.events = []
  queues : ∀ writer ∈ s.queues, writer.queue = []

lemma weight_of_not_moving {op : Op} (h : op.moving = false) : op.weight = 0 := by
  rcases op with op | op | op | op <;> cases op <;> first | rfl | cases h

lemma Settled.carried_eq (h : Settled c) : carried threadWeight c.threads = 0 := by
  apply sum_eq_zero
  intro weight hwei
  obtain ⟨thread, hthr, rfl⟩ := mem_map.mp hwei
  apply sum_eq_zero
  intro weight hwei
  obtain ⟨op, hop, rfl⟩ := mem_map.mp hwei
  exact weight_of_not_moving (h thread hthr op hop)

lemma Drained.held_eq (h : Drained s) : s.held = 0 := by
  have hque : queueBytes s.queues = 0 := by
    apply sum_eq_zero
    intro bytes hbytes
    obtain ⟨writer, hwri, rfl⟩ := mem_map.mp hbytes
    rw [h.queues writer hwri]
    rfl
  rw [held, h.commands, h.events, hque]
  rfl

lemma balance_runs (limits : HostLimits) (schedule : List (ThreadAction Choice HostCall)) :
    Balanced limits ((system limits).runs start schedule).2
      ((system limits).runs start schedule).1.shared
      (carried threadWeight ((system limits).runs start schedule).1.threads) := by
  have hstart : (balance limits).At [] start := by
    constructor
    · exact ⟨rfl, Nat.zero_le _⟩
    · intro thread hthr
      obtain rfl := mem_singleton.mp hthr
      simp [balance, Op.Fits]
  exact (hstart.reaches ((system limits).reaches_runs start schedule)).holds

/-- Along every schedule the counter stays within its limit and no release takes it below
zero.  It agrees with the queues whenever all threads are settled, provided that no
receiver was dropped with payload in its queue. -/
theorem host_buffer_accounting (limits : HostLimits)
    (schedule : List (ThreadAction Choice HostCall)) :
    let c := ((system limits).runs start schedule).1
    let dropped := ((system limits).runs start schedule).2
    c.shared.bufferedBytes ≤ limits.maxBufferedBytes ∧
      (∀ thread ∈ c.threads, ∀ amount rest, thread = .buffer (.release amount) :: rest →
        amount ≤ c.shared.bufferedBytes) ∧
      ((∀ bytes ∈ dropped, bytes = 0) → Settled c →
        c.shared.bufferedBytes = c.shared.held ∧
          (Drained c.shared → c.shared.bufferedBytes = 0)) := by
  intro c dropped
  obtain ⟨hcounter, hbound⟩ : Balanced limits dropped c.shared (carried threadWeight c.threads) :=
    balance_runs limits schedule
  refine ⟨hbound, ?_, ?_⟩
  · rintro _ hthread amount rest rfl
    obtain ⟨i, hi⟩ := List.mem_iff_getElem?.mp hthread
    obtain ⟨others, hothers, -⟩ := exists_carried_eq threadWeight hi
    rw [threadWeight, carried_cons, Op.weight] at hothers
    omega
  · intro hdropped hsettled
    have hsum : dropped.sum = 0 := List.sum_eq_zero hdropped
    have hheld : c.shared.bufferedBytes = c.shared.held := by
      rw [hcounter, hsettled.carried_eq, hsum]
      rfl
    exact ⟨hheld, fun hdrained => hheld.trans hdrained.held_eq⟩

def loopbackLimits : HostLimits := ⟨maxSeats, maxBufferedPayload, by decide, by decide⟩

/-- A client connects, the application sends it one byte, and the connection is closed
between the moment the listener clones the sender and the moment it uses it. -/
def racingSchedule : List (ThreadAction Choice HostCall) :=
  -- a connection, registered under the handle 2
  [.run 0 .none, .run 0 .incoming, .run 0 .incoming, .run 0 .none,
   .run 1 (.upgrade [7]), .run 1 (.upgraded [0x70]),
   .run 1 .none, .run 1 .none, .run 1 .none, .run 1 .none,
   -- a message to it, taken from the command queue by the listener
   .call (.send 2 [0x41]), .run 2 .none, .run 2 .none, .run 2 .none,
   .run 0 .none, .run 0 .none,
   -- the connection ends, and its queue is drained
   .run 1 .none, .run 1 .none, .run 1 .closed, .run 1 .none, .run 1 .none, .run 1 .none,
   -- the listener delivers the message
   .run 0 .none,
   -- the receiver is dropped
   .run 1 .none, .run 1 .none, .run 1 .none, .run 0 .wouldBlock, .run 0 .none,
   -- the application takes both events
   .call .poll, .run 3 .none, .run 3 .none, .call .poll, .run 4 .none, .run 4 .none]

/-- When the byte for the client has been accepted, it and the opening of the connection wait
in the queues and are counted. -/
theorem accepted_message_is_counted :
    let c := ((system loopbackLimits).runs start (racingSchedule.take 14)).1
    Settled c ∧ c.shared.bufferedBytes = 2 ∧ c.shared.bufferedBytes = c.shared.held := by
  have hsettled : Settled ((system loopbackLimits).runs start (racingSchedule.take 14)).1 := by
    decide +kernel
  have hdropped : ∀ bytes ∈ ((system loopbackLimits).runs start (racingSchedule.take 14)).2,
      bytes = 0 := by decide +kernel
  refine ⟨hsettled, by decide +kernel, ?_⟩
  exact ((host_buffer_accounting loopbackLimits (racingSchedule.take 14)).2.2 hdropped hsettled).1

/-- Every connection is closed, every queue is empty and no thread is at work, but the
byte is still counted. -/
theorem delivery_after_drain_stays_counted :
    let c := ((system loopbackLimits).runs start racingSchedule).1
    Settled c ∧ c.shared.activeConnections = 0 ∧
      (∀ writer ∈ c.shared.queues, writer.receiver = false ∧ writer.queue = []) ∧
      c.shared.commands = [] ∧ c.shared.events = [] ∧
      c.shared.held = 0 ∧ c.shared.bufferedBytes = 1 := by
  decide +kernel

end Stasis.Network.Host
