import Stasis.Network.Client

namespace Stasis.Network.Client

open Thread
open Option
open List
open ThreadSystem

/-- Bytes and records to be accounted for, payload on its way with its generation, and locks
held. -/
@[ext] structure Ledger where
  bytes : ℕ
  records : ℕ
  outbound : Multiset (ℕ × Payload)
  locks : ℕ

namespace Ledger

instance : Zero Ledger := ⟨⟨0, 0, 0, 0⟩⟩

instance : Add Ledger :=
  ⟨fun m n => ⟨m.bytes + n.bytes, m.records + n.records, m.outbound + n.outbound,
    m.locks + n.locks⟩⟩

@[simp] lemma bytes_zero : (0 : Ledger).bytes = 0 := rfl
@[simp] lemma records_zero : (0 : Ledger).records = 0 := rfl
@[simp] lemma outbound_zero : (0 : Ledger).outbound = 0 := rfl
@[simp] lemma locks_zero : (0 : Ledger).locks = 0 := rfl
@[simp] lemma bytes_add (m n : Ledger) : (m + n).bytes = m.bytes + n.bytes := rfl
@[simp] lemma records_add (m n : Ledger) : (m + n).records = m.records + n.records := rfl
@[simp] lemma outbound_add (m n : Ledger) : (m + n).outbound = m.outbound + n.outbound := rfl
@[simp] lemma locks_add (m n : Ledger) : (m + n).locks = m.locks + n.locks := rfl

instance : AddCommMonoid Ledger where
  add_assoc m n k := by ext1 <;> simp [add_assoc]
  zero_add m := by ext1 <;> simp
  add_zero m := by ext1 <;> simp
  add_comm m n := by ext1 <;> simp [add_comm]
  nsmul := nsmulRec

end Ledger

open Ledger

def recordBytes (records : List (ℕ × Payload)) : ℕ := (records.map (·.2.length)).sum

/-- The entry of records that are held in a queue or in hand. -/
def heldLedger (records : List (ℕ × Payload)) : Ledger :=
  ⟨recordBytes records, records.length, records, 0⟩

def lockLedger : Ledger := ⟨0, 0, 0, 1⟩

def BranchOp.ledger : BranchOp → Ledger
  | .flushGeneration _ _ record | .flushDesired _ _ record | .flushBackground _ _ record =>
    heldLedger [record]
  | .incomingAccepting _ _ | .incomingDesired _ _ | .incomingBackground _ _
  | .incomingGeneration _ _ => lockLedger
  | _ => 0

def Op.ledger : Op → Ledger
  | .shared (.branch op) => op.ledger
  | .shared (.push _ _) | .shared .unlock => lockLedger
  | .outbound (.loadBytes _) | .outbound (.exchangeBytes _ _) | .outbound .releaseRecord =>
    ⟨0, 1, 0, 0⟩
  | .outbound (.loadGeneration payload) | .outbound (.sendPayload _ payload) =>
    ⟨payload.length, 1, 0, 0⟩
  | .outbound (.releaseBytes amount) => ⟨amount, 0, 0, 0⟩
  | .command (.compare record) | .socket (.write _ _ record) => heldLedger [record]
  | _ => 0

def Thread.ledger (thread : Thread) : Ledger :=
  heldLedger thread.worker.pending + carried Op.ledger thread.ops

def Command.record? : Command → Option (ℕ × Payload)
  | .send generation payload => some (generation, payload)
  | .signal _ => none

def sends (commands : List Command) : List (ℕ × Payload) := commands.filterMap Command.record?

def Event.accepted? : Event → Option (ℕ × Payload)
  | .accepted generation payload => some (generation, payload)
  | _ => none

def Event.written? : Event → Option (ℕ × Payload)
  | .written _ generation payload => some (generation, payload)
  | _ => none

def accepts (history : List Event) : Multiset (ℕ × Payload) := history.filterMap Event.accepted?

def writes (history : List Event) : Multiset (ℕ × Payload) := history.filterMap Event.written?

structure Balanced (history : List Event) (s : Shared) (m : Ledger) : Prop where
  bytes : s.outboundBytes = recordBytes (sends s.commands) + m.bytes
  records : s.outboundRecords = (sends s.commands).length + m.records
  outbound : writes history + sends s.commands + m.outbound ≤ accepts history
  lock : m.locks = if s.incomingLocked then 1 else 0

@[simp] lemma recordBytes_nil : recordBytes [] = 0 := rfl

@[simp] lemma recordBytes_cons (record : ℕ × Payload) (records : List (ℕ × Payload)) :
    recordBytes (record :: records) = record.2.length + recordBytes records := by
  simp [recordBytes]

@[simp] lemma recordBytes_append (records records' : List (ℕ × Payload)) :
    recordBytes (records ++ records') = recordBytes records + recordBytes records' := by
  simp [recordBytes]

section

variable (records : List (ℕ × Payload))
include records

@[simp] lemma bytes_heldLedger : (heldLedger records).bytes = recordBytes records := rfl

@[simp] lemma records_heldLedger : (heldLedger records).records = records.length := rfl

@[simp] lemma outbound_heldLedger : (heldLedger records).outbound = records := rfl

@[simp] lemma locks_heldLedger : (heldLedger records).locks = 0 := rfl

end

lemma heldLedger_append (records records' : List (ℕ × Payload)) :
    heldLedger (records ++ records') = heldLedger records + heldLedger records' := by
  ext1 <;> simp [← Multiset.coe_add]

@[simp] lemma sends_nil : sends [] = [] := rfl

@[simp] lemma sends_append (commands commands' : List Command) :
    sends (commands ++ commands') = sends commands ++ sends commands' := by
  simp [sends]

@[simp] lemma sends_send (generation : ℕ) (payload : Payload) (commands : List Command) :
    sends (.send generation payload :: commands) = (generation, payload) :: sends commands := rfl

@[simp] lemma sends_signal (signal : Signal) (commands : List Command) :
    sends (.signal signal :: commands) = sends commands := rfl

@[simp] lemma accepts_append (history events : List Event) :
    accepts (history ++ events) = accepts history + accepts events := by
  simp [accepts]

@[simp] lemma writes_append (history events : List Event) :
    writes (history ++ events) = writes history + writes events := by
  simp [writes]

structure Ledger.Keeps (m' m : Ledger) : Prop where
  bytes : m'.bytes = m.bytes
  records : m'.records = m.records
  outbound : m'.outbound ≤ m.outbound
  locks : m'.locks = m.locks

lemma Ledger.Keeps.refl (m : Ledger) : Keeps m m := ⟨rfl, rfl, le_rfl, rfl⟩

lemma Ledger.Keeps.add_left (h : Keeps m' m) (n : Ledger) : Keeps (n + m') (n + m) :=
  ⟨by simp [h.bytes], by simp [h.records], by simpa using h.outbound, by simp [h.locks]⟩

lemma keeps_released (record : ℕ × Payload) :
    Ledger.Keeps ⟨record.2.length, 1, 0, 0⟩ (heldLedger [record]) :=
  ⟨by simp, rfl, Multiset.zero_le _, rfl⟩

lemma keeps_pending_head {w : Worker} {ops : List Op}
    (h : Ledger.Keeps (carried Op.ledger ops) (heldLedger [record])) :
    Ledger.Keeps (ledger ⟨{ w with pending }, ops⟩) (heldLedger (record :: pending) + 0) := by
  have hcons : heldLedger (record :: pending) = heldLedger [record] + heldLedger pending :=
    heldLedger_append [record] pending
  rw [ledger, hcons, add_zero, add_comm (heldLedger [record])]
  exact h.add_left _

/-- The counters, the records of the command queue and the lock. -/
def accounts (s : Shared) :=
  (s.outboundBytes, s.outboundRecords, sends s.commands, s.incomingLocked)

lemma Balanced.keep (h : Balanced history s (m + others)) (hm : Ledger.Keeps m' m)
    (hsame : accounts s' = accounts s) (hevents : (accepts events, writes events) = (0, 0)) :
    Balanced (history ++ events) s' (m' + others) := by
  obtain ⟨hb, hr, ho, hl⟩ := h
  simp only [accounts, Prod.mk.injEq] at hsame hevents
  obtain ⟨⟨hbytes, hrec, hcmds, hloc⟩, hacc, hwri⟩ := hsame, hevents
  constructor
  · rw [hbytes, hcmds, hb, bytes_add, bytes_add, hm.bytes]
  · rw [hrec, hcmds, hr, records_add, records_add, hm.records]
  · rw [accepts_append, writes_append, hacc, hwri, add_zero, add_zero, hcmds]
    refine le_trans (add_le_add_right ?_ _) ho
    exact add_le_add_left hm.outbound others.outbound
  · rw [hloc, ← hl, locks_add, locks_add, hm.locks]

/-- An operation keeps the balance, whatever the rest of its thread and the other threads
carry. -/
def Frames (s : Shared) (w : Worker) (op : Op) (e : OpEffect) : Prop :=
  ∀ history others, Balanced history s (heldLedger w.pending + op.ledger + others) →
    Balanced (history ++ e.event.toList) e.shared (e.thread.ledger + others)

variable {s : Shared} {w : Worker} {choice : Choice} {e : OpEffect}

lemma Frames.thread {thread : Thread}
    (hthr : Ledger.Keeps thread.ledger (heldLedger w.pending + op.ledger)) :
    Frames s w op { shared := s, thread } := fun _ _ h =>
  h.keep hthr rfl rfl

lemma Frames.ops {ops : List Op} (hops : Ledger.Keeps (carried Op.ledger ops) op.ledger)
    (hsame : accounts s' = accounts s)
    (hevent : (accepts event.toList, writes event.toList) = (0, 0)) :
    Frames s w op { shared := s', thread := ⟨w, ops⟩, event } := fun _ _ h =>
  h.keep (hops.add_left _) hsame hevent

lemma BranchOp.paths_ledger (op : BranchOp) :
    Ledger.Keeps (carried Op.ledger op.paths.2.1) op.ledger ∧
      Ledger.Keeps (carried Op.ledger op.paths.2.2) op.ledger := by
  cases op with
  | flushGeneration socket generation record | flushDesired socket generation record =>
    exact ⟨.refl _, keeps_released record⟩
  | flushBackground socket generation record => exact ⟨keeps_released record, .refl _⟩
  | _ => exact ⟨.refl _, .refl _⟩

lemma SharedOp.frames (h : op.exec s w = some e) : Frames s w (.shared op) e := by
  cases op with
  | assign assignment =>
    cases h
    cases assignment <;> exact .ops (.refl _) rfl rfl
  | branch op =>
    cases h
    refine .ops ?_ rfl rfl
    split_ifs
    · exact op.paths_ledger.1
    · exact op.paths_ledger.2
  | bumpGeneration transition =>
    cases h
    cases transition <;> exact .ops (.refl _) rfl rfl
  | swapBackground value | push generation payload =>
    simp only [exec] at h
    split_ifs at h <;> cases h <;> exact .ops (.refl _) rfl rfl
  | clearIncoming =>
    simp only [exec] at h
    split_ifs at h
    cases h
    exact .ops (.refl _) rfl rfl
  | poll capacity =>
    simp only [exec] at h
    split_ifs at h
    split at h
    · cases h
      exact .ops (.refl _) rfl rfl
    · split_ifs at h <;> cases h <;> exact .ops (.refl _) rfl rfl
  | sendSignal signal =>
    simp only [exec] at h
    split_ifs at h <;> cases h
    · exact .ops (.refl _) (by simp [accounts]) rfl
    · exact .ops (.refl _) rfl rfl
  | lock generation payload =>
    simp only [exec] at h
    split_ifs at h with hloc
    cases h
    rintro history others ⟨hb, hr, ho, hl⟩
    rw [← append_nil history] at ho
    refine ⟨hb, hr, ho, ?_⟩
    rw [if_neg hloc] at hl
    simp only [ledger, Op.ledger, BranchOp.ledger, lockLedger, carried_cons, carried_nil,
      locks_add, locks_zero, locks_heldLedger, if_true] at hl ⊢
    omega
  | unlock =>
    cases h
    rintro history others ⟨hb, hr, ho, hl⟩
    rw [← append_nil history] at ho
    refine ⟨hb, hr, ho, ?_⟩
    simp only [ledger, Op.ledger, lockLedger, carried_nil, locks_add,
      locks_zero, locks_heldLedger, Bool.false_eq_true, if_false] at hl ⊢
    split_ifs at hl <;> omega

lemma OutboundOp.frames (op : OutboundOp) : Frames s w (.outbound op) (op.exec s w) := by
  cases op with
  | reserveRecord payload =>
    rintro history others ⟨hb, hr, ho, hl⟩
    have hnext : carried Op.ledger [.outbound (if s.outboundRecords ≥ maxEventRecords then
        .releaseRecord else .loadBytes payload)] = ⟨0, 1, 0, 0⟩ := by
      split_ifs <;> rfl
    rw [← append_nil history] at ho
    simp only [exec, ledger, hnext]
    refine ⟨hb, ?_, ho, hl⟩
    simp only [Op.ledger, records_add, records_zero] at hr ⊢
    omega
  | loadBytes payload | loadGeneration payload => exact .ops (.refl _) rfl rfl
  | exchangeBytes current payload =>
    simp only [exec]
    split_ifs with hlimit hcur
    · exact .ops (.refl _) rfl rfl
    · rintro history others ⟨hb, hr, ho, hl⟩
      rw [← append_nil history] at ho
      refine ⟨?_, hr, ho, hl⟩
      simp only [ledger, Op.ledger, carried_cons, carried_nil, bytes_add, bytes_zero] at hb ⊢
      omega
    · exact .ops (.refl _) rfl rfl
  | sendPayload generation payload =>
    simp only [exec]
    split_ifs
    · rintro history others ⟨hb, hr, ho, hl⟩
      refine ⟨?_, ?_, ?_, hl⟩
      · simp only [ledger, Op.ledger, carried_nil, bytes_add, bytes_zero,
          sends_append, sends_send, sends_nil, recordBytes_append, recordBytes_cons,
          recordBytes_nil] at hb ⊢
        omega
      · simp only [ledger, Op.ledger, carried_nil, records_add, records_zero,
          sends_append, sends_send, sends_nil, length_append, length_cons,
          length_nil] at hr ⊢
        omega
      · have hwri : writes [.accepted generation payload] = 0 := rfl
        have hacc : accepts [.accepted generation payload] = {(generation, payload)} := rfl
        have hsends : (sends [.send generation payload] : Multiset (ℕ × Payload)) =
            {(generation, payload)} := rfl
        simp only [toList_some, writes_append, accepts_append, hwri, hacc,
          sends_append, ← Multiset.coe_add, hsends]
        refine le_trans (le_of_eq ?_) (add_le_add_left ho _)
        simp only [ledger, Op.ledger, carried_nil, outbound_add, outbound_zero]
        abel
    · exact .ops (.refl _) rfl rfl
  | releaseBytes amount =>
    rintro history others ⟨hb, hr, ho, hl⟩
    rw [← append_nil history] at ho
    refine ⟨?_, hr, ho, hl⟩
    simp only [exec, ledger, Op.ledger, carried_nil, bytes_add, bytes_zero] at hb ⊢
    rw [wrappingSub, if_pos (by omega)]
    omega
  | releaseRecord =>
    rintro history others ⟨hb, hr, ho, hl⟩
    rw [← append_nil history] at ho
    refine ⟨hb, ?_, ho, hl⟩
    simp only [exec, ledger, Op.ledger, carried_nil, records_add, records_zero] at hr ⊢
    rw [wrappingSub, if_pos (by omega)]
    omega

lemma ledger_handleCommand (command : Command) :
    carried Op.ledger (handleCommand command) = heldLedger (sends [command]) := by
  cases command with
  | send generation payload => rfl
  | signal signal =>
    cases signal with
    | background value => cases value <;> rfl
    | _ => rfl

lemma Frames.pop {ops : List Op} (hop : op.ledger = 0) (hcmds : s.commands = command :: commands)
    (hops : Ledger.Keeps (carried Op.ledger ops) (heldLedger (sends [command]))) :
    Frames s w op { shared := { s with commands }, thread := ⟨w, ops⟩ } := by
  rintro history others ⟨hb, hr, ho, hl⟩
  have hsends : sends s.commands = sends [command] ++ sends commands := by
    rw [hcmds, ← sends_append]
    rfl
  rw [hop, hsends] at ho
  rw [hop, hsends, recordBytes_append] at hb
  rw [hop, hsends, length_append] at hr
  rw [hop] at hl
  refine ⟨?_, ?_, ?_, ?_⟩
  · have := hops.bytes
    simp only [ledger, bytes_add, bytes_zero, bytes_heldLedger] at this hb ⊢
    omega
  · have := hops.records
    simp only [ledger, records_add, records_zero, records_heldLedger] at this hr ⊢
    omega
  · rw [toList_none, append_nil]
    refine le_trans ?_ ho
    have hle := add_le_add_left hops.outbound
      (writes history + sends commands + (heldLedger w.pending).outbound + others.outbound)
    refine le_trans (le_of_eq ?_) (hle.trans_eq ?_)
    · simp only [ledger, outbound_add]
      abel
    · simp only [outbound_add, outbound_zero, outbound_heldLedger, ← Multiset.coe_add]
      abel
  · have := hops.locks
    simp only [ledger, locks_add, locks_zero, locks_heldLedger] at this hl ⊢
    omega

lemma CommandOp.frames {op : CommandOp} (h : op.exec s w choice = some e) :
    Frames s w (.command op) e := by
  cases op with
  | drain | wait =>
    simp only [exec] at h
    split at h <;> cases h
    · exact .ops (.refl _) rfl rfl
    next command commands hcmds => exact .pop rfl hcmds (ledger_handleCommand command ▸ .refl _)
  | compare record =>
    simp only [exec] at h
    split_ifs at h <;> cases h
    · refine .thread ?_
      simp only [ledger, heldLedger_append, carried_nil, add_zero]
      exact .refl _
    · exact .ops (keeps_released record) rfl rfl
  | closeSocket =>
    cases h
    exact .thread (.refl _)
  | clearPending =>
    simp only [exec] at h
    split at h <;> cases h
    · exact .ops (.refl _) rfl rfl
    next record pending hpend =>
      refine .thread ?_
      rw [hpend]
      exact keeps_pending_head (keeps_released record)
  | drainCommands =>
    simp only [exec] at h
    split at h <;> cases h
    next generation payload commands hcmds =>
      exact .pop rfl hcmds (keeps_released (generation, payload))
    next signal commands hcmds => exact .pop rfl hcmds (.refl _)
    · exact .ops (.refl _) rfl rfl

lemma Frames.written {ops : List Op} (hops : carried Op.ledger ops = ⟨record.2.length, 1, 0, 0⟩) :
    Frames s w (.socket (.write socket generation record))
      { shared := s, thread := ⟨w, ops⟩, event := some (.written socket record.1 record.2) } := by
  rintro history others ⟨hb, hr, ho, hl⟩
  have hled : ledger ⟨w, ops⟩ = heldLedger w.pending + ⟨record.2.length, 1, 0, 0⟩ := by
    rw [ledger, hops]
  rw [hled]
  refine ⟨?_, hr, ?_, hl⟩
  · simpa [Op.ledger] using hb
  · have hacc : accepts [.written socket record.1 record.2] = 0 := rfl
    have hwri : writes [.written socket record.1 record.2] = {record} := rfl
    have hrec : (Op.ledger (.socket (.write socket generation record))).outbound = {record} := rfl
    rw [toList_some, accepts_append, hacc, add_zero, writes_append, hwri]
    refine le_trans (le_of_eq ?_) ho
    simp only [outbound_add, hrec]
    abel

lemma SocketOp.frames {op : SocketOp} (h : op.exec s w choice = some e) :
    Frames s w (.socket op) e := by
  cases op with
  | checkGeneration =>
    simp only [exec] at h
    split_ifs at h <;> cases h <;> exact .ops (.refl _) rfl rfl
  | attempt =>
    cases h
    refine .ops ?_ rfl rfl
    split_ifs <;> exact .refl _
  | loadAttempt =>
    cases h
    exact .ops (.refl _) rfl rfl
  | openSocket generation | service =>
    simp only [exec] at h
    split at h <;> cases h <;> exact .ops (.refl _) rfl rfl
  | confirmGeneration generation =>
    simp only [exec] at h
    split_ifs at h <;> cases h <;> exact .thread (.refl _)
  | flush socket generation =>
    simp only [exec] at h
    split at h
    · cases h
      exact .ops (.refl _) rfl rfl
    next record pending hpend =>
      split_ifs at h <;> cases h <;> refine .thread ?_ <;> rw [hpend]
      · exact keeps_pending_head (keeps_released record)
      · exact keeps_pending_head (.refl _)
  | write socket generation record =>
    simp only [exec] at h
    split at h <;> cases h <;> exact .written rfl
  | read generation =>
    simp only [exec] at h
    split at h <;> cases h
    · refine .ops ?_ rfl rfl
      split_ifs <;> exact .refl _
    all_goals exact .ops (.refl _) rfl rfl

lemma Op.frames (h : op.exec s w choice = some e) : Frames s w op e := by
  cases op with
  | shared op | command op | socket op => exact op.frames h
  | outbound op =>
    cases h
    exact op.frames

end Stasis.Network.Client
