import Stasis.Network.ClientLedger

namespace Stasis.Network.Client

open Multiset
open Option
open ThreadSystem

def BranchOp.Ok (s : Shared) : BranchOp → Prop
  | .flushGeneration socket generation record | .flushDesired socket generation record
  | .flushBackground socket generation record =>
    socket = generation ∧ record.1 = generation ∧ generation ≤ s.generation
  | .incomingAccepting generation _ | .incomingDesired generation _
  | .incomingBackground generation _ | .incomingGeneration generation _ =>
    generation ≤ s.generation
  | _ => True

def Op.Ok (s : Shared) : Op → Prop
  | .shared (.branch op) => op.Ok s
  | .shared (.lock generation _) | .shared (.push generation _) | .socket (.read generation) =>
    generation ≤ s.generation
  | .socket (.flush target generation) => target = generation ∧ generation ≤ s.generation
  | .socket (.write target generation record) =>
    target = generation ∧ record.1 = generation ∧ generation ≤ s.generation
  | _ => True

def OpsOk (s : Shared) (ops : List Op) : Prop := ∀ op ∈ ops, op.Ok s

structure Worker.Ok (s : Shared) (w : Worker) : Prop where
  socket : ∀ generation, w.socket = some generation → generation = w.socketGeneration
  generation : w.socketGeneration ≤ s.generation

structure Thread.Ok (s : Shared) (thread : Thread) : Prop where
  worker : thread.worker.Ok s
  ops : OpsOk s thread.ops

variable {s s' : Shared} {w : Worker} {choice : Choice} {e : OpEffect}

@[simp] lemma opsOk_nil : OpsOk s [] := nofun

variable {op : Op}

@[simp] lemma opsOk_cons {ops : List Op} : OpsOk s (op :: ops) ↔ op.Ok s ∧ OpsOk s ops :=
  List.forall_mem_cons

@[simp] lemma opsOk_append {ops ops' : List Op} :
    OpsOk s (ops ++ ops') ↔ OpsOk s ops ∧ OpsOk s ops' :=
  List.forall_mem_append

@[simp] lemma opsOk_releaseOutbound (payload : Payload) : OpsOk s (releaseOutbound payload) := by
  simp [releaseOutbound, Op.Ok]

@[simp] lemma opsOk_lost : OpsOk s lost := by
  simp [lost, Op.Ok, BranchOp.Ok]

@[simp] lemma opsOk_stale : OpsOk s stale := by
  simp [stale, Op.Ok]

@[simp] lemma opsOk_inactive : OpsOk s inactive := by
  simp [inactive, Op.Ok, BranchOp.Ok]

@[simp] lemma opsOk_handleCommand (command : Command) : OpsOk s (handleCommand command) := by
  unfold handleCommand
  split <;> simp [Op.Ok]

section Mono

variable (hle : s.generation ≤ s'.generation)
include hle

lemma BranchOp.Ok.mono {op : BranchOp} (h : op.Ok s) : op.Ok s' := by
  cases op with
  | flushGeneration | flushDesired | flushBackground => exact ⟨h.1, h.2.1, h.2.2.trans hle⟩
  | incomingAccepting | incomingDesired | incomingBackground | incomingGeneration =>
    exact Nat.le_trans h hle
  | _ => trivial

lemma Op.Ok.mono (h : op.Ok s) : op.Ok s' := by
  rcases op with op | op | op | op
  · cases op with
    | branch op => exact BranchOp.Ok.mono hle h
    | lock | push => exact Nat.le_trans h hle
    | _ => trivial
  · trivial
  · trivial
  · cases op with
    | flush => exact ⟨h.1, h.2.trans hle⟩
    | write => exact ⟨h.1, h.2.1, h.2.2.trans hle⟩
    | read => exact Nat.le_trans h hle
    | _ => trivial

lemma OpsOk.mono {ops : List Op} (h : OpsOk s ops) : OpsOk s' ops := fun op hop =>
  (h op hop).mono hle

lemma Worker.Ok.mono (h : w.Ok s) : w.Ok s' := ⟨h.socket, h.generation.trans hle⟩

variable {thread : Thread}

lemma Thread.Ok.mono (h : thread.Ok s) : thread.Ok s' :=
  ⟨h.worker.mono hle, h.ops.mono hle⟩

end Mono

/-- The record that an operation is going to put into the incoming queue, with the generation
of the socket it was read from. -/
def Op.incoming? : Op → Option (ℕ × Payload)
  | .shared (.branch (.incomingAccepting generation payload))
  | .shared (.branch (.incomingDesired generation payload))
  | .shared (.branch (.incomingBackground generation payload))
  | .shared (.branch (.incomingGeneration generation payload))
  | .shared (.lock generation payload) | .shared (.push generation payload) =>
    some (generation, payload)
  | _ => none

/-- The records in hand that were read under the generation `first` or a later one. -/
def inHand (first : ℕ) (ops : List Op) : Multiset Payload :=
  ((ops.filterMap Op.incoming?).filter (first ≤ ·.1)).map (·.2)

/-- A record that is about to be put into the queue is not of an earlier generation. -/
def Op.Current (first : ℕ) : Op → Prop
  | .shared (.push generation _) => first ≤ generation
  | _ => True

def Event.received? : Event → Option Payload
  | .received payload => some payload
  | _ => none

def Event.delivered? : Event → Option Payload
  | .delivered payload => some payload
  | _ => none

def receives (history : List Event) : Multiset Payload := history.filterMap Event.received?

def deliveries (history : List Event) : Multiset Payload := history.filterMap Event.delivered?

variable {first : ℕ}

@[simp] lemma inHand_append (ops ops' : List Op) :
    inHand first (ops ++ ops') = inHand first ops + inHand first ops' := by
  simp [inHand]

@[simp] lemma receives_append (history events : List Event) :
    receives (history ++ events) = receives history + receives events := by
  simp [receives]

@[simp] lemma deliveries_append (history events : List Event) :
    deliveries (history ++ events) = deliveries history + deliveries events := by
  simp [deliveries]

lemma inHand_eq_zero {ops : List Op}
    (h : ∀ op ∈ ops, ∀ record, op.incoming? = some record → record.1 < first) :
    inHand first ops = 0 := by
  have hempty : (ops.filterMap Op.incoming?).filter (first ≤ ·.1) = [] := by
    refine List.filter_eq_nil_iff.mpr fun record hrec => ?_
    obtain ⟨op, hop, heq⟩ := List.mem_filterMap.mp hrec
    simpa using h op hop record heq
  simp [inHand, hempty]

@[simp] lemma incoming_handleCommand (command : Command) :
    (handleCommand command).filterMap Op.incoming? = [] := by
  unfold handleCommand
  split <;> rfl

/-- A record comes into hand when it is read, goes from there into the queue, and leaves the
queue when it is delivered. -/
structure Moves (first : ℕ) (s : Shared) (op : Op) (e : OpEffect) : Prop where
  hand : inHand first e.thread.ops ≤ inHand first [op] + receives e.event.toList
  queue : op.Current first →
    deliveries e.event.toList + e.shared.incoming + inHand first e.thread.ops ≤
      s.incoming + inHand first [op] + receives e.event.toList
  current : first ≤ s.generation → ∀ op' ∈ e.thread.ops, op'.Current first
  transition : e.event = some .transition → e.shared.generation = s.generation + 1
  cleared : e.event = some .cleared → e.shared.incoming = [] ∧ e.shared.incomingLocked = false

/-- The events that are not about the incoming queue or the generation. -/
def Event.Outbound : Event → Prop
  | .accepted _ _ | .written _ _ _ => True
  | _ => False

lemma current_of_incoming {ops : List Op} (h : ops.filterMap Op.incoming? = []) :
    ∀ op ∈ ops, op.Current first := by
  intro op hop
  have hnone := List.filterMap_eq_nil_iff.mp h op hop
  unfold Op.Current
  split
  · cases hnone
  · trivial

variable {event : Option Event}

lemma Moves.keep {ops : List Op} (hinc : s'.incoming = s.incoming)
    (hops : (ops.filterMap Op.incoming?).Sublist op.incoming?.toList)
    (hcur : first ≤ s.generation → ∀ op' ∈ ops, op'.Current first)
    (hevent : ∀ x ∈ event, x.Outbound) :
    Moves first s op { shared := s', thread := ⟨w, ops⟩, event } := by
  have hhand : inHand first ops ≤ inHand first [op] := by
    refine coe_le.mpr (((hops.trans ?_).filter _).map _).subperm
    cases h : op.incoming? <;> simp [h]
  have hnone : receives event.toList = 0 ∧ deliveries event.toList = 0 := by
    cases event with
    | none => exact ⟨rfl, rfl⟩
    | some x =>
      have hx := hevent x rfl
      cases x <;> first | exact ⟨rfl, rfl⟩ | exact hx.elim
  constructor
  · exact hhand.trans (le_add_right _ _)
  · intro _
    simpa [hnone, hinc] using hhand
  · exact hcur
  all_goals
    rintro rfl
    exact (hevent _ rfl).elim

lemma Moves.apart {ops : List Op} (hinc : s'.incoming = s.incoming)
    (hops : ops.filterMap Op.incoming? = []) (hevent : ∀ x ∈ event, x.Outbound) :
    Moves first s op { shared := s', thread := ⟨w, ops⟩, event } :=
  .keep hinc (hops ▸ List.nil_sublist _) (fun _ => current_of_incoming hops) hevent

lemma BranchOp.paths_incoming (op : BranchOp) :
    (op.paths.2.1.filterMap Op.incoming?).Sublist (branch op).incoming?.toList ∧
      (op.paths.2.2.filterMap Op.incoming?).Sublist (branch op).incoming?.toList := by
  cases op <;> constructor <;> first | exact List.nil_sublist _ | exact List.Sublist.refl _

lemma BranchOp.paths_current {op : BranchOp} (hgen : first ≤ s.generation) :
    (op.paths.1.holds s → ∀ op' ∈ op.paths.2.1, op'.Current first) ∧
      ∀ op' ∈ op.paths.2.2, op'.Current first := by
  cases op with
  | incomingGeneration generation payload =>
    constructor
    · intro hequal op' hop'
      obtain rfl := List.mem_singleton.mp hop'
      have : s.generation = generation := by simpa [paths, Test.holds] using hequal
      exact this ▸ hgen
    · simp [paths, Op.Current]
  | _ =>
    constructor
    all_goals simp [paths, Op.Current, inactive, stale, releaseOutbound]

lemma BranchOp.paths_ok {op : BranchOp} (h : op.Ok s) :
    OpsOk s op.paths.2.1 ∧ OpsOk s op.paths.2.2 := by
  cases op <;> simp_all [paths, Ok, Op.Ok]

/-- The generation only grows, the thread stays with it, and a payload is written to a socket
of its own generation. -/
structure Steps (s : Shared) (op : Op) (e : OpEffect) : Prop where
  mono : s.generation ≤ e.shared.generation
  thread : e.thread.Ok e.shared
  written : ∀ socket generation payload, e.event = some (.written socket generation payload) →
    socket = generation
  spawned : e.spawned = []
  moves : ∀ first, Moves first s op e

lemma Steps.moving {ops : List Op} (hw : w.Ok s)
    (hle : s.generation ≤ s'.generation) (hops : OpsOk s' ops)
    (hevent : ∀ socket generation payload, event ≠ some (.written socket generation payload))
    (hmoves : ∀ first, Moves first s op { shared := s', thread := ⟨w, ops⟩, event }) :
    Steps s op { shared := s', thread := ⟨w, ops⟩, event } :=
  ⟨hle, ⟨hw.mono hle, hops⟩, fun _ _ _ h => absurd h (hevent _ _ _), rfl, hmoves⟩

lemma Steps.ops {ops : List Op} (hw : w.Ok s) (hle : s.generation ≤ s'.generation)
    (hinc : s'.incoming = s.incoming) (hops : OpsOk s' ops)
    (hnone : ops.filterMap Op.incoming? = []) :
    Steps s op { shared := s', thread := ⟨w, ops⟩ } :=
  .moving hw hle hops nofun fun _ => .apart hinc hnone nofun

lemma SharedOp.steps {op : SharedOp} (hop : (Op.shared op).Ok s) (hw : w.Ok s)
    (h : op.exec s w = some e) : Steps s (.shared op) e := by
  cases op with
  | assign assignment =>
    cases h
    cases assignment <;> exact .ops hw le_rfl rfl opsOk_nil rfl
  | branch op =>
    cases h
    split_ifs with htest
    · exact .moving hw le_rfl (BranchOp.paths_ok hop).1 (by simp) fun _ => .keep rfl
        op.paths_incoming.1 (fun hfirst => (BranchOp.paths_current hfirst).1 htest) (by simp)
    · exact .moving hw le_rfl (BranchOp.paths_ok hop).2 (by simp) fun _ => .keep rfl
        op.paths_incoming.2 (fun hfirst => (BranchOp.paths_current hfirst).2) (by simp)
  | bumpGeneration transition =>
    cases h
    cases transition with
    | false => exact .ops hw (Nat.le_succ _) rfl opsOk_nil rfl
    | true =>
      refine .moving hw (Nat.le_succ _) opsOk_nil (by simp) fun first => ?_
      refine ⟨le_rfl, fun _ => le_of_eq ?_, by simp, fun _ => rfl, by simp⟩
      show (0 : Multiset Payload) + s.incoming + 0 = s.incoming + 0 + 0
      simp
  | swapBackground value =>
    simp only [exec] at h
    split_ifs at h <;> cases h <;> exact .ops hw le_rfl rfl (by simp [Op.Ok, BranchOp.Ok]) rfl
  | clearIncoming =>
    simp only [exec] at h
    split_ifs at h with hloc
    cases h
    refine .moving hw le_rfl opsOk_nil (by simp) fun first => ?_
    exact ⟨le_rfl, fun _ => zero_le _, by simp, by simp, fun _ => ⟨rfl, by simpa using hloc⟩⟩
  | poll capacity =>
    simp only [exec] at h
    split_ifs at h
    split at h
    · cases h
      exact .ops hw le_rfl rfl opsOk_nil rfl
    next record records hrec =>
      split_ifs at h <;> cases h
      · exact .ops hw le_rfl rfl opsOk_nil rfl
      · refine .moving hw le_rfl opsOk_nil (by simp) fun first => ?_
        refine ⟨le_rfl, fun _ => le_of_eq ?_, by simp, by simp, by simp⟩
        show ({record} : Multiset Payload) + records + 0 = s.incoming + 0 + 0
        simp [hrec]
  | sendSignal signal =>
    simp only [exec] at h
    split_ifs at h <;> cases h <;> exact .ops hw le_rfl rfl opsOk_nil rfl
  | lock generation payload =>
    simp only [exec] at h
    split_ifs at h
    cases h
    exact .moving hw le_rfl (opsOk_cons.mpr ⟨hop, opsOk_nil⟩) (by simp) fun _ =>
      .keep rfl (List.Sublist.refl _) (fun _ => by simp [Op.Current]) (by simp)
  | push generation payload =>
    simp only [exec] at h
    split_ifs at h <;> cases h
    · exact .ops hw le_rfl rfl (by simp [Op.Ok]) rfl
    · refine .moving hw le_rfl (by simp [Op.Ok]) (by simp) fun first => ?_
      refine ⟨zero_le _, fun hcur => le_of_eq ?_, ?_, by simp, by simp⟩
      · have hfirst : first ≤ generation := hcur
        have hhand : inHand first [.shared (.push generation payload)] = {payload} := by
          simp [inHand, Op.incoming?, hfirst]
        show (0 : Multiset Payload) + (s.incoming ++ [payload] : List Payload) + 0 =
          s.incoming + inHand first [.shared (.push generation payload)] + 0
        simp [hhand, ← coe_add]
      · exact fun _ => current_of_incoming rfl
  | unlock =>
    cases h
    exact .ops hw le_rfl rfl opsOk_nil rfl

lemma OutboundOp.steps (op : OutboundOp) (hw : w.Ok s) : Steps s (.outbound op) (op.exec s w) := by
  cases op with
  | exchangeBytes current payload | reserveRecord payload =>
    simp only [exec]
    split_ifs <;> exact .ops hw le_rfl rfl (by simp [Op.Ok]) rfl
  | sendPayload generation payload =>
    simp only [exec]
    split_ifs
    · exact .moving hw le_rfl opsOk_nil (by simp) fun _ => .apart rfl rfl (by simp [Event.Outbound])
    · exact .ops hw le_rfl rfl (by simp) rfl
  | _ => exact .ops hw le_rfl rfl (by simp [Op.Ok]) rfl

lemma CommandOp.steps {op : CommandOp} (hw : w.Ok s) (h : op.exec s w choice = some e) :
    Steps s (.command op) e := by
  have hclo : ({ w with socket := none } : Worker).Ok s := ⟨nofun, hw.generation⟩
  have hpend (pending : List (ℕ × Payload)) : ({ w with pending } : Worker).Ok s :=
    ⟨hw.socket, hw.generation⟩
  cases op with
  | drain | wait =>
    simp only [exec] at h
    split at h <;> cases h <;> exact .ops hw le_rfl rfl (by simp [Op.Ok]) (by first | rfl | simp)
  | compare record =>
    simp only [exec] at h
    split_ifs at h <;> cases h
    · exact .ops (hpend _) le_rfl rfl opsOk_nil rfl
    · exact .ops hw le_rfl rfl (by simp) rfl
  | closeSocket =>
    cases h
    exact .ops hclo le_rfl rfl opsOk_nil rfl
  | clearPending =>
    simp only [exec] at h
    split at h <;> cases h
    · exact .ops hw le_rfl rfl opsOk_nil rfl
    · exact .ops (hpend _) le_rfl rfl (by simp [Op.Ok]) rfl
  | drainCommands =>
    simp only [exec] at h
    split at h <;> cases h <;> exact .ops hw le_rfl rfl (by simp [Op.Ok]) rfl

lemma SocketOp.steps {op : SocketOp} (hop : (Op.socket op).Ok s) (hw : w.Ok s)
    (h : op.exec s w choice = some e) : Steps s (.socket op) e := by
  have hpend (pending : List (ℕ × Payload)) : ({ w with pending } : Worker).Ok s :=
    ⟨hw.socket, hw.generation⟩
  cases op with
  | checkGeneration =>
    simp only [exec] at h
    split_ifs at h <;> cases h <;> exact .ops hw le_rfl rfl (by simp [Op.Ok, BranchOp.Ok]) rfl
  | attempt =>
    cases h
    split_ifs <;> exact .ops hw le_rfl rfl (by simp [Op.Ok]) rfl
  | loadAttempt =>
    cases h
    exact .ops hw le_rfl rfl (by simp [Op.Ok]) rfl
  | openSocket generation =>
    simp only [exec] at h
    split at h <;> cases h <;> exact .ops hw le_rfl rfl (by simp [Op.Ok, BranchOp.Ok]) rfl
  | confirmGeneration generation =>
    simp only [exec] at h
    split_ifs at h with hgen <;> cases h
    · exact .ops ⟨fun _ h => (some.inj h).symm, hgen.ge⟩ le_rfl rfl
        (by simp [Op.Ok]) rfl
    · exact .ops hw le_rfl rfl opsOk_stale rfl
  | service =>
    simp only [exec] at h
    split at h <;> cases h
    next socket hsoc =>
      refine .ops hw le_rfl rfl (opsOk_cons.mpr ⟨?_, opsOk_nil⟩) rfl
      exact ⟨hw.socket socket hsoc, hw.generation⟩
    · exact .ops hw le_rfl rfl (by simp [Op.Ok]) rfl
  | flush socket generation =>
    simp only [exec] at h
    split at h
    · cases h
      exact .ops hw le_rfl rfl (opsOk_cons.mpr ⟨hop.2, opsOk_nil⟩) rfl
    next record pending hrec =>
      split_ifs at h with hgen <;> cases h
      · exact .ops (hpend _) le_rfl rfl
          (opsOk_append.mpr ⟨by simp, opsOk_cons.mpr ⟨hop, opsOk_nil⟩⟩) rfl
      · refine .ops (hpend _) le_rfl rfl (opsOk_cons.mpr ⟨?_, opsOk_nil⟩) rfl
        exact ⟨hop.1, not_not.mp hgen, hop.2⟩
  | write socket generation record =>
    have hwri : socket = record.1 := hop.1.trans hop.2.1.symm
    simp only [exec] at h
    split at h <;> cases h <;>
      refine ⟨le_rfl, ⟨hw, ?_⟩, fun _ _ _ h => by cases h; exact hwri, rfl,
        fun _ => .apart rfl rfl (by simp [Event.Outbound])⟩
    · exact opsOk_append.mpr ⟨by simp, opsOk_cons.mpr ⟨⟨hop.1, hop.2.2⟩, opsOk_nil⟩⟩
    · simp
  | read generation =>
    simp only [exec] at h
    split at h <;> cases h
    next payload =>
      refine .moving hw le_rfl ?_ (by simp) fun first => ?_
      · split_ifs
        · exact opsOk_lost
        · exact opsOk_cons.mpr ⟨hop, by simp [Op.Ok]⟩
      -- the record is in hand, unless it is too long or its socket is an old one
      have hhand : inHand first (if payload.length > maxMessageBytes then lost
          else [.shared (.lock generation payload), .command .drain]) ≤ {payload} := by
        split_ifs
        · exact zero_le _
        · by_cases hfirst : first ≤ generation <;> simp [inHand, Op.incoming?, hfirst]
      refine ⟨hhand, fun _ => ?_, fun _ => ?_, by simp, by simp⟩
      · show (0 : Multiset Payload) + s.incoming + inHand first _ ≤ s.incoming + 0 + {payload}
        simpa using hhand
      · split_ifs <;> simp [lost, Op.Current]
    all_goals exact .ops hw le_rfl rfl (by simp [Op.Ok]) rfl

lemma Op.steps (hop : op.Ok s) (hw : w.Ok s) (h : op.exec s w choice = some e) : Steps s op e := by
  cases op with
  | shared op => exact SharedOp.steps hop hw h
  | outbound op =>
    cases h
    exact op.steps hw
  | command op => exact op.steps hw h
  | socket op => exact SocketOp.steps hop hw h

lemma execThread_eq_some (h : execThread s thread choice = some e) :
    ∃ op rest e', thread.ops = op :: rest ∧ op.exec s thread.worker choice = some e' ∧
      e = { e' with thread := ⟨e'.thread.worker, e'.thread.ops ++ rest⟩ } := by
  unfold execThread at h
  split at h
  · cases h
  next op rest hops =>
    obtain ⟨e', he', rfl⟩ := map_eq_some_iff.mp h
    exact ⟨op, rest, e', hops, he', rfl⟩

lemma execThread_steps (hok : thread.Ok s)
    (h : execThread s thread choice = some e) : ∃ op rest e', thread.ops = op :: rest ∧
      op.exec s thread.worker choice = some e' ∧ Steps s op e' ∧
      e = { e' with thread := ⟨e'.thread.worker, e'.thread.ops ++ rest⟩ } := by
  obtain ⟨op, rest, e', hops, hexec, rfl⟩ := execThread_eq_some h
  exact ⟨op, rest, e', hops, hexec, Op.steps (hok.ops op (by simp [hops])) hok.worker hexec, rfl⟩

lemma execThread_mono {thread : Thread} (hok : thread.Ok s)
    (h : execThread s thread choice = some e) : s.generation ≤ e.shared.generation := by
  obtain ⟨op, rest, e', -, -, hsteps, rfl⟩ := execThread_steps hok h
  exact hsteps.mono

lemma Thread.Ok.stable {s : Shared} {thread : Thread} {choice : Choice} {e : OpEffect}
    {other : Thread} (h : system.exec s thread choice = some e) (hok : thread.Ok s)
    (hother : other.Ok s) : other.Ok e.shared :=
  hother.mono (execThread_mono hok h)

lemma execThread_ok {thread : Thread} (hok : thread.Ok s)
    (h : execThread s thread choice = some e) :
    e.thread.Ok e.shared ∧ ∀ u ∈ e.spawned, u.Ok e.shared := by
  obtain ⟨op, rest, e', hops, -, hsteps, rfl⟩ := execThread_steps hok h
  obtain ⟨-, hrest⟩ := opsOk_cons.mp (hops ▸ hok.ops)
  refine ⟨⟨hsteps.thread.worker, opsOk_append.mpr ⟨hsteps.thread.ops, hrest.mono hsteps.mono⟩⟩, ?_⟩
  rw [hsteps.spawned]
  exact nofun

lemma enter_ok (s : Shared) (call : ClientCall) : (system.enter call).Ok s := by
  refine ⟨⟨nofun, Nat.zero_le _⟩, ?_⟩
  cases call with
  | send payload =>
    simp only [system, ClientCall.ops]
    split_ifs <;> simp [Op.Ok, BranchOp.Ok]
  | _ => simp [system, ClientCall.ops, Op.Ok, BranchOp.Ok]

/-- The ledger of the client, and the generations its sockets are written with. -/
def ledger : Invariant system Ledger where
  weight := Thread.ledger
  holds history s m := Balanced history s m ∧
    ∀ socket generation payload, .written socket generation payload ∈ history →
      socket = generation
  ok s thread := thread.Ok s
  enter_weight call := by
    cases call with
    | send payload =>
      simp only [system, ClientCall.ops]
      split_ifs <;> rfl
    | _ => rfl
  enter_ok call _ := enter_ok _ call
  exec := by
    rintro history s thread choice effect others h hok ⟨hbalanced, hwritten⟩
    obtain ⟨op, rest, e, hops, hexec, hsteps, rfl⟩ := execThread_steps hok h
    constructor
    · rw [Thread.ledger, hops, carried_cons, ← add_assoc, add_assoc _ _ others] at hbalanced
      have hframe := Op.frames hexec history _ hbalanced
      rw [hsteps.spawned, carried_nil, add_zero]
      simpa only [Thread.ledger, carried_append, add_assoc] using hframe
    · intro socket generation payload hmem
      rcases List.mem_append.mp hmem with hmem | hmem
      · exact hwritten socket generation payload hmem
      · exact hsteps.written socket generation payload (Option.mem_toList.mp hmem)
  exec_ok h hok _ := execThread_ok hok h
  stable := @Thread.Ok.stable

lemma ledger_at {history : List Event} {c : Threads Shared Thread}
    (h : system.Reaches start history c) : ledger.At history c := by
  have hstart : ledger.At [] start := by
    refine ⟨⟨⟨rfl, rfl, le_rfl, rfl⟩, nofun⟩, ?_⟩
    intro thread hthr
    obtain rfl := List.mem_singleton.mp hthr
    exact ⟨⟨nofun, Nat.zero_le _⟩, by simp [Op.Ok]⟩
  exact hstart.reaches h

end Stasis.Network.Client
