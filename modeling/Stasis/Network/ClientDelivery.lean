import Stasis.Network.ClientIsolation

namespace Stasis.Network.Client

open ThreadSystem

variable {s : Shared} {first : ℕ} {history : List Event} {c d : Threads Shared Thread}
  {action : ThreadAction Choice ClientCall}

lemma inHand_enter (call : ClientCall) : inHand first (system.enter call).ops = 0 := by
  cases call with
  | send payload =>
    simp only [system, ClientCall.ops]
    split_ifs <;> rfl
  | _ => rfl

/-- From a state of the generation `base` on, whatever is in hand of a later generation has
been read. -/
def handled (base : ℕ) : Invariant system (Multiset Payload) where
  weight thread := inHand (base + 1) thread.ops
  holds history s hands := base ≤ s.generation ∧
    (.transition ∈ history → base < s.generation) ∧ hands ≤ receives history
  ok s thread := thread.Ok s
  enter_weight := inHand_enter
  enter_ok call _ := enter_ok _ call
  exec := by
    rintro history s thread choice effect others h hok ⟨hbase, htransition, hhands⟩
    obtain ⟨op, rest, e, hops, -, hsteps, rfl⟩ := execThread_steps hok h
    have hmoves := hsteps.moves (base + 1)
    refine ⟨hbase.trans hsteps.mono, fun hmem => ?_, ?_⟩
    · rcases List.mem_append.mp hmem with hmem | hmem
      · exact (htransition hmem).trans_le hsteps.mono
      · have hnext := hmoves.transition (Option.mem_toList.mp hmem)
        show base < e.shared.generation
        omega
    · rw [hops, ← List.singleton_append, inHand_append] at hhands
      rw [hsteps.spawned, carried_nil, add_zero, inHand_append, receives_append]
      calc inHand (base + 1) e.thread.ops + inHand (base + 1) rest + others
          ≤ inHand (base + 1) [op] + receives e.event.toList + inHand (base + 1) rest +
            others := by
            gcongr
            exact hmoves.hand
        _ = inHand (base + 1) [op] + inHand (base + 1) rest + others +
            receives e.event.toList := by abel
        _ ≤ receives history + receives e.event.toList := by gcongr
  exec_ok h hok _ := execThread_ok hok h
  stable := @Thread.Ok.stable

/-- After the queue has been cleared, the same is true of what stands in it and of what it
has delivered. -/
def fresh (first : ℕ) (earlier : Multiset Payload) : Invariant system (Multiset Payload) where
  weight thread := inHand first thread.ops
  holds history s hands := first ≤ s.generation ∧
    deliveries history + s.incoming + hands ≤ earlier + receives history
  ok s thread := thread.Ok s ∧ ∀ op ∈ thread.ops, op.Current first
  enter_weight := inHand_enter
  enter_ok call _ := by
    refine ⟨enter_ok _ call, ?_⟩
    cases call with
    | send payload =>
      simp only [system, ClientCall.ops]
      split_ifs <;> simp [Op.Current]
    | _ => simp [system, ClientCall.ops, Op.Current]
  exec := by
    rintro history s thread choice effect others h ⟨hok, hcurrent⟩ ⟨hfirst, hholds⟩
    obtain ⟨op, rest, e, hops, -, hsteps, rfl⟩ := execThread_steps hok h
    have hqueue := (hsteps.moves first).queue (hcurrent op (hops ▸ (.head _)))
    refine ⟨hfirst.trans hsteps.mono, ?_⟩
    rw [hops, ← List.singleton_append, inHand_append] at hholds
    rw [hsteps.spawned, carried_nil, add_zero, inHand_append, deliveries_append, receives_append]
    calc deliveries history + deliveries e.event.toList + e.shared.incoming +
          (inHand first e.thread.ops + inHand first rest + others)
        = deliveries e.event.toList + e.shared.incoming + inHand first e.thread.ops +
          (deliveries history + inHand first rest + others) := by abel
      _ ≤ s.incoming + inHand first [op] + receives e.event.toList +
          (deliveries history + inHand first rest + others) := by gcongr
      _ = deliveries history + s.incoming + (inHand first [op] + inHand first rest + others) +
          receives e.event.toList := by abel
      _ ≤ earlier + receives history + receives e.event.toList := by gcongr
      _ = earlier + (receives history + receives e.event.toList) := add_assoc _ _ _
  exec_ok := by
    rintro history s thread choice effect others h ⟨hok, hcurrent⟩ ⟨hfirst, -⟩
    obtain ⟨hnext, -⟩ := execThread_ok hok h
    obtain ⟨op, rest, e, hops, -, hsteps, rfl⟩ := execThread_steps hok h
    rw [hsteps.spawned]
    refine ⟨⟨hnext, fun op' hop' => ?_⟩, nofun⟩
    rcases List.mem_append.mp hop' with hop' | hop'
    · exact (hsteps.moves first).current hfirst op' hop'
    · exact hcurrent op' (hops ▸ .tail _ hop')
  stable h hok hother := ⟨hother.1.mono (execThread_mono hok.1 h), hother.2⟩

lemma Thread.Ok.incoming_le {thread : Thread} (hok : thread.Ok s) (hop : op ∈ thread.ops)
    (h : op.incoming? = some record) :
    record.1 ≤ s.generation := by
  have hopOk := hok.ops op hop
  unfold Op.incoming? at h
  split at h <;> cases h <;> exact hopOk

lemma carried_inHand_eq_zero {threads : List Thread} (hok : ∀ thread ∈ threads, thread.Ok s) :
    carried (fun thread => inHand (s.generation + 1) thread.ops) threads = 0 := by
  refine List.sum_eq_zero fun hands hhands => ?_
  obtain ⟨thread, hthr, rfl⟩ := List.mem_map.mp hhands
  refine inHand_eq_zero fun op hop record hrec => ?_
  exact Nat.lt_succ_of_le ((hok thread hthr).incoming_le hop hrec)

lemma step_cleared (hok : ∀ thread ∈ c.threads, thread.Ok c.shared)
    (h : system.step c action = some (d, some .cleared)) :
    d.shared.incoming = [] ∧ d.shared.incomingLocked = false := by
  cases action with
  | call k => cases h
  | run i choice =>
    obtain ⟨thread, hthr, h⟩ := Option.bind_eq_some_iff.mp h
    obtain ⟨effect, heff, h⟩ := Option.bind_eq_some_iff.mp h
    obtain ⟨op, rest, e, -, -, hsteps, rfl⟩ :=
      execThread_steps (hok thread (List.mem_of_getElem? hthr)) heff
    simp only [pure, Option.some.injEq, Prod.mk.injEq] at h
    obtain ⟨rfl, hevent⟩ := h
    exact (hsteps.moves 0).cleared hevent

lemma locks_eq_zero {α : Type} {weight : α → Ledger} {l : List α}
    (h : (carried weight l).locks = 0) : ∀ x ∈ l, (weight x).locks = 0 := by
  induction l with
  | nil => exact nofun
  | cons x l ih =>
    rw [carried_cons, Ledger.locks_add] at h
    exact List.forall_mem_cons.mpr ⟨by omega, ih (by omega)⟩

lemma current_of_unlocked (hat : ledger.At history c) (hfree : c.shared.incomingLocked = false) :
    ∀ thread ∈ c.threads, ∀ op ∈ thread.ops, op.Current first := by
  intro thread hthr op hop
  have hlocks : (carried Thread.ledger c.threads).locks = 0 :=
    hat.holds.1.lock.trans (by rw [hfree]; rfl)
  have hthrLo := locks_eq_zero hlocks thread hthr
  rw [Thread.ledger, Ledger.locks_add, locks_heldLedger, Nat.zero_add] at hthrLo
  have hopLo := locks_eq_zero hthrLo op hop
  unfold Op.Current
  split
  · cases hopLo
  · trivial

/-- What is delivered after the queue has been cleared was read after the transition before. -/
lemma deliveries_le
    (h : system.Reaches start (before ++ .transition :: (between ++ .cleared :: after)) d) :
    deliveries after ≤ receives (between ++ after) := by
  obtain ⟨c₁, action₁, c₂, hbef, htrans, h⟩ := h.split
  obtain ⟨c₃, action₃, c₄, hbet, hcle, hafter⟩ := h.split
  have hled₁ := ledger_at hbef
  have hled₃ := (hled₁.step htrans).reaches hbet
  have hled₄ := hled₃.step hcle
  obtain ⟨hempty, hfree⟩ := step_cleared hled₃.ok hcle
  -- the transition finds nothing of the generation it starts in hand
  have hstart : (handled c₁.shared.generation).At [] c₁ :=
    ⟨⟨le_rfl, nofun, (carried_inHand_eq_zero hled₁.ok).le⟩, hled₁.ok⟩
  have hhan := ((hstart.step htrans).reaches hbet).step hcle
  obtain ⟨-, hgen, hhands⟩ := hhan.holds
  -- and the queue is cleared while nothing is on its way into it
  have hclear : (fresh (c₁.shared.generation + 1) (receives between)).At [] c₄ := by
    refine ⟨⟨hgen (by simp), ?_⟩, fun thread hthr => ⟨hhan.ok thread hthr, ?_⟩⟩
    · have hread : receives (([] ++ [.transition] ++ between) ++ [.cleared]) =
          receives between := by
        rw [receives_append, receives_append]
        exact (add_zero _).trans (zero_add _)
      calc deliveries [] + (c₄.shared.incoming : Multiset Payload) + _
          = carried (fun thread => inHand (c₁.shared.generation + 1) thread.ops) c₄.threads := by
            rw [hempty]
            exact zero_add _
        _ ≤ receives between := hread ▸ hhands
        _ ≤ receives between + receives [] := Multiset.le_add_right _ _
    · exact current_of_unlocked hled₄ hfree thread hthr
  have hdel := (hclear.reaches hafter).holds.2
  rw [List.nil_append] at hdel
  rw [receives_append]
  exact ((Multiset.le_add_right _ _).trans (Multiset.le_add_right _ _)).trans hdel

def pendingRecords (threads : List Thread) : List (ℕ × Payload) :=
  threads.flatMap (·.worker.pending)

/-- What the operations that have begun hold, between a reservation and the queue it is for,
or between a queue and the release. -/
def inProgress (threads : List Thread) : Ledger :=
  carried (fun thread => carried Op.ledger thread.ops) threads

lemma carried_ledger (threads : List Thread) :
    carried Thread.ledger threads = heldLedger (pendingRecords threads) + inProgress threads := by
  induction threads with
  | nil => rfl
  | cons thread threads ih =>
    simp only [carried_cons, ih, Thread.ledger, pendingRecords, inProgress, List.flatMap_cons,
      heldLedger_append]
    abel

/-- Over every run of the client: a payload is written only to a socket of the generation it
was accepted under; what is delivered after the queue has been cleared was read after the last
transition; and the counters are what the two queues and the operations in progress hold. -/
theorem client_generation_isolation (schedule : List (ThreadAction Choice ClientCall)) :
    let c := (system.runs start schedule).1
    let trace := (system.runs start schedule).2
    (∀ socket generation payload, .written socket generation payload ∈ trace →
        socket = generation) ∧
      writes trace ≤ accepts trace ∧
      (∀ before between after,
        trace = before ++ .transition :: (between ++ .cleared :: after) →
          deliveries after ≤ receives (between ++ after)) ∧
      c.shared.outboundBytes = recordBytes (sends c.shared.commands) +
        recordBytes (pendingRecords c.threads) + (inProgress c.threads).bytes ∧
      c.shared.outboundRecords = (sends c.shared.commands).length +
        (pendingRecords c.threads).length + (inProgress c.threads).records := by
  intro c trace
  have hreaches : system.Reaches start trace c := system.reaches_runs start schedule
  obtain ⟨hbalanced, hwritten⟩ := (ledger_at hreaches).holds
  change Balanced trace c.shared (carried Thread.ledger c.threads) at hbalanced
  rw [carried_ledger] at hbalanced
  refine ⟨hwritten, ?_, ?_, ?_, ?_⟩
  · calc writes trace
        ≤ writes trace + sends c.shared.commands + _ :=
          (Multiset.le_add_right _ _).trans (Multiset.le_add_right _ _)
      _ ≤ accepts trace := hbalanced.outbound
  · intro before between after htrace
    exact deliveries_le (htrace ▸ hreaches)
  · rw [hbalanced.bytes, Ledger.bytes_add, bytes_heldLedger, Nat.add_assoc]
  · rw [hbalanced.records, Ledger.records_add, records_heldLedger, Nat.add_assoc]

/-- A `send` that has made its reservation and not yet put its payload into the queue. -/
def reservedSchedule : List (ThreadAction Choice ClientCall) :=
  [.call .connect, .run 1 .none, .call (.send [0]), .run 2 .none, .run 2 .none, .run 2 .none,
    .run 2 .none, .run 2 .none]

theorem reservation_counted_outside_queues :
    let c := (system.runs start reservedSchedule).1
    c.shared.outboundBytes = 1 ∧ c.shared.outboundRecords = 1 ∧
      sends c.shared.commands = [] ∧ pendingRecords c.threads = [] := by
  decide

end Stasis.Network.Client
