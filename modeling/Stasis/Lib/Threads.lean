import Mathlib.Algebra.BigOperators.Group.List.Basic

namespace Stasis

open List
variable {σ τ γ κ ε : Type}

structure Effect (σ τ ε : Type) where
  shared : σ
  thread : τ
  spawned : List τ := []
  event : Option ε := none

structure ThreadSystem (σ τ γ κ ε : Type) where
  /-- The next step of a thread; there is none when it has ended or has to wait. -/
  exec : σ → τ → γ → Option (Effect σ τ ε)
  /-- The thread that a call starts. -/
  enter : κ → τ

structure Threads (σ τ : Type) where
  shared : σ
  threads : List τ

inductive ThreadAction (γ κ : Type)
  | run (index : ℕ) (choice : γ)
  | call (call : κ)

namespace ThreadSystem

variable (S : ThreadSystem σ τ γ κ ε)

def step (c : Threads σ τ) : ThreadAction γ κ → Option (Threads σ τ × Option ε)
  | .run i choice => do
    let thread ← c.threads[i]?
    let effect ← S.exec c.shared thread choice
    return (⟨effect.shared, c.threads.set i effect.thread ++ effect.spawned⟩, effect.event)
  | .call k => some (⟨c.shared, c.threads ++ [S.enter k]⟩, none)

/-- The run of a schedule.  An action that is not possible is passed over. -/
def runs (c : Threads σ τ) : List (ThreadAction γ κ) → Threads σ τ × List ε
  | [] => (c, [])
  | action :: actions =>
    match S.step c action with
    | none => runs c actions
    | some (next, event) => ((runs next actions).1, event.toList ++ (runs next actions).2)

inductive Reaches : Threads σ τ → List ε → Threads σ τ → Prop
  | refl (c : Threads σ τ) : Reaches c [] c
  | step {c d e : Threads σ τ} {action : ThreadAction γ κ} {event : Option ε} {events : List ε}
      (h : S.step c action = some (d, event)) (hs : Reaches d events e) :
      Reaches c (event.toList ++ events) e

lemma reaches_runs (c : Threads σ τ) (actions : List (ThreadAction γ κ)) :
    S.Reaches c (S.runs c actions).2 (S.runs c actions).1 := by
  induction actions generalizing c with
  | nil => exact .refl c
  | cons action actions ih =>
    rw [runs]
    split
    · exact ih c
    next next event h => exact .step h (ih next)

variable {S}

lemma Reaches.split {before after : List ε} (h : S.Reaches c (before ++ x :: after) d) :
    ∃ c₁ action c₂, S.Reaches c before c₁ ∧ S.step c₁ action = some (c₂, some x) ∧
      S.Reaches c₂ after d := by
  generalize heve : before ++ x :: after = events at h
  induction h generalizing before with
  | refl c => simp at heve
  | @step c c' d action event events hstep hs ih =>
    rcases event with _ | _
    · obtain ⟨c₁, action', c₂, hbef, hx, hafter⟩ := ih heve
      exact ⟨c₁, action', c₂, .step hstep hbef, hx, hafter⟩
    cases before with
    | nil =>
      obtain ⟨rfl, rfl⟩ := cons.inj heve
      exact ⟨c, action, c', .refl c, hstep, hs⟩
    | cons z before =>
      obtain ⟨rfl, htail⟩ := cons.inj heve
      obtain ⟨c₁, action', c₂, hbef, hx, hafter⟩ := ih htail
      exact ⟨c₁, action', c₂, .step hstep hbef, hx, hafter⟩

section Carried

variable {M : Type} [AddCommMonoid M]

def carried (weight : τ → M) (threads : List τ) : M := (threads.map weight).sum

variable (weight : τ → M)

@[simp] lemma carried_nil : carried weight ([] : List τ) = 0 := rfl

@[simp] lemma carried_cons (t : τ) (threads : List τ) :
    carried weight (t :: threads) = weight t + carried weight threads := by
  simp [carried]

@[simp] lemma carried_append (threads threads' : List τ) :
    carried weight (threads ++ threads') = carried weight threads + carried weight threads' := by
  simp [carried]

lemma exists_carried_eq (h : threads[i]? = some t) :
    ∃ others, carried weight threads = weight t + others ∧
      ∀ t', carried weight (threads.set i t') = weight t' + others := by
  induction threads generalizing i with
  | nil => simp at h
  | cons u threads ih =>
    cases i with
    | zero =>
      obtain rfl : u = t := by simpa using h
      exact ⟨carried weight threads, carried_cons _ _ _, fun t' => carried_cons _ _ _⟩
    | succ i =>
      obtain ⟨others, hoth, hset⟩ := ih (by simpa using h)
      refine ⟨weight u + others, ?_, fun t' => ?_⟩
      · rw [carried_cons, hoth, add_left_comm]
      · rw [set_cons_succ, carried_cons, hset, add_left_comm]

/-- An invariant of the events so far, the shared state and the sum of what the threads
carry, with a condition on each thread that the steps of the others keep. -/
structure Invariant (S : ThreadSystem σ τ γ κ ε) (M : Type) [AddCommMonoid M] where
  weight : τ → M
  holds : List ε → σ → M → Prop
  ok : σ → τ → Prop
  enter_weight : ∀ k, weight (S.enter k) = 0
  enter_ok : ∀ {history s sum} k, holds history s sum → ok s (S.enter k)
  exec : ∀ {history s t choice effect others}, S.exec s t choice = some effect → ok s t →
    holds history s (weight t + others) →
    holds (history ++ effect.event.toList) effect.shared
      (weight effect.thread + carried weight effect.spawned + others)
  exec_ok : ∀ {history s t choice effect others}, S.exec s t choice = some effect → ok s t →
    holds history s (weight t + others) →
    ok effect.shared effect.thread ∧ ∀ u ∈ effect.spawned, ok effect.shared u
  stable : ∀ {s t choice effect u}, S.exec s t choice = some effect → ok s t → ok s u →
    ok effect.shared u

namespace Invariant

variable (I : Invariant S M)

structure At (history : List ε) (c : Threads σ τ) : Prop where
  holds : I.holds history c.shared (carried I.weight c.threads)
  ok : ∀ t ∈ c.threads, I.ok c.shared t

variable {I}

lemma At.step (hat : I.At history c) (h : S.step c action = some (d, event)) :
    I.At (history ++ event.toList) d := by
  obtain ⟨hholds, hok⟩ := hat
  cases action with
  | call k =>
    cases h
    constructor
    · simpa [I.enter_weight] using hholds
    · intro t ht
      rcases mem_append.mp ht with ht | ht
      · exact hok t ht
      · rw [mem_singleton.mp ht]
        exact I.enter_ok k hholds
  | run i choice =>
    obtain ⟨t, ht, h⟩ := Option.bind_eq_some_iff.mp h
    obtain ⟨effect, heff, h⟩ := Option.bind_eq_some_iff.mp h
    cases h
    have hthr := hok t (mem_of_getElem? ht)
    obtain ⟨others, hoth, hset⟩ := exists_carried_eq I.weight ht
    rw [hoth] at hholds
    obtain ⟨hnext, hspa⟩ := I.exec_ok heff hthr hholds
    constructor
    · rw [carried_append, hset, add_right_comm]
      exact I.exec heff hthr hholds
    · intro u hu
      rcases mem_append.mp hu with hu | hu
      · rcases mem_or_eq_of_mem_set hu with hu | rfl
        · exact I.stable heff hthr (hok u hu)
        · exact hnext
      · exact hspa u hu

lemma At.reaches (hat : I.At history c) (h : S.Reaches c events d) :
    I.At (history ++ events) d := by
  induction h generalizing history with
  | refl c => rwa [append_nil]
  | step hstep _ ih =>
    rw [← append_assoc]
    exact ih (hat.step hstep)

end Invariant

end Carried

end ThreadSystem

end Stasis
