import Mathlib.Data.List.Basic
import Mathlib.Algebra.Order.BigOperators.Group.List
import Mathlib.Algebra.Order.Ring.Nat

namespace Stasis

open Prod
open List
variable {κ ν ε : Type} (visit : κ → Except ε (ν × List κ))

inductive Reach (roots : List κ) : κ → Prop
  | root {k} : k ∈ roots → Reach roots k
  | step {k v succ k'} : Reach roots k → visit k = .ok (v, succ) → k' ∈ succ → Reach roots k'

variable [DecidableEq κ]

/-- The worklist; `stuck` is reported when the fuel runs out. -/
def closureLoop (stuck : ε) : ℕ → List κ → List (κ × ν) → Except ε (List (κ × ν))
  | _, [], done => .ok done
  | 0, _ :: _, _ => .error stuck
  | fuel + 1, k :: pending, done =>
    if k ∈ done.map Prod.fst then closureLoop stuck fuel pending done
    else match visit k with
      | .error e => .error e
      | .ok (v, succ) =>
        closureLoop stuck fuel ((succ.filter fun k' => k' ∉ done.map Prod.fst) ++ pending)
          (done ++ [(k, v)])

def successorCount (k : κ) : ℕ :=
  match visit k with
  | .ok (_, succ) => succ.length
  | .error _ => 0

/-- The work that is left: what is pending, and what unvisited keys can add. -/
def workLeft (keys pending : List κ) (done : List (κ × ν)) : ℕ :=
  pending.length +
    ((keys.filter fun k => k ∉ done.map Prod.fst).map (successorCount visit)).sum

variable {visit}

/-- What holds while the worklist runs: everything seen is reachable, and every
successor of a visited key is visited or pending. -/
structure ClosureInvariant (visit : κ → Except ε (ν × List κ)) (roots pending : List κ)
    (done : List (κ × ν)) : Prop where
  reachable : ∀ k ∈ pending, Reach visit roots k
  visited : ∀ e ∈ done, Reach visit roots e.1 ∧ ∃ succ, visit e.1 = .ok (e.2, succ) ∧
    ∀ k ∈ succ, k ∈ done.map Prod.fst ∨ k ∈ pending
  covered : ∀ k ∈ roots, k ∈ done.map Prod.fst ∨ k ∈ pending
  nodup : (done.map Prod.fst).Nodup

namespace ClosureInvariant

variable {roots pending : List κ} {done : List (κ × ν)} {k : κ}

omit [DecidableEq κ] in
lemma start (roots : List κ) : ClosureInvariant visit roots roots [] :=
  ⟨fun _ h => .root h, by simp, fun _ h => .inr h, by simp⟩

variable (h : ClosureInvariant visit roots (k :: pending) done)
include h

omit [DecidableEq κ] in
lemma skip (hk : k ∈ done.map fst) : ClosureInvariant visit roots pending done := by
  have hmove : ∀ k', k' ∈ done.map fst ∨ k' ∈ k :: pending → k' ∈ done.map fst ∨ k' ∈ pending := by
    rintro k' (h | h)
    · exact .inl h
    · rcases mem_cons.mp h with rfl | h
      · exact .inl hk
      · exact .inr h
  refine ⟨fun k' hk' => h.reachable k' (.tail _ hk'), ?_,
    fun k' hk' => hmove k' (h.covered k' hk'), h.nodup⟩
  intro e he
  obtain ⟨hreach, succ, hvisit, hsucc⟩ := h.visited e he
  exact ⟨hreach, succ, hvisit, fun k' hk' => hmove k' (hsucc k' hk')⟩

lemma visit_head (hk : k ∉ done.map fst) (hvisit : visit k = .ok (v, succ)) :
    ClosureInvariant visit roots
      ((succ.filter fun k' => k' ∉ done.map fst) ++ pending) (done ++ [(k, v)]) := by
  have hreach := h.reachable k (.head _)
  have hmove : ∀ k', k' ∈ done.map fst ∨ k' ∈ k :: pending →
      k' ∈ (done ++ [(k, v)]).map fst ∨
        k' ∈ (succ.filter fun k' => k' ∉ done.map fst) ++ pending := by
    intro k' hk'
    simp only [map_append, map_cons, map_nil, mem_append, mem_singleton]
    rcases hk' with h | h
    · exact .inl (.inl h)
    · rcases mem_cons.mp h with rfl | h
      · exact .inl (.inr rfl)
      · exact .inr (.inr h)
  refine ⟨?_, ?_, fun k' hk' => hmove k' (h.covered k' hk'), ?_⟩
  · intro k' hk'
    rcases mem_append.mp hk' with hk' | hk'
    · exact .step hreach hvisit (mem_filter.mp hk').1
    · exact h.reachable k' (.tail _ hk')
  · intro e he
    rcases mem_append.mp he with he | he
    · obtain ⟨hr, succ', hv, hsucc⟩ := h.visited e he
      exact ⟨hr, succ', hv, fun k' hk' => hmove k' (hsucc k' hk')⟩
    · obtain rfl := mem_singleton.mp he
      refine ⟨hreach, succ, hvisit, fun k' hk' => ?_⟩
      by_cases hold : k' ∈ done.map fst
      · exact hmove k' (.inl hold)
      · exact .inr (mem_append_left _ (mem_filter.mpr ⟨hk', by simpa using hold⟩))
  · rw [map_append, map_cons, map_nil]
    exact nodup_append.mpr ⟨h.nodup, by simp, by
      rintro a ha b hb rfl
      obtain rfl : a = k := mem_singleton.mp hb
      exact hk ha⟩

omit h

omit [DecidableEq κ] in
lemma finished (h : ClosureInvariant visit roots [] done) (k : κ) :
    k ∈ done.map fst ↔ Reach visit roots k := by
  constructor
  · intro hk
    obtain ⟨e, he, rfl⟩ := mem_map.mp hk
    exact (h.visited e he).1
  · intro hreach
    induction hreach with
    | root hk => exact (h.covered _ hk).resolve_right (by simp)
    | step _ hvisit hk ih =>
      obtain ⟨e, he, rfl⟩ := mem_map.mp ih
      obtain ⟨-, succ, hv, hsucc⟩ := h.visited e he
      obtain ⟨-, rfl⟩ := mk.inj (Except.ok.inj (hv.symm.trans hvisit))
      exact (hsucc _ hk).resolve_right (by simp)

end ClosureInvariant

lemma closureLoop_invariant (h : closureLoop visit stuck fuel pending done = .ok result)
    (hinv : ClosureInvariant visit roots pending done) :
    ClosureInvariant visit roots [] result := by
  induction fuel generalizing pending done with
  | zero =>
    cases pending with
    | nil =>
      cases h
      exact hinv
    | cons k pending => cases h
  | succ fuel ih =>
    rcases pending with _ | ⟨_, _⟩
    · cases h
      exact hinv
    unfold closureLoop at h
    split_ifs at h with hk
    · exact ih h (hinv.skip hk)
    · split at h
      · cases h
      rename_i hvisit
      exact ih h (hinv.visit_head hk hvisit)

lemma sum_filter_unvisited {keys visited visited' : List κ} (hk : k ∈ keys) (hnew : k ∉ visited)
    (hvis : ∀ k', k' ∈ visited' ↔ k' = k ∨ k' ∈ visited) (f : κ → ℕ) :
    f k + ((keys.filter fun k' => k' ∉ visited').map f).sum ≤
      ((keys.filter fun k' => k' ∉ visited).map f).sum := by
  have hmono : ∀ l : List κ, ((l.filter fun k' => k' ∉ visited').map f).sum ≤
      ((l.filter fun k' => k' ∉ visited).map f).sum := by
    intro l
    refine List.Sublist.sum_le_sum (List.Sublist.map f ?_) fun _ _ => Nat.zero_le _
    apply monotone_filter_right
    intro k' hk'
    simp only [hvis, not_or, decide_eq_true_eq] at hk' ⊢
    exact hk'.2
  induction keys with
  | nil => cases hk
  | cons key keys ih =>
    by_cases hkey : key = k
    · subst hkey
      have hrest := hmono keys
      have hseen : key ∈ visited' := (hvis key).mpr (.inl rfl)
      simp only [filter_cons, hnew, hseen, not_false_eq_true, decide_true, if_true, not_true,
        decide_false, Bool.false_eq_true, if_false, map_cons, sum_cons] at hrest ⊢
      omega
    · have hrest := ih ((mem_cons.mp hk).resolve_left (Ne.symm hkey))
      by_cases hseen : key ∈ visited
      · have hseen' : key ∈ visited' := (hvis key).mpr (.inr hseen)
        simpa [filter_cons, hseen, hseen'] using hrest
      · have hseen' : key ∉ visited' := fun h => ((hvis key).mp h).elim hkey hseen
        simp only [filter_cons, hseen, hseen', not_false_eq_true, decide_true, if_true,
          map_cons, sum_cons] at hrest ⊢
        omega

/-- With enough fuel the worklist succeeds on a set of keys that can all be
visited and is closed under successors. -/
lemma closureLoop_complete {good : κ → Prop} {keys : List κ}
    (hgood : ∀ k, good k → ∃ v succ, visit k = .ok (v, succ) ∧ ∀ k' ∈ succ, good k')
    (hkeys : ∀ k, good k → k ∈ keys) (hpend : ∀ k ∈ pending, good k)
    (hfuel : workLeft visit keys pending done ≤ fuel) :
    ∃ result, closureLoop visit stuck fuel pending done = .ok result := by
  induction fuel generalizing pending done with
  | zero =>
    cases pending with
    | nil => exact ⟨done, rfl⟩
    | cons k pending => simp [workLeft] at hfuel
  | succ fuel ih =>
    rcases pending with _ | ⟨k, pending⟩
    · exact ⟨done, rfl⟩
    have hrest : ∀ k' ∈ pending, good k' := fun k' hk' => hpend k' (.tail _ hk')
    have hk := hpend k (.head _)
    obtain ⟨v, succ, hvisit, hsucc⟩ := hgood k hk
    unfold closureLoop
    split_ifs with hdone
    · apply ih hrest
      simp only [workLeft, length_cons] at hfuel ⊢
      omega
    · rw [hvisit]
      apply ih
      · intro k' hk'
        rcases mem_append.mp hk' with hk' | hk'
        · exact hsucc k' (mem_filter.mp hk').1
        · exact hrest k' hk'
      · have hvis : ∀ k', k' ∈ (done ++ [(k, v)]).map fst ↔
            k' = k ∨ k' ∈ done.map fst := fun k' => by
          rw [map_append, mem_append, map_singleton, mem_singleton, or_comm]
        have hpay := sum_filter_unvisited (hkeys k hk) hdone hvis (successorCount visit)
        have hcount : successorCount visit k = succ.length := by simp [successorCount, hvisit]
        have hlen := length_filter_le (fun k' => decide (k' ∉ done.map fst)) succ
        simp only [workLeft, length_cons, length_append] at hfuel ⊢
        omega

end Stasis
