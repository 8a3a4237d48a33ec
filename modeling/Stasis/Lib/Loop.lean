import Mathlib.Data.List.Basic
import Mathlib.Data.Nat.Notation

namespace Stasis

variable {σ : Type*}

/-- Repeat the body until it has nothing to do or the rounds are used up. -/
def runUntil (body : σ → Option σ) : ℕ → σ → σ
  | 0, s => s
  | n + 1, s =>
    match body s with
    | none => s
    | some s' => runUntil body n s'

variable {body : σ → Option σ}

lemma runUntil_invariant (inv : σ → Prop) (hbody : ∀ s s', inv s → body s = some s' → inv s')
    (h : inv s) : inv (runUntil body n s) := by
  induction n generalizing s with
  | zero => exact h
  | succ n ih =>
    unfold runUntil
    cases hs : body s with
    | none => exact h
    | some s' => exact ih (hbody s s' h hs)

lemma runUntil_done {inv : σ → Prop} {measure : σ → ℕ}
    (hbody : ∀ s s', inv s → body s = some s' → inv s')
    (hmea : ∀ s s', inv s → body s = some s' → measure s' < measure s) (h : inv s)
    (hn : measure s ≤ n) : body (runUntil body n s) = none := by
  induction n generalizing s with
  | zero =>
    cases hs : body s with
    | none => exact hs
    | some s' =>
      have hlt := hmea s s' h hs
      omega
  | succ n ih =>
    unfold runUntil
    cases hs : body s with
    | none => exact hs
    | some s' =>
      have hlt := hmea s s' h hs
      exact ih (hbody s s' h hs) (by omega)

end Stasis
