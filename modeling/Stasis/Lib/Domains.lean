import Mathlib.Data.List.Basic

namespace Stasis

variable {σ δ α ω : Type*}

def runSteps (step : δ → α → σ → σ) (s : σ) (ops : List (δ × α)) : σ :=
  ops.foldl (fun s op => step op.1 op.2 s) s

lemma runSteps_frame (view : σ → ω) {ops : List (δ × α)}
    (hframe : ∀ op ∈ ops, ∀ s, view (step op.1 op.2 s) = view s) (s : σ) :
    view (runSteps step s ops) = view s := by
  induction ops generalizing s with
  | nil => rfl
  | cons op ops ih =>
    calc view (runSteps step s (op :: ops))
        = view (step op.1 op.2 s) := ih (fun o ho => hframe o (List.mem_cons_of_mem op ho)) _
      _ = view s := hframe op (.head _) s

lemma runSteps_purge [DecidableEq δ] (view : σ → ω) {d : δ}
    (hown : ∀ a s s', view s = view s' → view (step d a s) = view (step d a s'))
    {ops : List (δ × α)} (hother : ∀ op ∈ ops, op.1 ≠ d → ∀ s, view (step op.1 op.2 s) = view s)
    {s s' : σ} (h : view s = view s') :
    view (runSteps step s ops) = view (runSteps step s' (ops.filter fun op => op.1 = d)) := by
  induction ops generalizing s s' with
  | nil => exact h
  | cons op ops ih =>
    have hrest := fun o ho => hother o (List.mem_cons_of_mem op ho)
    by_cases hd : op.1 = d
    · rw [List.filter_cons_of_pos (by simpa using hd)]
      subst hd
      exact ih hrest (hown op.2 s s' h)
    · rw [List.filter_cons_of_neg (by simpa using hd)]
      exact ih hrest ((hother op (.head _) hd s).trans h)

end Stasis
