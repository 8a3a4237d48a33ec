import Stasis.Lib.Effects

namespace Stasis

variable {ω ε χ σ τ ρ : Type}

/-- The code of a sequence of operations: what each of them gives. -/
def emitAll (emit : ω → Except χ (EStateM ε σ ρ)) : List ω → Except χ (EStateM ε σ (List ρ))
  | [] => pure (pure [])
  | op :: ops => do
    let first ← emit op
    let rest ← emitAll emit ops
    pure do
      let result ← first
      let results ← rest
      return result :: results

def stepAll (step : τ → ω → τ × ρ) (t : τ) : List ω → τ × List ρ
  | [] => (t, [])
  | op :: ops =>
    let (t', result) := step t op
    let (t'', results) := stepAll step t' ops
    (t'', result :: results)

variable {step : τ → ω → τ × ρ} {emit : ω → Except χ (EStateM ε σ ρ)} {ops : List ω}
  {code : EStateM ε σ (List ρ)}

lemma stepAll_related {υ : Type} {step' : υ → ω → υ × ρ} {R : τ → υ → Prop}
    (h : ∀ op t u, R t u → (step t op).2 = (step' u op).2 ∧ R (step t op).1 (step' u op).1)
    (ops : List ω) {u : υ} (hR : R t u) :
    (stepAll step t ops).2 = (stepAll step' u ops).2 ∧
      R (stepAll step t ops).1 (stepAll step' u ops).1 := by
  induction ops generalizing t u with
  | nil => exact ⟨rfl, hR⟩
  | cons op ops ih =>
    obtain ⟨hres, hR'⟩ := h op t u hR
    obtain ⟨hresu, hR''⟩ := ih hR'
    exact ⟨congrArg₂ List.cons hres hresu, hR''⟩

/-- Code that behaves as the abstract step does, and keeps the states related. -/
def Simulates (R : σ → τ → Prop) (code : EStateM ε σ ρ) (next : τ → τ × ρ) : Prop :=
  ∀ s t, R s t → ∃ s', code s = .ok (next t).2 s' ∧ R s' (next t).1

lemma emitAll_cons_eq_ok (h : emitAll emit (op :: ops) = .ok code) :
    ∃ first rest, emit op = .ok first ∧ emitAll emit ops = .ok rest ∧ code = do
        let result ← first
        let results ← rest
        return result :: results := by
  rw [emitAll] at h
  cases hfirst : emit op with
  | error e => rw [hfirst] at h; cases h
  | ok first =>
    cases hrest : emitAll emit ops with
    | error e => rw [hfirst, hrest] at h; cases h
    | ok rest =>
      rw [hfirst, hrest] at h
      cases h
      exact ⟨first, rest, rfl, rfl, rfl⟩

lemma emitAll_simulates
    (hstep : ∀ op code, emit op = .ok code → Simulates R code fun t => step t op)
    (h : emitAll emit ops = .ok code) :
    Simulates R code fun t => stepAll step t ops := by
  induction ops generalizing code with
  | nil =>
    cases h
    intro s t hR
    exact ⟨s, rfl, hR⟩
  | cons op ops ih =>
    obtain ⟨first, rest, hfirst, hrest, rfl⟩ := emitAll_cons_eq_ok h
    intro s t hR
    obtain ⟨s₁, hrun₁, hR₁⟩ := hstep op first hfirst s t hR
    obtain ⟨s₂, hrun₂, hR₂⟩ := ih hrest s₁ _ hR₁
    refine ⟨s₂, ?_, hR₂⟩
    rw [bind_of_ok hrun₁, bind_of_ok hrun₂]
    rfl

end Stasis
