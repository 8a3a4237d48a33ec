import Mathlib.Data.ENat.Basic

namespace Stasis

variable {ε σ α β : Type} (inv : σ → Prop) (count : σ → ℕ∞)

def Metered (m : EStateM ε σ α) (s : σ) (budget : ℕ∞) (post : α → σ → Prop) : Prop :=
  match m s with
  | .ok a s' => inv s' ∧ count s' ≤ count s + budget ∧ post a s'
  | .error _ s' => inv s' ∧ count s' ≤ count s + budget

variable {inv count} {m : EStateM ε σ α} {f : α → EStateM ε σ β} {s : σ} {b b' : ℕ∞}
  {post post' : α → σ → Prop}

variable {a : α}

lemma metered_pure (hs : inv s) (hpost : post a s) :
    Metered inv count (pure a : EStateM ε σ α) s b post :=
  ⟨hs, le_self_add, hpost⟩

lemma metered_throw (hs : inv s) : Metered inv count (throw e : EStateM ε σ α) s b post :=
  ⟨hs, le_self_add⟩

variable (h : Metered inv count m s b post)
include h

lemma Metered.of_ok (hm : m s = .ok a s') : post a s' := by
  unfold Metered at h
  rw [hm] at h
  exact h.2.2

lemma Metered.mono (hb : b ≤ b')
    (hpost : ∀ a s', post a s' → post' a s') : Metered inv count m s b' post' := by
  unfold Metered at h ⊢
  cases hm : m s <;> rw [hm] at h
  · exact ⟨h.1, h.2.1.trans (add_le_add_right hb _), hpost _ _ h.2.2⟩
  · exact ⟨h.1, h.2.trans (add_le_add_right hb _)⟩

omit h in
lemma Metered.and_ok (post' : α → σ → Prop) (h : Metered inv count m s b post)
    (hok : ∀ a s', m s = .ok a s' → post' a s') :
    Metered inv count m s b fun a s' => post a s' ∧ post' a s' := by
  unfold Metered at h ⊢
  cases hm : m s <;> rw [hm] at h
  · exact ⟨h.1, h.2.1, h.2.2, hok _ _ hm⟩
  · exact h

omit h in
lemma metered_get_bind (h : Metered inv count (g s) s b post) :
    Metered inv count (get >>= g) s b post := h

omit h in
lemma metered_set {post : PUnit → σ → Prop} (hs : inv s') (hcount : count s' ≤ count s + b)
    (hpost : post ⟨⟩ s') :
    Metered inv count (set s' : EStateM ε σ PUnit) s b post :=
  ⟨hs, hcount, hpost⟩

omit h in
lemma metered_modify {post : PUnit → σ → Prop} (hs : inv (g s)) (hcount : count (g s) ≤ count s + b)
    (hpost : post ⟨⟩ (g s)) :
    Metered inv count (modify g : EStateM ε σ PUnit) s b post :=
  ⟨hs, hcount, hpost⟩

lemma Metered.bind (hf : ∀ a s', inv s' → post a s' → Metered inv count (f a) s' b' postBind) :
    Metered inv count (m >>= f) s (b + b') postBind := by
  have hbind : (m >>= f) s = EStateM.bind m f s := rfl
  unfold Metered at h ⊢
  rw [hbind, EStateM.bind]
  cases hm : m s with
  | error e s' =>
    rw [hm] at h
    exact ⟨h.1, h.2.trans (add_le_add_right le_self_add _)⟩
  | ok a s' =>
    rw [hm] at h
    obtain ⟨hs', hcount, hpost⟩ := h
    have hrest := hf a s' hs' hpost
    unfold Metered at hrest
    have htotal : ∀ s'', count s'' ≤ count s' + b' → count s'' ≤ count s + (b + b') := by
      intro s'' h''
      calc count s'' ≤ count s' + b' := h''
        _ ≤ count s + b + b' := add_le_add_left hcount b'
        _ = count s + (b + b') := add_assoc _ _ _
    dsimp only
    cases hfa : f a s' <;> rw [hfa] at hrest
    · exact ⟨hrest.1, htotal _ hrest.2.1, hrest.2.2⟩
    · exact ⟨hrest.1, htotal _ hrest.2⟩

lemma Metered.bind_free (hf : ∀ a s', inv s' → post a s' → Metered inv count (f a) s' 0 postBind) :
    Metered inv count (m >>= f) s b postBind := by
  rw [← add_zero b]
  exact h.bind hf

omit h

lemma Metered.free_bind (h : Metered inv count m s 0 post)
    (hf : ∀ a s', inv s' → post a s' → Metered inv count (f a) s' b postBind) :
    Metered inv count (m >>= f) s b postBind := by
  rw [← zero_add b]
  exact h.bind hf

/-- Rounds until one of them gives a result; the run stops with `out` when the fuel
is used up. -/
def repeatRounds (out : ε) (round : ℕ → EStateM ε σ (Option α)) : ℕ → ℕ → EStateM ε σ α
  | 0, _ => throw out
  | fuel + 1, k => do
    match ← round k with
    | some a => return a
    | none => repeatRounds out round fuel (k + 1)

lemma metered_repeatRounds {round : ℕ → EStateM ε σ (Option α)}
    (before : ℕ → σ → Prop) (cost left : ℕ → ℕ∞) (hleft : ∀ k, cost k + left (k + 1) ≤ left k)
    (hround : ∀ k s, inv s → before k s → Metered inv count (round k) s (cost k) fun result s' =>
      (∀ a ∈ result, post a s') ∧ (result = none → before (k + 1) s')) (fuel k : ℕ) (s : σ)
    (hs : inv s) (hbef : before k s) :
    Metered inv count (repeatRounds out round fuel k) s (left k) post := by
  induction fuel generalizing k s with
  | zero => exact metered_throw hs
  | succ fuel ih =>
    refine ((hround k s hs hbef).bind ?_).mono (hleft k) fun _ _ h => h
    rintro result s' hs' ⟨hpost, hnext⟩
    cases result with
    | some a => exact metered_pure hs' (hpost a rfl)
    | none => exact ih (k + 1) s' hs' (hnext rfl)

end Stasis
