import Stasis.Lib.Effects

namespace Stasis

open List
variable {α β ε σ τ : Type}

structure Consumption (σ τ : Type) where
  reads : σ → List τ → σ → Prop
  reads_nil : ∀ {s s'}, reads s [] s' ↔ s' = s
  reads_append : ∀ {s xs ys s'}, reads s (xs ++ ys) s' ↔ ∃ t, reads s xs t ∧ reads t ys s'

/-- `p` succeeds exactly where the input goes on with tokens of the format. -/
def Accepts (C : Consumption σ τ) (p : EStateM ε σ α) (format : α → List τ → Prop) : Prop :=
  ∀ s a s', p s = .ok a s' ↔ ∃ xs, format a xs ∧ C.reads s xs s'

variable {C : Consumption σ τ}

variable {p : EStateM ε σ α} {f : α → List τ → Prop}

lemma Accepts.congr (h : Accepts C p f) (hfg : ∀ a xs, f a xs ↔ g a xs) : Accepts C p g := by
  intro s a s'
  rw [h s a s']
  exact exists_congr fun xs => and_congr_left' (hfg a xs)

lemma accepts_pure (a : α) : Accepts C (pure a : EStateM ε σ α) fun b xs => b = a ∧ xs = [] := by
  intro s b s'
  rw [run_pure, EStateM.Result.ok.injEq]
  constructor
  · rintro ⟨rfl, rfl⟩
    exact ⟨[], ⟨rfl, rfl⟩, C.reads_nil.mpr rfl⟩
  · rintro ⟨_, ⟨rfl, rfl⟩, hreads⟩
    exact ⟨rfl, (C.reads_nil.mp hreads).symm⟩

lemma Accepts.bind {g : α → β → List τ → Prop} (hp : Accepts C p f)
    (hq : ∀ a, Accepts C (q a) (g a)) :
    Accepts C (p >>= q) fun b xs => ∃ a ys zs, xs = ys ++ zs ∧ f a ys ∧ g a b zs := by
  intro s b s'
  constructor
  · intro h
    obtain ⟨a, t, hrun, hrest⟩ := bind_eq_ok h
    obtain ⟨ys, hf, hys⟩ := (hp s a t).mp hrun
    obtain ⟨zs, hg, hzs⟩ := (hq a t b s').mp hrest
    exact ⟨ys ++ zs, ⟨a, ys, zs, rfl, hf, hg⟩, C.reads_append.mpr ⟨t, hys, hzs⟩⟩
  · rintro ⟨_, ⟨a, ys, zs, rfl, hf, hg⟩, hreads⟩
    obtain ⟨t, hys, hzs⟩ := C.reads_append.mp hreads
    rw [bind_of_ok ((hp s a t).mpr ⟨ys, hf, hys⟩)]
    exact (hq a t b s').mpr ⟨zs, hg, hzs⟩

lemma Accepts.unless (hp : Accepts C p f) (c : Prop) [Decidable c] (e : ε) :
    Accepts C (if c then throw e else p) fun a xs => ¬c ∧ f a xs := by
  split_ifs with hc
  · intro s a s'
    constructor
    · intro h
      cases h
    · rintro ⟨_, ⟨hnot, -⟩, -⟩
      exact absurd hc hnot
  · exact hp.congr fun a xs => (and_iff_right hc).symm

def ofExcept : Except ε α → EStateM ε σ α
  | .ok a => pure a
  | .error e => throw e

lemma accepts_ofExcept (r : Except ε α) :
    Accepts C (ofExcept r) fun a xs => r = .ok a ∧ xs = [] := by
  cases r with
  | ok a => exact (accepts_pure a).congr fun b xs => by rw [Except.ok.injEq, eq_comm]
  | error e =>
    intro s a s'
    constructor
    · intro h
      cases h
    · rintro ⟨_, ⟨h, -⟩, -⟩
      cases h

def repeatM (p : EStateM ε σ α) : ℕ → EStateM ε σ (List α)
  | 0 => pure []
  | n + 1 => do
    let a ← p
    let rest ← repeatM p n
    pure (a :: rest)

lemma Accepts.repeatM {valid : α → Prop} (hp : Accepts C p fun a xs => valid a ∧ xs = encode a)
    (n : ℕ) :
    Accepts C (Stasis.repeatM p n) fun as xs =>
      as.length = n ∧ (∀ a ∈ as, valid a) ∧ xs = as.flatMap encode := by
  induction n with
  | zero =>
    refine (accepts_pure []).congr fun as xs => ?_
    rw [length_eq_zero_iff]
    constructor
    · rintro ⟨rfl, rfl⟩
      exact ⟨rfl, nofun, rfl⟩
    · rintro ⟨rfl, -, rfl⟩
      exact ⟨rfl, rfl⟩
  | succ n ih =>
    refine (hp.bind fun a => ih.bind fun rest => accepts_pure (a :: rest)).congr fun as xs => ?_
    constructor
    · rintro ⟨a, ys, zs, rfl, ⟨hvalid, rfl⟩, rest, ys', zs', rfl, ⟨hlen, hrest, rfl⟩, rfl, rfl⟩
      exact ⟨by rw [length_cons, hlen], forall_mem_cons.mpr ⟨hvalid, hrest⟩,
        by rw [append_nil, flatMap_cons]⟩
    · rintro ⟨hlen, hvalid, rfl⟩
      obtain ⟨a, rest, rfl⟩ := exists_cons_of_length_eq_add_one hlen
      obtain ⟨ha, hrest⟩ := forall_mem_cons.mp hvalid
      rw [length_cons, Nat.add_right_cancel_iff] at hlen
      exact ⟨a, encode a, rest.flatMap encode, flatMap_cons, ⟨ha, rfl⟩, rest,
        rest.flatMap encode, [], (append_nil _).symm, ⟨hlen, hrest, rfl⟩, rfl, rfl⟩

end Stasis
