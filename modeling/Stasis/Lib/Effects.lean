import Mathlib.Data.List.Forall2

namespace Stasis

open List
variable {α β ε σ : Type} {xs : List α} {f : α → Except ε β} {ys : List β}

lemma mapM_eq_ok_iff : xs.mapM f = .ok ys ↔ List.Forall₂ (fun x y => f x = .ok y) xs ys := by
  induction xs generalizing ys with
  | nil =>
    rw [mapM_nil, forall₂_nil_left_iff]
    constructor
    · intro h
      cases h
      rfl
    · rintro rfl
      rfl
  | cons x xs ih =>
    rw [mapM_cons, forall₂_cons_left_iff]
    cases hx : f x with
    | error e => simp [bind, Except.bind]
    | ok y =>
      cases hxs : xs.mapM f with
      | error e => simp [bind, Except.bind, ← ih, hxs]
      | ok ys' => simp [bind, Except.bind, pure, Except.pure, ← ih, hxs, eq_comm]

lemma exists_of_forall₂_right {R : α → β → Prop}
    (h : List.Forall₂ R xs ys) {y : β} (hy : y ∈ ys) : ∃ x ∈ xs, R x y := by
  induction h with
  | nil => cases hy
  | cons hxy _ ih =>
    rcases mem_cons.mp hy with rfl | hy
    · exact ⟨_, .head _, hxy⟩
    · obtain ⟨x, hx, hfx⟩ := ih hy
      exact ⟨x, .tail _ hx, hfx⟩

lemma exists_of_forall₂_left {R : α → β → Prop}
    (h : List.Forall₂ R xs ys) {x : α} (hx : x ∈ xs) : ∃ y ∈ ys, R x y :=
  exists_of_forall₂_right h.flip hx

lemma exists_of_mapM_ok (h : xs.mapM f = .ok ys) {y : β} (hy : y ∈ ys) : ∃ x ∈ xs, f x = .ok y :=
  exists_of_forall₂_right (mapM_eq_ok_iff.mp h) hy

lemma exists_ok_of_mapM_ok (h : xs.mapM f = .ok ys) {x : α} (hx : x ∈ xs) : ∃ y ∈ ys, f x = .ok y :=
  exists_of_forall₂_left (mapM_eq_ok_iff.mp h) hx

lemma exists_of_mapM_some {f : α → Option β}
    (h : xs.mapM f = some ys) {y : β} (hy : y ∈ ys) : ∃ x ∈ xs, f x = some y := by
  induction xs generalizing ys with
  | nil =>
    cases h
    cases hy
  | cons x xs ih =>
    rw [mapM_cons] at h
    obtain ⟨y', hx, hrest⟩ := Option.bind_eq_some_iff.mp h
    obtain ⟨ys', hxs, hys⟩ := Option.bind_eq_some_iff.mp hrest
    cases hys
    rcases mem_cons.mp hy with rfl | hy
    · exact ⟨x, .head _, hx⟩
    · obtain ⟨x', hx', hfx'⟩ := ih hxs hy
      exact ⟨x', .tail _ hx', hfx'⟩

variable {x : Except ε α}

lemma bind_ok_iff {b : β} : (x >>= f) = .ok b ↔ ∃ a, x = .ok a ∧ f a = .ok b := by
  cases x with
  | error e | ok a => simp [bind, Except.bind]

lemma map_ok_iff {f : α → β} {b : β} : x.map f = .ok b ↔ ∃ a, x = .ok a ∧ f a = b := by
  cases x with
  | error e | ok a => simp [Except.map]

lemma except_exists_of_isOk (h : x.isOk = true) : ∃ a, x = .ok a := by
  cases x with
  | error e => cases h
  | ok a => exact ⟨a, rfl⟩

lemma bind_ok {a : α} (h : x = .ok a) : (x >>= f) = f a := by
  rw [h]
  rfl

lemma unit_bind_ok_iff {x : Except ε PUnit} {f : PUnit → Except ε β} {b : β} :
    (x >>= f) = .ok b ↔ x = .ok ⟨⟩ ∧ f ⟨⟩ = .ok b := by
  rw [bind_ok_iff]
  exact ⟨fun ⟨_, hx, hf⟩ => ⟨hx, hf⟩, fun ⟨hx, hf⟩ => ⟨⟨⟩, hx, hf⟩⟩

lemma pure_ok_iff {a b : α} : (pure a : Except ε α) = .ok b ↔ a = b := by
  simp [pure, Except.pure]

lemma forM_ok_iff {f : α → Except ε Unit} : xs.forM f = .ok () ↔ ∀ x ∈ xs, f x = .ok () := by
  induction xs with
  | nil => exact ⟨fun _ _ hx => absurd hx not_mem_nil, fun _ => rfl⟩
  | cons x xs ih =>
    have hcons : (x :: xs).forM f = (f x >>= fun _ => xs.forM f) := rfl
    rw [hcons, unit_bind_ok_iff, ih, forall_mem_cons]

def collect (f : α → Except ε (List β)) (xs : List α) : Except ε (List β) :=
  (xs.mapM f).map List.flatten

lemma collect_eq_ok {f : α → Except ε (List β)} (h : ∀ x ∈ xs, f x = .ok (g x)) :
    collect f xs = .ok (xs.flatMap g) := by
  have hall : List.Forall₂ (fun x ys => f x = .ok ys) xs (xs.map g) :=
    forall₂_map_right_iff.mpr (forall₂_same.mpr h)
  rw [collect, mapM_eq_ok_iff.mpr hall]
  rfl

lemma forM_eq_ok_foldl {f : α → EStateM ε σ Unit} (h : ∀ x ∈ xs, ∀ s, f x s = .ok () (g s x))
    (s : σ) :
    xs.forM f s = .ok () (xs.foldl g s) := by
  induction xs generalizing s with
  | nil => rfl
  | cons x xs ih =>
    have hx := h x (.head _) s
    calc (x :: xs).forM f s = EStateM.bind (f x) (fun _ => xs.forM f) s := rfl
      _ = xs.forM f (g s x) := by simp only [EStateM.bind, hx]
      _ = .ok () (xs.foldl g (g s x)) := ih (fun y hy => h y (.tail _ hy)) _

variable {f : α → EStateM ε σ β} {x : EStateM ε σ α}

lemma bind_of_ok (h : x s = .ok a s') : (x >>= f) s = f a s' := by
  have hbind : (x >>= f) s = EStateM.bind x f s := rfl
  simp only [hbind, EStateM.bind, h]

lemma bind_run (h : x s = .ok a s') (hr : f a s' = r) : (x >>= f) s = r :=
  (bind_of_ok h).trans hr

lemma bind_of_error (h : x s = .error e s') : (x >>= f) s = .error e s' := by
  have hbind : (x >>= f) s = EStateM.bind x f s := rfl
  simp only [hbind, EStateM.bind, h]

lemma bind_eq_ok (h : (x >>= f) s = .ok b s'') : ∃ a s', x s = .ok a s' ∧ f a s' = .ok b s'' := by
  have hbind : (x >>= f) s = EStateM.bind x f s := rfl
  rw [hbind, EStateM.bind] at h
  cases hx : x s with
  | error e s' => simp [hx] at h
  | ok a s' => exact ⟨a, s', rfl, by simpa [hx] using h⟩

lemma run_bind (x : EStateM ε σ α) (f : α → EStateM ε σ β) (s : σ) : (x >>= f) s = match x s with
      | .ok a s' => f a s'
      | .error e s' => .error e s' := by
  cases h : x s with
  | ok a s' => exact bind_of_ok h
  | error e s' => exact bind_of_error h

lemma forM_range_eq_ok {f : ℕ → EStateM ε σ PUnit} (state : ℕ → σ)
    (h : ∀ k < n, f k (state k) = .ok ⟨⟩ (state (k + 1))) :
    (range n).forM f (state 0) = .ok ⟨⟩ (state n) := by
  have hfrom (rounds k : ℕ) (hk : k + rounds = n) :
      (range' k rounds).forM f (state k) = .ok ⟨⟩ (state n) := by
    induction rounds generalizing k with
    | zero =>
      obtain rfl : k = n := hk
      rfl
    | succ rounds ih => exact (bind_of_ok (h k (by omega))).trans (ih (k + 1) (by omega))
  rw [range_eq_range']
  exact hfrom n 0 (Nat.zero_add n)

lemma mapM_filter_eq_ok {h : α → EStateM ε σ β} {f : α → Option β}
    (hyes : ∀ x ∈ xs, p x = true → ∃ b, f x = some b ∧ h x s = .ok b s)
    (hno : ∀ x ∈ xs, p x = false → f x = none) :
    (xs.filter p).mapM h s = .ok (xs.filterMap f) s := by
  induction xs with
  | nil => rfl
  | cons x xs ih =>
    have hrest := ih (fun y hy => hyes y (.tail _ hy))
      fun y hy => hno y (.tail _ hy)
    cases hx : p x with
    | true =>
      obtain ⟨b, hfx, hhx⟩ := hyes x (.head _) hx
      rw [filter_cons_of_pos hx, mapM_cons, filterMap_cons_some hfx]
      exact (bind_of_ok hhx).trans (bind_of_ok hrest)
    | false =>
      rw [filter_cons_of_neg (by simp [hx]), filterMap_cons_none (hno x (.head _) hx)]
      exact hrest

@[simp] lemma run_pure (a : α) (s : σ) : (pure a : EStateM ε σ α) s = .ok a s := rfl

def finalState : EStateM.Result ε σ α → σ
  | .ok _ s => s
  | .error _ s => s

/-- A computation does not change what `view` shows of the state. -/
def Keeps {τ : Type} (view : σ → τ) (x : EStateM ε σ α) : Prop :=
  ∀ s, view (finalState (x s)) = view s

lemma Keeps.bind {τ : Type} {view : σ → τ}
    (hx : Keeps view x) (hf : ∀ a, Keeps view (f a)) : Keeps view (x >>= f) := by
  intro s
  have hs := hx s
  cases h : x s with
  | error e s' => rw [bind_of_error h]; rwa [h] at hs
  | ok a s' => rw [bind_of_ok h, hf a s']; rwa [h] at hs

end Stasis
