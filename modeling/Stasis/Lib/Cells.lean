import Mathlib.Data.List.Basic
import Stasis.Lib.Effects

namespace Stasis

/-- `Holds s k v`: in state `s` the cell `k` is backed by storage that can hold `v`. -/
structure CellMemory (σ κ ν : Type*) where
  load : σ → κ → ν
  store : σ → κ → ν → σ
  Holds : σ → κ → ν → Prop
  load_store : ∀ {s k v}, Holds s k v → load (store s k v) k = v
  load_store_ne : ∀ {s k k' v v'}, k ≠ k' → Holds s k' v' → load (store s k v) k' = load s k'
  holds_store : ∀ {s k k' v v'}, Holds s k' v' → Holds (store s k v) k' v'

namespace CellMemory

variable {σ κ ν : Type*} (m : CellMemory σ κ ν)

def writeAll (s : σ) (ws : List (κ × ν)) : σ :=
  ws.foldl (fun s w => m.store s w.1 w.2) s

@[simp] lemma writeAll_nil (s : σ) : m.writeAll s [] = s := rfl

@[simp] lemma writeAll_cons (s : σ) (w : κ × ν) (ws : List (κ × ν)) :
    m.writeAll s (w :: ws) = m.writeAll (m.store s w.1 w.2) ws := rfl

lemma writeAll_append (s : σ) (ws us : List (κ × ν)) :
    m.writeAll s (ws ++ us) = m.writeAll (m.writeAll s ws) us :=
  List.foldl_append

lemma forM_writeAll {α ε σ κ ν : Type} (m : CellMemory σ κ ν) {f : α → EStateM ε σ Unit}
    {ws : α → List (κ × ν)} {xs : List α}
    (h : ∀ x ∈ xs, ∀ s, f x s = .ok () (m.writeAll s (ws x))) (s : σ) :
    xs.forM f s = .ok () (m.writeAll s (xs.flatMap ws)) := by
  rw [forM_eq_ok_foldl h, writeAll, List.foldl_flatMap]
  rfl

lemma forM_store {α ε σ κ ν : Type} (m : CellMemory σ κ ν) {f : α → EStateM ε σ Unit}
    {w : α → κ × ν} {xs : List α}
    (h : ∀ x ∈ xs, ∀ s, f x s = .ok () (m.store s (w x).1 (w x).2)) (s : σ) :
    xs.forM f s = .ok () (m.writeAll s (xs.map w)) := by
  rw [forM_eq_ok_foldl h, writeAll, List.foldl_map]

lemma forM_ok_writeAll {α ε σ κ ν : Type} {m : CellMemory σ κ ν} {f : α → EStateM ε σ Unit}
    {Spec : α → List (κ × ν) → Prop} {xs : List α} {s s' : σ}
    (hstep : ∀ x ∈ xs, ∀ s s', f x s = .ok () s' → ∃ ws, Spec x ws ∧ s' = m.writeAll s ws)
    (h : xs.forM f s = .ok () s') :
    ∃ wss, List.Forall₂ Spec xs wss ∧ s' = m.writeAll s wss.flatten := by
  induction xs generalizing s with
  | nil =>
    cases h
    exact ⟨[], .nil, rfl⟩
  | cons x xs ih =>
    obtain ⟨⟨⟩, s₁, hx, hxs⟩ := bind_eq_ok (x := f x) (f := fun _ => xs.forM f) h
    obtain ⟨ws, hspec, rfl⟩ := hstep x (.head _) _ _ hx
    obtain ⟨wss, hall, rfl⟩ := ih (fun y hy => hstep y (.tail _ hy)) hxs
    exact ⟨ws :: wss, .cons hspec hall, by rw [List.flatten_cons, writeAll_append]⟩

variable {m}

lemma holds_writeAll (h : m.Holds s k v) (ws : List (κ × ν)) : m.Holds (m.writeAll s ws) k v := by
  induction ws generalizing s with
  | nil => exact h
  | cons w ws ih => exact ih (m.holds_store h)

variable {ws : List (κ × ν)}

variable {s : σ} {k : κ}

lemma load_writeAll_of_forall_ne (h : m.Holds s k v) (hne : ∀ w ∈ ws, w.1 ≠ k) :
    m.load (m.writeAll s ws) k = m.load s k := by
  induction ws generalizing s with
  | nil => rfl
  | cons w ws ih =>
    rw [writeAll_cons, ih (m.holds_store h) fun u hu => hne u (.tail _ hu)]
    exact m.load_store_ne (hne w (.head _)) h

lemma load_writeAll_of_mem (h : m.Holds s k v) (hmem : (k, v) ∈ ws)
    (hagree : ∀ w ∈ ws, w.1 = k → w.2 = v) :
    m.load (m.writeAll s ws) k = v := by
  induction ws generalizing s with
  | nil => cases hmem
  | cons w ws ih =>
    rw [writeAll_cons]
    have hrest : ∀ u ∈ ws, u.1 = k → u.2 = v := fun u hu => hagree u (.tail _ hu)
    by_cases hlater : (k, v) ∈ ws
    · exact ih (m.holds_store h) hlater hrest
    · -- the head is the last write to `k`
      obtain rfl : w = (k, v) := by
        rcases List.mem_cons.mp hmem with hw | hw
        · exact hw.symm
        · exact absurd hw hlater
      have hne : ∀ u ∈ ws, u.1 ≠ k := by
        intro u hu hk
        apply hlater
        have hu' : u = (k, v) := Prod.ext hk (hrest u hu hk)
        exact hu' ▸ hu
      rw [load_writeAll_of_forall_ne (m.holds_store h) hne]
      exact m.load_store h

lemma load_writeAll_of_unchanged
    (h : m.Holds s k (m.load s k)) (hagree : ∀ w ∈ ws, w.1 = k → w.2 = m.load s k) :
    m.load (m.writeAll s ws) k = m.load s k := by
  by_cases hmem : (k, m.load s k) ∈ ws
  · exact load_writeAll_of_mem h hmem hagree
  · apply load_writeAll_of_forall_ne h
    rintro ⟨_, v⟩ hw rfl
    exact hmem (hagree _ hw rfl ▸ hw)

/-- A list of writes is undone by writing back, to every cell it changed, what the cell
held before. -/
lemma load_writeAll_undone (h : m.Holds s k (m.load s k)) (hback : ∀ u ∈ us, u.2 = m.load s u.1)
    (hcover : ∀ w ∈ ws, w.2 = m.load s w.1 ∨ ∃ u ∈ us, u.1 = w.1) :
    m.load (m.writeAll (m.writeAll s ws) us) k = m.load s k := by
  have hagree : ∀ u ∈ us, u.1 = k → u.2 = m.load s k := by
    rintro u hu rfl
    exact hback u hu
  by_cases hmem : (k, m.load s k) ∈ us
  · exact load_writeAll_of_mem (holds_writeAll h ws) hmem hagree
  · have hne : ∀ u ∈ us, u.1 ≠ k := by
      rintro ⟨_, v⟩ hu rfl
      exact hmem (hback _ hu ▸ hu)
    rw [load_writeAll_of_forall_ne (holds_writeAll h ws) hne]
    -- a cell that is not written back was only ever written what it held
    apply load_writeAll_of_unchanged h
    rintro w hw rfl
    rcases hcover w hw with hsame | ⟨u, hu, hkey⟩
    · exact hsame
    · exact absurd hkey (hne u hu)

end CellMemory

end Stasis
