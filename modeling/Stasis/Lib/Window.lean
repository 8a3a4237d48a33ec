import Mathlib.Data.Nat.ModEq
import Mathlib.Logic.Function.Basic

namespace Stasis

open Function
variable {α : Type*} {N head n i j : ℕ}

def window (values : ℕ → α) (N head n : ℕ) : List α :=
  (List.range n).map fun j => values ((head + j) % N)

namespace Window

lemma slot_injective (hi : i < N) (hj : j < N) (h : (head + i) % N = (head + j) % N) : i = j := by
  have hmod : i ≡ j [MOD N] := Nat.ModEq.add_left_cancel' head h
  rwa [Nat.ModEq, Nat.mod_eq_of_lt hi, Nat.mod_eq_of_lt hj] at hmod

lemma slot_next : ((head + 1) % N + j) % N = (head + (j + 1)) % N := by
  rw [Nat.mod_add_mod, Nat.add_assoc, Nat.add_comm 1 j]

lemma getElem?_window (N head : ℕ) (values : ℕ → α) (hj : j < n) :
    (window values N head n)[j]? = some (values ((head + j) % N)) := by
  simp [window, hj]

variable (values : ℕ → α)

lemma window_update (x : α) (h : ∀ j < n, (head + j) % N ≠ i) :
    window (update values i x) N head n = window values N head n := by
  apply List.map_congr_left
  intro j hj
  exact update_of_ne (h j (List.mem_range.mp hj)) _ _

lemma window_push (head : ℕ) (values : ℕ → α) (x : α) (hn : n < N) :
    window (update values ((head + n) % N) x) N head (n + 1) = window values N head n ++ [x] := by
  have hrest : window (update values ((head + n) % N) x) N head n = window values N head n := by
    apply window_update
    intro j hj heq
    exact hj.ne (slot_injective (hj.trans hn) hn heq)
  rw [← hrest]
  simp [window, List.range_succ]

lemma window_succ :
    window values N head (n + 1) = values (head % N) :: window values N ((head + 1) % N) n := by
  simp only [window, List.range_succ_eq_map, List.map_cons, List.map_map, Nat.add_zero]
  congr 1
  apply List.map_congr_left
  intro j _
  rw [comp_apply, slot_next]

lemma window_overwrite (x : α) (hhead : head < N) :
    window (update values head x) N ((head + 1) % N) N = (window values N head N).tail ++ [x] := by
  obtain ⟨n, rfl⟩ : ∃ n, N = n + 1 := ⟨N - 1, by omega⟩
  have hlast : ((head + 1) % (n + 1) + n) % (n + 1) = head := by
    rw [slot_next, Nat.add_mod_right, Nat.mod_eq_of_lt hhead]
  have hpush := window_push ((head + 1) % (n + 1)) values x (Nat.lt_succ_self n)
  rw [hlast] at hpush
  rw [hpush, window_succ, List.tail_cons]

end Window

end Stasis
