import Mathlib.Data.List.Basic

namespace Stasis

open List
variable {α : Type*}

lemma mem_of_mem_splitOn [DecidableEq α] {xs part : List α} (h : part ∈ xs.splitOn a) :
    a ∉ part ∧ part ⊆ xs := by
  induction xs generalizing part with
  | nil =>
    obtain rfl : part = [] := by simpa [splitOn] using h
    simp
  | cons x xs ih =>
    rw [splitOn, splitOnP_cons_eq_if_modifyHead] at h
    split_ifs at h with hx
    · rcases mem_cons.mp h with rfl | h
      · simp
      · exact ⟨(ih h).1, List.Subset.trans (ih h).2 (subset_cons_self x xs)⟩
    · cases hs : xs.splitOnP (fun y => y == a) with
      | nil => simp [hs] at h
      | cons head rest =>
        have hmem : ∀ p ∈ head :: rest, a ∉ p ∧ p ⊆ xs := fun p hp => ih (by rwa [splitOn, hs])
        rw [hs, modifyHead_cons] at h
        rcases mem_cons.mp h with rfl | h
        · obtain ⟨hne, hsub⟩ := hmem head (.head _)
          have hxa : a ≠ x := fun heq => hx (by simp [heq])
          exact ⟨by simp [hxa, hne], cons_subset_cons x hsub⟩
        · obtain ⟨hne, hsub⟩ := hmem part (.tail _ h)
          exact ⟨hne, List.Subset.trans hsub (subset_cons_self x xs)⟩

lemma mem_intercalate_singleton (h : x ∈ [a].intercalate parts) :
    x = a ∨ ∃ part ∈ parts, x ∈ part := by
  induction parts with
  | nil => simp at h
  | cons part parts ih =>
    cases parts with
    | nil => exact .inr ⟨part, .head _, by simpa using h⟩
    | cons part' parts =>
      rw [intercalate_cons_cons, mem_append, mem_append, mem_singleton] at h
      rcases h with (h | rfl) | h
      · exact .inr ⟨part, .head _, h⟩
      · exact .inl rfl
      · rcases ih h with rfl | ⟨p, hp, hx⟩
        · exact .inl rfl
        · exact .inr ⟨p, .tail _ hp, hx⟩

lemma append_cons_cancel {x y : List α} (hx : a ∉ x) (hy : a ∉ y)
    (h : x ++ a :: z = y ++ a :: w) : x = y ∧ z = w := by
  induction x generalizing y with
  | nil => cases y <;> grind
  | cons b x ih => cases y <;> grind

end Stasis
