import Mathlib.Algebra.BigOperators.Group.Finset.Basic
import Mathlib.Data.Finset.Card

namespace Stasis

open Finset
variable {κ : Type*} [DecidableEq κ] (next : κ → List κ)

def ball : ℕ → κ → Finset κ
  | 0, _ => ∅
  | n + 1, k => {k} ∪ (next k).toFinset.biUnion (ball n)

variable {next}

variable {n : ℕ} {k h : κ} {nodes : Finset κ}

lemma mem_ball_succ : h ∈ ball next (n + 1) k ↔ h = k ∨ ∃ g ∈ next k, h ∈ ball next n g := by
  simp [ball]

lemma mem_ball_succ_rim : h ∈ ball next (n + 1) k ↔ h = k ∨ ∃ g ∈ ball next n k, h ∈ next g := by
  induction n generalizing k h with
  | zero => simp [ball]
  | succ n ih =>
    rw [mem_ball_succ]
    constructor
    · rintro (rfl | ⟨g, hg, hh⟩)
      · exact .inl rfl
      · rcases ih.mp hh with rfl | ⟨g', hg', hh'⟩
        · exact .inr ⟨k, mem_ball_succ.mpr (.inl rfl), hg⟩
        · exact .inr ⟨g', mem_ball_succ.mpr (.inr ⟨g, hg, hg'⟩), hh'⟩
    · rintro (rfl | ⟨g', hg', hh'⟩)
      · exact .inl rfl
      · rcases mem_ball_succ.mp hg' with rfl | ⟨g, hg, hg'⟩
        · exact .inr ⟨h, hh', ih.mpr (.inl rfl)⟩
        · exact .inr ⟨g, hg, ih.mpr (.inr ⟨g', hg', hh'⟩)⟩

lemma ball_subset_succ (n : ℕ) (k : κ) : ball next n k ⊆ ball next (n + 1) k := by
  induction n generalizing k with
  | zero => exact empty_subset _
  | succ n ih =>
    intro h hh
    rcases mem_ball_succ.mp hh with rfl | ⟨g, hg, hh⟩
    · exact mem_ball_succ.mpr (.inl rfl)
    · exact mem_ball_succ.mpr (.inr ⟨g, hg, ih g hh⟩)

lemma ball_subset (hnodes : ∀ k ∈ nodes, ∀ g ∈ next k, g ∈ nodes) (hk : k ∈ nodes) (n : ℕ) :
    ball next n k ⊆ nodes := by
  induction n generalizing k with
  | zero => exact empty_subset _
  | succ n ih =>
    intro h hh
    rcases mem_ball_succ.mp hh with rfl | ⟨g, hg, hh⟩
    · exact hk
    · exact ih (hnodes k hk g hg) hh

/-- A ball that did not grow never grows again, so it has grown at most once for
every node. -/
lemma ball_stable (hnodes : ∀ k ∈ nodes, ∀ g ∈ next k, g ∈ nodes) (hk : k ∈ nodes) :
    ball next (nodes.card + 1) k = ball next nodes.card k := by
  have hgrows : ∀ n, ball next (n + 1) k = ball next n k ∨ n + 1 ≤ (ball next (n + 1) k).card := by
    intro n
    induction n with
    | zero => exact .inr (by simp [ball])
    | succ n ih =>
      by_cases hsame : ball next (n + 2) k = ball next (n + 1) k
      · exact .inl hsame
      · have hgrown := card_lt_card
          ((ball_subset_succ (n + 1) k).ssubset_of_ne (Ne.symm hsame))
        rcases ih with hold | hcard
        · refine absurd ?_ hsame
          ext h
          rw [mem_ball_succ_rim, mem_ball_succ_rim, hold]
        · exact .inr (by omega)
  rcases hgrows nodes.card with hsame | hcard
  · exact hsame
  · have := card_le_card (ball_subset hnodes hk (nodes.card + 1))
    omega

section Spread

variable {M : Type*} [AddCommMonoid M]

variable (next) in
def spread (out : κ → M) : ℕ → κ → M
  | 0, _ => 0
  | n + 1, k => out k + ((next k).map (spread out n)).sum

variable {out : κ → M} (hidem : ∀ k, out k + out k = out k)

include hidem

lemma sum_add_subset_of_idem (h : t ⊆ s) : ∑ k ∈ s, out k + ∑ k ∈ t, out k = ∑ k ∈ s, out k := by
  have htwice : ∑ k ∈ t, out k + ∑ k ∈ t, out k = ∑ k ∈ t, out k := by
    rw [← sum_add_distrib]
    exact sum_congr rfl fun k _ => hidem k
  rw [← sum_sdiff h, add_assoc, htwice]

lemma sum_union_of_idem : ∑ k ∈ s ∪ t, out k = ∑ k ∈ s, out k + ∑ k ∈ t, out k := by
  rw [← sum_union_inter, sum_add_subset_of_idem hidem]
  exact inter_subset_left.trans subset_union_left

lemma sum_biUnion_of_idem (l : List κ) (s : κ → Finset κ) :
    ∑ k ∈ l.toFinset.biUnion s, out k = (l.map fun g => ∑ k ∈ s g, out k).sum := by
  induction l with
  | nil => simp
  | cons g l ih =>
    rw [List.toFinset_cons, biUnion_insert, sum_union_of_idem hidem, ih, List.map_cons,
      List.sum_cons]

lemma spread_eq (n : ℕ) (k : κ) : spread next out n k = ∑ h ∈ ball next n k, out h := by
  induction n generalizing k with
  | zero => simp [spread, ball]
  | succ n ih =>
    rw [spread, ball, sum_union_of_idem hidem, sum_singleton, sum_biUnion_of_idem hidem]
    congr 2
    exact List.map_congr_left fun g _ => ih g

lemma spread_stable (hnodes : ∀ k ∈ nodes, ∀ g ∈ next k, g ∈ nodes) (hk : k ∈ nodes) :
    spread next out (nodes.card + 1) k = spread next out nodes.card k := by
  rw [spread_eq hidem, spread_eq hidem, ball_stable hnodes hk]

end Spread

end Stasis
