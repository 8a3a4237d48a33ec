import Mathlib.Logic.Basic

namespace Stasis

variable {S L : Type*} {R : S → L → S → Prop}

/-- A finite run of `R` from one state to another, reading the given labels. -/
inductive LabelledRun (R : S → L → S → Prop) : S → List L → S → Prop
  | nil (s : S) : LabelledRun R s [] s
  | cons {s m t : S} {l : L} {ls : List L} (h : R s l m) (hs : LabelledRun R m ls t) :
      LabelledRun R s (l :: ls) t

namespace LabelledRun

variable {s m t : S} {ls : List L} {l : L}

lemma append (h : LabelledRun R s ls m) (h' : LabelledRun R m ms t) :
    LabelledRun R s (ls ++ ms) t := by
  induction h with
  | nil => exact h'
  | cons hr _ ih => exact .cons hr (ih h')

lemma single (h : R s l t) : LabelledRun R s [l] t := .cons h (.nil t)

lemma snoc (h : LabelledRun R s ls m) (h' : R m l t) : LabelledRun R s (ls ++ [l]) t :=
  h.append (single h')

lemma exists_last (h : LabelledRun R s (ls ++ [l]) t) : ∃ m, LabelledRun R s ls m ∧ R m l t := by
  induction ls generalizing s with
  | nil =>
    obtain _ | ⟨hr, hnil⟩ := h
    obtain _ | _ := hnil
    exact ⟨s, .nil s, hr⟩
  | cons a ls ih =>
    obtain _ | ⟨hr, hs⟩ := h
    obtain ⟨m, hp, hl⟩ := ih hs
    exact ⟨m, .cons hr hp, hl⟩

end LabelledRun
end Stasis
