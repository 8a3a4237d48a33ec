import Stasis.Lib.Split
import Mathlib.Tactic.SplitIfs

namespace Stasis.Compiler

open List

abbrev Text := List Char

def replace (text : Text) (c : Char) (new : Text) : Text :=
  text.flatMap fun x => if x = c then new else [x]

def escapeComponent (component : Text) : Text :=
  replace (replace (replace component '%' ['%', '2', '5']) '|' ['%', '7', 'c']) '\\' ['%', '5', 'c']

structure CanonicalSourcePath where
  text : Text

structure SymbolId where
  text : Text

def SymbolId.declaration (kind : Text) (sourcePath : CanonicalSourcePath)
    (qualifiedName discriminator : Text) : SymbolId :=
  ⟨['v', '1', '|'] ++ escapeComponent kind ++ ['|'] ++ escapeComponent sourcePath.text ++
    ['|'] ++ escapeComponent qualifiedName ++ ['|'] ++ escapeComponent discriminator⟩

lemma escapeComponent_cons (c : Char) (s : Text) :
    escapeComponent (c :: s) = (if c = '%' then ['%', '2', '5'] else if c = '|' then
      ['%', '7', 'c'] else if c = '\\' then ['%', '5', 'c'] else [c]) ++ escapeComponent s := by
  simp only [escapeComponent, replace, flatMap_cons, flatMap_append]
  split_ifs <;> simp_all

lemma separator_notMem (s : Text) : '|' ∉ escapeComponent s := by
  induction s with
  | nil => exact not_mem_nil
  | cons c s ih =>
    rw [escapeComponent_cons, mem_append, not_or]
    refine ⟨?_, ih⟩
    split_ifs <;> simp_all [eq_comm]

lemma escapeComponent_injective : Function.Injective escapeComponent := by
  intro s t h
  induction s generalizing t with
  | nil =>
    cases t with
    | nil => rfl
    | cons d t =>
      rw [escapeComponent_cons] at h
      split_ifs at h <;> simp [escapeComponent, replace] at h
  | cons c s ih =>
    cases t with
    | nil =>
      rw [escapeComponent_cons] at h
      split_ifs at h <;> simp [escapeComponent, replace] at h
    | cons d t =>
      rw [escapeComponent_cons, escapeComponent_cons] at h
      have hboth : c = d ∧ escapeComponent s = escapeComponent t := by
        split_ifs at h <;> simp_all [eq_comm]
      rw [hboth.1, ih hboth.2]

/-- **Symbol identities are injective.** -/
theorem declaration_eq_iff (kind kind' : Text) (path path' : CanonicalSourcePath)
    (name name' discriminator discriminator' : Text) :
    SymbolId.declaration kind path name discriminator =
        SymbolId.declaration kind' path' name' discriminator' ↔
      kind = kind' ∧ path = path' ∧ name = name' ∧ discriminator = discriminator' := by
  refine ⟨fun h => ?_, by rintro ⟨rfl, rfl, rfl, rfl⟩; rfl⟩
  simp only [SymbolId.declaration, SymbolId.mk.injEq, append_assoc, append_cancel_left_eq] at h
  -- no escaped component has the separator, so the text is cut in one way
  have hcut : ∀ {s s' rest rest' : Text}, escapeComponent s ++ (['|'] ++ rest) =
      escapeComponent s' ++ (['|'] ++ rest') → s = s' ∧ rest = rest' := by
    intro s s' rest rest' heq
    have hparts := append_cons_cancel (separator_notMem _) (separator_notMem _) heq
    exact ⟨escapeComponent_injective hparts.1, hparts.2⟩
  obtain ⟨hkind, h⟩ := hcut h
  obtain ⟨hpath, h⟩ := hcut h
  obtain ⟨hname, h⟩ := hcut h
  exact ⟨hkind, congrArg CanonicalSourcePath.mk hpath, hname, escapeComponent_injective h⟩

end Stasis.Compiler
