import Mathlib.Data.List.Basic
import Mathlib.Data.List.Perm.Subperm
import Mathlib.Data.Nat.Notation

namespace Stasis

open List

structure Change (α : Type) where
  slot : ℕ
  value : α
  deriving DecidableEq

namespace Change

variable {α : Type}

/-- The positions at which two lists differ, with the second list's values. -/
def diff [DecidableEq α] (previous current : List α) : List (Change α) :=
  (previous.zip current).zipIdx.filterMap fun ((p, c), slot) =>
    if p ≠ c then some ⟨slot, c⟩ else none

def applyAll (values : List α) (changes : List (Change α)) : List α :=
  changes.foldl (fun values c => values.set c.slot c.value) values

/-- Changes in order of their slots, inside the list, each of a different value. -/
structure Canonical (values : List α) (changes : List (Change α)) : Prop where
  sorted : changes.Pairwise fun c d => c.slot < d.slot
  inRange : ∀ c ∈ changes, c.slot < values.length
  effective : ∀ c ∈ changes, values[c.slot]? ≠ some c.value

variable {values : List α} {changes : List (Change α)}

lemma Canonical.length_le (h : Canonical values changes) : changes.length ≤ values.length := by
  have hnodup : (changes.map slot).Nodup :=
    pairwise_map.mpr (h.sorted.imp fun hlt => Nat.ne_of_lt hlt)
  have hsub : changes.map slot ⊆ range values.length := by
    intro i hi
    obtain ⟨c, hc, rfl⟩ := mem_map.mp hi
    exact mem_range.mpr (h.inRange c hc)
  simpa using (List.Nodup.subperm hnodup hsub).length_le

lemma canonical_nil (values : List α) : Canonical values [] := ⟨.nil, by simp, by simp⟩

@[simp] lemma length_applyAll (values : List α) (changes : List (Change α)) :
    (applyAll values changes).length = values.length := by
  induction changes generalizing values with
  | nil => rfl
  | cons c changes ih => exact (ih _).trans length_set

lemma getElem?_applyAll_of_forall_ne (h : ∀ c ∈ changes, c.slot ≠ i) :
    (applyAll values changes)[i]? = values[i]? := by
  induction changes generalizing values with
  | nil => rfl
  | cons c changes ih =>
    calc (applyAll (values.set c.slot c.value) changes)[i]?
        = (values.set c.slot c.value)[i]? := ih fun d hd => h d (mem_cons_of_mem c hd)
      _ = values[i]? := List.getElem?_set_ne (h c mem_cons_self)

lemma getElem?_applyAll_of_mem (hslots : changes.Pairwise fun c d => c.slot ≠ d.slot)
    (hc : c ∈ changes) (hlt : c.slot < values.length) :
    (applyAll values changes)[c.slot]? = some c.value := by
  induction changes generalizing values with
  | nil => cases hc
  | cons d changes ih =>
    obtain ⟨hd, hrest⟩ := pairwise_cons.mp hslots
    obtain rfl | hc := mem_cons.mp hc
    · calc (applyAll (values.set c.slot c.value) changes)[c.slot]?
          = (values.set c.slot c.value)[c.slot]? :=
            getElem?_applyAll_of_forall_ne fun e he => (hd e he).symm
        _ = some c.value := List.getElem?_set_self hlt
    · exact ih hrest hc (by rwa [length_set])

section Diff

variable [DecidableEq α]

lemma mem_diff {c : Change α} :
    c ∈ diff previous current ↔
      ∃ p, previous[c.slot]? = some p ∧ current[c.slot]? = some c.value ∧ p ≠ c.value := by
  simp only [diff, mem_filterMap, Prod.exists, mem_zipIdx_iff_getElem?,
    List.getElem?_zip_eq_some, Option.ite_none_right_eq_some, Option.some.injEq]
  constructor
  · rintro ⟨p, v, i, ⟨hp, hv⟩, hne, rfl⟩
    exact ⟨p, hp, hv, hne⟩
  · rintro ⟨p, hp, hv, hne⟩
    exact ⟨p, c.value, c.slot, ⟨hp, hv⟩, hne, rfl⟩

lemma pairwise_zipIdx {β : Type} (l : List β) (k : ℕ) :
    (l.zipIdx k).Pairwise fun a b => a.2 < b.2 := by
  induction l generalizing k with
  | nil => exact .nil
  | cons b l ih =>
    rw [zipIdx_cons, pairwise_cons]
    refine ⟨fun a ha => ?_, ih (k + 1)⟩
    exact le_snd_of_mem_zipIdx ha

lemma diff_canonical (previous current : List α) : Canonical previous (diff previous current) where
  sorted := by
    rw [diff, pairwise_filterMap]
    refine (pairwise_zipIdx _ 0).imp fun {a b} hab c hc d hd => ?_
    simp only [Option.ite_none_right_eq_some, Option.some.injEq] at hc hd
    rwa [← hc.2, ← hd.2]
  inRange := by
    intro c hc
    obtain ⟨p, hp, -⟩ := mem_diff.mp hc
    exact (List.getElem?_eq_some_iff.mp hp).1
  effective := by
    intro c hc
    obtain ⟨p, hp, -, hne⟩ := mem_diff.mp hc
    rw [hp]
    exact fun h => hne (Option.some.inj h)

/-- The differences of two lists, written over a third, give the second list exactly if
the third has its values wherever the first has. -/
lemma applyAll_diff_eq_iff {previous current kept : List α}
    (h : previous.length = current.length) (hkept : kept.length = current.length) :
    applyAll kept (diff previous current) = current ↔
      ∀ i : ℕ, previous[i]? = current[i]? → kept[i]? = current[i]? := by
  have hcan := diff_canonical previous current
  have hslots : (diff previous current).Pairwise fun c d => c.slot ≠ d.slot :=
    hcan.sorted.imp fun hlt => Nat.ne_of_lt hlt
  have hwri : ∀ i : ℕ, previous[i]? ≠ current[i]? →
      (applyAll kept (diff previous current))[i]? = current[i]? := by
    intro i hne
    by_cases hlt : i < current.length
    · have hlt' : i < previous.length := h ▸ hlt
      have hmem : ⟨i, current[i]⟩ ∈ diff previous current := by
        rw [List.getElem?_eq_getElem hlt, List.getElem?_eq_getElem hlt'] at hne
        exact mem_diff.mpr ⟨previous[i], List.getElem?_eq_getElem hlt',
          List.getElem?_eq_getElem hlt, fun heq => hne (congrArg some heq)⟩
      rw [List.getElem?_eq_getElem hlt]
      exact getElem?_applyAll_of_mem hslots hmem (hkept ▸ hlt)
    · rw [List.getElem?_eq_none (by omega), List.getElem?_eq_none (by omega)] at hne
      exact absurd rfl hne
  have hunt : ∀ i : ℕ, previous[i]? = current[i]? →
      (applyAll kept (diff previous current))[i]? = kept[i]? := by
    intro i heq
    refine getElem?_applyAll_of_forall_ne fun c hc hslot => ?_
    obtain ⟨p, hp, hv, hne⟩ := mem_diff.mp hc
    rw [hslot] at hp hv
    exact hne (Option.some.inj (hp.symm.trans (heq.trans hv)))
  constructor
  · intro happly i heq
    rw [← hunt i heq, happly]
  · intro hagree
    apply ext_getElem?
    intro i
    by_cases heq : previous[i]? = current[i]?
    · rw [hunt i heq, hagree i heq]
    · exact hwri i heq

lemma applyAll_diff {previous current : List α} (h : previous.length = current.length) :
    applyAll previous (diff previous current) = current :=
  (applyAll_diff_eq_iff h h).mpr fun _ heq => heq

end Diff

end Change

/-- A pause of `tickGap` steps, then a change held for `runTicks` steps. -/
structure Segment (δ : Type) where
  tickGap : ℕ
  runTicks : ℕ
  changes : δ

namespace Segment

variable {α δ : Type} (act : α → δ → α)

def final (a : α) (segments : List (Segment δ)) : α :=
  segments.foldl (fun a s => act a s.changes) a

def timeline (a : α) : List (Segment δ) → List α
  | [] => []
  | s :: segments =>
    List.replicate s.tickGap a ++
      (List.replicate s.runTicks (act a s.changes) ++ timeline (act a s.changes) segments)

/-- The segments whose run has started at the given step, the first step being 1. -/
def startedBy (step : ℕ) : List (Segment δ) → List (Segment δ)
  | [] => []
  | s :: segments =>
    (if s.tickGap < step then [s] else []) ++ startedBy (step - (s.tickGap + s.runTicks)) segments

/-- Every segment has the property at the value it starts from. -/
def Along (P : α → Segment δ → Prop) (a : α) : List (Segment δ) → Prop
  | [] => True
  | s :: segments => P a s ∧ Along P (act a s.changes) segments

variable {act}

lemma timeline_append : timeline act a (segments ++ rest) =
    timeline act a segments ++ timeline act (final act a segments) rest := by
  induction segments generalizing a with
  | nil => rfl
  | cons s segments ih =>
    change replicate s.tickGap a ++ (replicate s.runTicks (act a s.changes) ++
      timeline act (act a s.changes) (segments ++ rest)) = _
    rw [ih]
    simp only [timeline, append_assoc]
    rfl

lemma startedBy_zero : startedBy 0 segments = [] := by
  induction segments with
  | nil => rfl
  | cons s segments ih => rw [startedBy, if_neg (Nat.not_lt_zero _), Nat.zero_sub, ih, nil_append]

lemma getElem?_timeline (h : i < (timeline act a segments).length) :
    (timeline act a segments)[i]? = some (final act a (startedBy (i + 1) segments)) := by
  induction segments generalizing a i with
  | nil => exact absurd h (Nat.not_lt_zero i)
  | cons s segments ih =>
    simp only [timeline, length_append, length_replicate] at h
    rw [timeline, startedBy]
    by_cases hgap : i < s.tickGap
    · have hrest : i + 1 - (s.tickGap + s.runTicks) = 0 := by omega
      rw [List.getElem?_append_left (by simpa using hgap), List.getElem?_replicate_of_lt hgap,
        if_neg (by omega), hrest, startedBy_zero]
      rfl
    rw [List.getElem?_append_right (by simpa using hgap), length_replicate, if_pos (by omega)]
    by_cases hrun : i - s.tickGap < s.runTicks
    · have hrest : i + 1 - (s.tickGap + s.runTicks) = 0 := by omega
      rw [List.getElem?_append_left (by simpa using hrun), List.getElem?_replicate_of_lt hrun,
        hrest, startedBy_zero]
      rfl
    · have hrest : i + 1 - (s.tickGap + s.runTicks) = i - s.tickGap - s.runTicks + 1 := by omega
      rw [List.getElem?_append_right (by simpa using hrun), length_replicate, ih (by omega), hrest]
      rfl

@[simp] lemma final_append :
    final act a (segments ++ rest) = final act (final act a segments) rest :=
  foldl_append

lemma along_append : Along act P a (segments ++ rest) ↔
    Along act P a segments ∧ Along act P (final act a segments) rest := by
  induction segments generalizing a with
  | nil => exact ⟨fun h => ⟨trivial, h⟩, fun h => h.2⟩
  | cons s segments ih => exact (and_congr_right fun _ => ih).trans and_assoc.symm

lemma along_forall (h : Along act P a segments) : ∀ s ∈ segments, ∃ a, P a s := by
  induction segments generalizing a with
  | nil => simp
  | cons s segments ih =>
    intro t ht
    obtain rfl | ht := mem_cons.mp ht
    · exact ⟨a, h.1⟩
    · exact ih h.2 t ht

lemma timeline_extend : timeline act a (segments ++ [{ s with runTicks := s.runTicks + 1 }]) =
      timeline act a (segments ++ [s]) ++ [final act a (segments ++ [s])] := by
  simp only [timeline_append, timeline, append_nil, replicate_succ', append_assoc, final_append]
  rfl

lemma timeline_snoc (changes : δ) :
    timeline act a (segments ++ [⟨0, 1, changes⟩]) =
      timeline act a segments ++ [act (final act a segments) changes] := by
  rw [timeline_append]
  rfl

end Segment
end Stasis
