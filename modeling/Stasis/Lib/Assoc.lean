import Mathlib.Data.List.Nodup
import Mathlib.Data.List.Sort
import Mathlib.Tactic.SplitIfs

namespace Stasis

open List
variable {κ β : Type*} [BEq κ] [LawfulBEq κ]

variable {l : List (κ × β)} {k : κ}

lemma exists_find? {α : Type*} {xs : List α} {x : α} (hx : x ∈ xs) (p : α → Prop)
    [DecidablePred p] (hp : p x) : ∃ y, xs.find? (fun y => p y) = some y ∧ y ∈ xs ∧ p y := by
  have hsome : (xs.find? fun y => p y).isSome = true := find?_isSome.mpr ⟨x, hx, decide_eq_true hp⟩
  obtain ⟨y, hy⟩ := Option.isSome_iff_exists.mp hsome
  exact ⟨y, hy, mem_of_find?_eq_some hy, by simpa using find?_some hy⟩

lemma mem_of_lookup (h : l.lookup k = some b) : (k, b) ∈ l := by
  obtain ⟨l₁, l₂, rfl, -⟩ := lookup_eq_some_iff.mp h
  simp

lemma lookup_of_mem (hnodup : (l.map Prod.fst).Nodup) (h : (k, b) ∈ l) : l.lookup k = some b := by
  induction l with
  | nil => cases h
  | cons entry l ih =>
    obtain ⟨k', b'⟩ := entry
    rw [map_cons, nodup_cons] at hnodup
    rcases mem_cons.mp h with heq | hmem
    · cases heq
      simp
    · have hne : (k == k') = false := by
        rw [beq_eq_false_iff_ne]
        rintro rfl
        exact hnodup.1 (mem_map.mpr ⟨_, hmem, rfl⟩)
      simp only [lookup_cons, hne]
      exact ih hnodup.2 hmem

lemma lookup_isSome_iff : (l.lookup k).isSome ↔ ∃ b, (k, b) ∈ l := by
  constructor
  · intro h
    obtain ⟨b, hb⟩ := Option.isSome_iff_exists.mp h
    exact ⟨b, mem_of_lookup hb⟩
  · rintro ⟨b, hb⟩
    by_contra hnone
    rw [Option.not_isSome_iff_eq_none, lookup_eq_none_iff] at hnone
    simpa using hnone _ hb

section FirstPerKey

variable {κ β : Type*} [DecidableEq κ]

def firstPerKey (seen : List κ) : List (κ × β) → List (κ × β)
  | [] => []
  | entry :: rest =>
    if entry.1 ∈ seen then firstPerKey seen rest
    else entry :: firstPerKey (entry.1 :: seen) rest

variable {seen : List κ} {l : List (κ × β)} {k : κ}

lemma mem_firstPerKey (h : entry ∈ firstPerKey seen l) : entry ∈ l ∧ entry.1 ∉ seen := by
  induction l generalizing seen with
  | nil => cases h
  | cons e l ih =>
    unfold firstPerKey at h
    split_ifs at h with hseen
    · exact ⟨.tail _ (ih h).1, (ih h).2⟩
    · rcases mem_cons.mp h with rfl | h
      · exact ⟨.head _, hseen⟩
      · exact ⟨.tail _ (ih h).1, fun hs => (ih h).2 (.tail _ hs)⟩

lemma mem_firstPerKey_append (h : entry ∈ firstPerKey seen (l ++ r)) :
    entry ∈ l ∨ entry ∈ r ∧ entry.1 ∉ l.map Prod.fst := by
  induction l generalizing seen with
  | nil => exact .inr ⟨(mem_firstPerKey h).1, by simp⟩
  | cons e l ih =>
    rw [cons_append, firstPerKey] at h
    split_ifs at h with hseen
    · rcases ih h with hl | ⟨hr, hnew⟩
      · exact .inl (.tail _ hl)
      · refine .inr ⟨hr, ?_⟩
        rw [map_cons, mem_cons]
        rintro (heq | hmem)
        · exact (mem_firstPerKey h).2 (heq ▸ hseen)
        · exact hnew hmem
    · rcases mem_cons.mp h with rfl | h
      · exact .inl (.head _)
      · rcases ih h with hl | ⟨hr, hnew⟩
        · exact .inl (.tail _ hl)
        · refine .inr ⟨hr, ?_⟩
          rw [map_cons, mem_cons]
          rintro (heq | hmem)
          · exact (mem_firstPerKey h).2 (heq ▸ (.head _))
          · exact hnew hmem

lemma exists_mem_firstPerKey (h : k ∈ l.map Prod.fst) (hseen : k ∉ seen) :
    ∃ b, (k, b) ∈ firstPerKey seen l := by
  induction l generalizing seen with
  | nil => cases h
  | cons e l ih =>
    unfold firstPerKey
    by_cases hk : e.1 = k
    · subst hk
      exact ⟨e.2, by simp [hseen]⟩
    · have hl : k ∈ l.map Prod.fst := by
        rcases mem_cons.mp h with heq | hmem
        · exact absurd heq.symm hk
        · exact hmem
      split_ifs with hs
      · exact ih hl hseen
      · have hseen' : k ∉ e.1 :: seen := by simp [Ne.symm hk, hseen]
        obtain ⟨b, hb⟩ := ih hl hseen'
        exact ⟨b, .tail _ hb⟩

lemma exists_mem_firstPerKey_append (h : k ∈ l.map Prod.fst) :
    ∃ b, (k, b) ∈ l ∧ (k, b) ∈ firstPerKey [] (l ++ r) := by
  have hkey : k ∈ (l ++ r).map Prod.fst := by
    rw [map_append]
    exact mem_append_left _ h
  obtain ⟨b, hb⟩ := exists_mem_firstPerKey hkey not_mem_nil
  rcases mem_firstPerKey_append hb with hl | ⟨-, hnew⟩
  · exact ⟨b, hl, hb⟩
  · exact absurd h hnew

lemma nodup_firstPerKey (seen : List κ) (l : List (κ × β)) :
    ((firstPerKey seen l).map Prod.fst).Nodup := by
  induction l generalizing seen with
  | nil => exact nodup_nil
  | cons e l ih =>
    unfold firstPerKey
    split_ifs with hseen
    · exact ih seen
    · rw [map_cons, nodup_cons]
      refine ⟨?_, ih _⟩
      intro hmem
      obtain ⟨entry, hentry, hkey⟩ := mem_map.mp hmem
      apply (mem_firstPerKey hentry).2
      rw [hkey]
      exact .head _

lemma lookup_firstPerKey [BEq κ] [LawfulBEq κ] (l : List (κ × β)) (hseen : k ∉ seen) :
    (firstPerKey seen l).lookup k = l.lookup k := by
  induction l generalizing seen with
  | nil => rfl
  | cons e l ih =>
    unfold firstPerKey
    by_cases hk : k = e.1
    · rw [if_neg (hk ▸ hseen), hk, lookup_cons_self, lookup_cons_self]
    · have hne : (k == e.1) = false := beq_eq_false_iff_ne.mpr hk
      split_ifs with hs
      · rw [ih hseen, lookup_cons, hne]
      · rw [lookup_cons, lookup_cons, hne]
        exact ih (by simp [hk, hseen])

lemma lookup_map_key {α : Type*} (key : α → κ) (l : List α) (k : κ) :
    (l.map fun a => (key a, a)).lookup k = l.find? fun a => key a = k := by
  induction l with
  | nil => rfl
  | cons a l ih =>
    rw [map_cons, lookup_cons, find?_cons, ih]
    by_cases hk : key a = k
    · simp [hk]
    · have hne : (k == key a) = false := beq_eq_false_iff_ne.mpr (Ne.symm hk)
      simp [hk, hne]

end FirstPerKey

section Collect

variable {κ β : Type*} [DecidableEq κ] [LE κ] [DecidableLE κ]

def lastPerKey (l : List (κ × β)) : List (κ × β) :=
  (firstPerKey [] l.reverse).insertionSort fun a b => a.1 ≤ b.1

lemma nodup_lastPerKey (l : List (κ × β)) : ((lastPerKey l).map Prod.fst).Nodup :=
  ((perm_insertionSort _ _).map Prod.fst).nodup_iff.mpr (nodup_firstPerKey _ _)

lemma mem_lastPerKey [BEq κ] [LawfulBEq κ] {l : List (κ × β)} {k : κ} :
    (k, b) ∈ lastPerKey l ↔ l.reverse.lookup k = some b := by
  rw [lastPerKey, (perm_insertionSort _ _).mem_iff,
    ← lookup_firstPerKey l.reverse (not_mem_nil (a := k))]
  exact ⟨lookup_of_mem (nodup_firstPerKey _ _), mem_of_lookup⟩

/-- The last element of every key, in the order of the keys. -/
def lastBy {α : Type*} (key : α → κ) (l : List α) : List α :=
  (lastPerKey (l.map fun a => (key a, a))).map Prod.snd

lemma mem_lastPerKey_map {α : Type*} {key : α → κ} {l : List α} {k : κ} {a : α} :
    (k, a) ∈ lastPerKey (l.map fun a => (key a, a)) ↔
      key a = k ∧ l.reverse.find? (fun b => key b = k) = some a := by
  rw [mem_lastPerKey, ← map_reverse, lookup_map_key]
  refine ⟨fun h => ⟨?_, h⟩, fun h => h.2⟩
  simpa using find?_some h

lemma mem_lastBy {α : Type*} {key : α → κ} {l : List α} {a : α} :
    a ∈ lastBy key l ↔ l.reverse.find? (fun b => key b = key a) = some a := by
  constructor
  · intro h
    obtain ⟨⟨k, _⟩, hmem, rfl⟩ := mem_map.mp h
    obtain ⟨rfl, hfind⟩ := mem_lastPerKey_map.mp hmem
    exact hfind
  · intro h
    exact mem_map.mpr ⟨(key a, a), mem_lastPerKey_map.mpr ⟨rfl, h⟩, rfl⟩

lemma nodup_lastBy {α : Type*} (key : α → κ) (l : List α) : ((lastBy key l).map key).Nodup := by
  have hkeys : (lastBy key l).map key = (lastPerKey (l.map fun a => (key a, a))).map Prod.fst := by
    rw [lastBy, map_map]
    apply map_congr_left
    rintro ⟨k, a⟩ hmem
    exact (mem_lastPerKey_map.mp hmem).1
  rw [hkeys]
  exact nodup_lastPerKey _

end Collect

lemma nodup_filterMap_of_key {α γ κ : Type*} {l : List α} {key : α → κ} (hnodup : (l.map key).Nodup)
    {f : α → Option γ} {keyOf : γ → κ} (hkey : ∀ a ∈ l, ∀ c, f a = some c → keyOf c = key a) :
    ((l.filterMap f).map keyOf).Nodup := by
  induction l with
  | nil => exact nodup_nil
  | cons a l ih =>
    rw [map_cons, nodup_cons] at hnodup
    have hrest := ih hnodup.2 fun b hb => hkey b (.tail _ hb)
    rcases ha : f a with _ | c
    · rw [filterMap_cons_none ha]
      exact hrest
    rw [filterMap_cons_some ha, map_cons, nodup_cons]
    refine ⟨?_, hrest⟩
    intro hmem
    obtain ⟨d, hd, heq⟩ := mem_map.mp hmem
    obtain ⟨b, hb, hfb⟩ := mem_filterMap.mp hd
    rw [hkey b (.tail _ hb) d hfb, hkey a (.head _) c ha] at heq
    exact hnodup.1 (heq ▸ mem_map_of_mem hb)

lemma eq_of_nodup_filterMap {α κ : Type*} {l : List α} {f : α → Option κ}
    (hnodup : (l.filterMap f).Nodup) {a b : α} (ha : a ∈ l) (hb : b ∈ l) {k : κ}
    (hfa : f a = some k) (hfb : f b = some k) : a = b := by
  induction l with
  | nil => cases ha
  | cons x l ih =>
    have hrest : (l.filterMap f).Nodup := by
      cases hx : f x with
      | none => rwa [filterMap_cons_none hx] at hnodup
      | some c =>
        rw [filterMap_cons_some hx] at hnodup
        exact (nodup_cons.mp hnodup).2
    -- the head cannot share its image with an entry of the tail
    have hhead : ∀ y ∈ l, f x = some k → f y = some k → False := by
      intro y hy hx hy'
      rw [filterMap_cons_some hx, nodup_cons] at hnodup
      exact hnodup.1 (mem_filterMap.mpr ⟨y, hy, hy'⟩)
    rcases mem_cons.mp ha with rfl | ha'
    · rcases mem_cons.mp hb with rfl | hb'
      · rfl
      · exact (hhead b hb' hfa hfb).elim
    · rcases mem_cons.mp hb with rfl | hb'
      · exact (hhead a ha' hfb hfa).elim
      · exact ih hrest ha' hb'

/-- What the entry of one key contributes to a pass over entries with distinct
keys, when no other entry contributes anything of the kind. -/
lemma filter_flatMap_of_key {α γ κ : Type*} {l : List α} {key : α → κ}
    (hnodup : (l.map key).Nodup) {a : α} (ha : a ∈ l) {f : α → List γ} {p : γ → Bool}
    (hother : ∀ x ∈ l, key x ≠ key a → (f x).filter p = []) :
    (l.flatMap f).filter p = (f a).filter p := by
  induction l with
  | nil => cases ha
  | cons x l ih =>
    rw [map_cons, nodup_cons] at hnodup
    rw [flatMap_cons, filter_append]
    rcases mem_cons.mp ha with rfl | hmem
    · have hrest : (l.flatMap f).filter p = [] := by
        rw [filter_flatMap, flatMap_eq_nil_iff]
        intro y hy
        apply hother y (.tail _ hy)
        intro hkey
        exact hnodup.1 (hkey ▸ mem_map_of_mem hy)
      rw [hrest, append_nil]
    · have hne : key x ≠ key a := by
        intro hkey
        exact hnodup.1 (hkey ▸ mem_map_of_mem hmem)
      rw [hother x (.head _) hne, nil_append]
      exact ih hnodup.2 hmem fun y hy => hother y (.tail _ hy)

end Stasis
