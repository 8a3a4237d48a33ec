import Mathlib.Data.Finmap
import Mathlib.Data.Finset.Card
import Mathlib.Logic.Function.Basic

namespace Stasis

open Option

abbrev FirstFit (κ ν : Type*) := ℕ → Option (κ × ν)

namespace FirstFit

variable {κ ν : Type*} {N i j : ℕ} {t : FirstFit κ ν} {k k' : κ} {v : ν}

def empty : FirstFit κ ν := fun _ => none

def keyAt (t : FirstFit κ ν) (i : ℕ) : Option κ := (t i).map Prod.fst

def set (t : FirstFit κ ν) (i : ℕ) (entry : Option (κ × ν)) : FirstFit κ ν :=
  Function.update t i entry

def firstFree (N : ℕ) (t : FirstFit κ ν) : Option ℕ :=
  (List.range N).find? fun i => (t i).isNone

def size (N : ℕ) (t : FirstFit κ ν) : ℕ := ((Finset.range N).filter fun i => (t i).isSome).card

def Unique (N : ℕ) (t : FirstFit κ ν) : Prop :=
  ∀ i < N, ∀ j < N, ∀ k, t.keyAt i = some k → t.keyAt j = some k → i = j

@[simp] lemma set_self (e : Option (κ × ν)) : t.set i e i = e := Function.update_self ..

lemma set_of_ne (h : j ≠ i) (e : Option (κ × ν)) : t.set i e j = t j := Function.update_of_ne h ..

@[simp] lemma keyAt_set_self (e : Option (κ × ν)) : (t.set i e).keyAt i = e.map Prod.fst := by
  simp [keyAt]

lemma keyAt_set_of_ne (h : j ≠ i) (e : Option (κ × ν)) : (t.set i e).keyAt j = t.keyAt j := by
  rw [keyAt, set_of_ne h, keyAt]

lemma isSome_of_keyAt (h : t.keyAt i = some k) : (t i).isSome := by
  rw [keyAt, map_eq_some_iff] at h
  obtain ⟨e, he, -⟩ := h
  rw [he]
  rfl

lemma firstFree_eq_some (h : firstFree N t = some i) : i < N ∧ t i = none :=
  ⟨List.mem_range.mp (List.mem_of_find?_eq_some h), by simpa using List.find?_some h⟩

lemma firstFree_eq_none : firstFree N t = none ↔ ∀ i < N, (t i).isSome := by
  simp [firstFree, isSome_iff_ne_none]

lemma size_le : size N t ≤ N := by
  calc size N t ≤ (Finset.range N).card := Finset.card_filter_le _ _
    _ = N := Finset.card_range N

lemma firstFree_isSome : (firstFree N t).isSome ↔ size N t < N := by
  rw [← not_iff_not, not_isSome_iff_eq_none, firstFree_eq_none, Nat.not_lt]
  constructor
  · intro h
    rw [size, Finset.filter_true_of_mem fun i hi => h i (Finset.mem_range.mp hi), Finset.card_range]
  · intro h i hi
    have hall : (Finset.range N).filter (fun i => (t i).isSome) = Finset.range N :=
      Finset.eq_of_subset_of_card_le (Finset.filter_subset _ _) (by rwa [Finset.card_range])
    have hmem : i ∈ (Finset.range N).filter fun i => (t i).isSome := by
      rw [hall]
      exact Finset.mem_range.mpr hi
    exact (Finset.mem_filter.mp hmem).2

lemma size_set_some_of_none (hi : i < N) (hfree : t i = none) (e : κ × ν) :
    size N (t.set i (some e)) = size N t + 1 := by
  have hfil : (Finset.range N).filter (fun j => ((t.set i (some e)) j).isSome) =
      insert i ((Finset.range N).filter fun j => (t j).isSome) := by
    ext j
    by_cases h : j = i
    · simp [h, hi]
    · simp [h, set_of_ne h]
  rw [size, hfil, Finset.card_insert_of_notMem (by simp [hfree])]
  rfl

lemma size_set_some_of_some (hocc : (t i).isSome) (e : κ × ν) :
    size N (t.set i (some e)) = size N t := by
  rw [size, size]
  congr 1
  apply Finset.filter_congr
  intro j _
  by_cases h : j = i
  · simp [h, hocc]
  · simp [set_of_ne h]

lemma size_set_none (hi : i < N) (hocc : (t i).isSome) : size N (t.set i none) + 1 = size N t := by
  have hfil : (Finset.range N).filter (fun j => ((t.set i none) j).isSome) =
      ((Finset.range N).filter fun j => (t j).isSome).erase i := by
    ext j
    by_cases h : j = i
    · simp [h]
    · simp [h, set_of_ne h]
  have hmem : i ∈ (Finset.range N).filter fun j => (t j).isSome := by simp [hi, hocc]
  rw [size, hfil, Finset.card_erase_add_one hmem]
  rfl

lemma unique_set (hu : Unique N t) (h : ∀ j < N, j ≠ i → t.keyAt j ≠ some k) (v : ν) :
    Unique N (t.set i (some (k, v))) := by
  intro a ha b hb key hka hkb
  by_cases hai : a = i
  · by_cases hbi : b = i
    · rw [hai, hbi]
    · subst hai
      rw [keyAt_set_self] at hka
      rw [keyAt_set_of_ne hbi] at hkb
      obtain rfl : k = key := by simpa using hka
      exact absurd hkb (h b hb hbi)
  · rw [keyAt_set_of_ne hai] at hka
    by_cases hbi : b = i
    · subst hbi
      rw [keyAt_set_self] at hkb
      obtain rfl : k = key := by simpa using hkb
      exact absurd hka (h a ha hai)
    · rw [keyAt_set_of_ne hbi] at hkb
      exact hu a ha b hb key hka hkb

lemma unique_set_none (hu : Unique N t) : Unique N (t.set i none) := by
  intro a ha b hb key hka hkb
  have hne : ∀ c, (t.set i none).keyAt c = some key → t.keyAt c = some key := by
    intro c hc
    by_cases hci : c = i
    · rw [hci, keyAt_set_self] at hc
      cases hc
    · rwa [keyAt_set_of_ne hci] at hc
  exact hu a ha b hb key (hne a hka) (hne b hkb)

section keys

variable [DecidableEq κ]

def slotOf (N : ℕ) (t : FirstFit κ ν) (k : κ) : Option ℕ :=
  (List.range N).find? fun i => t.keyAt i = some k

def lookup (N : ℕ) (t : FirstFit κ ν) (k : κ) : Option ν :=
  (slotOf N t k).bind fun i => (t i).map Prod.snd

lemma slotOf_eq_some (h : slotOf N t k = some i) : i < N ∧ t.keyAt i = some k :=
  ⟨List.mem_range.mp (List.mem_of_find?_eq_some h), by simpa using List.find?_some h⟩

lemma slotOf_eq_none : slotOf N t k = none ↔ ∀ i < N, t.keyAt i ≠ some k := by
  simp [slotOf]

lemma slotOf_of_keyAt (hu : Unique N t) (hi : i < N) (hk : t.keyAt i = some k) :
    slotOf N t k = some i := by
  cases h : slotOf N t k with
  | none => exact absurd hk (slotOf_eq_none.mp h i hi)
  | some j =>
    obtain ⟨hj, hkj⟩ := slotOf_eq_some h
    rw [hu i hi j hj k hk hkj]

lemma lookup_eq_some (hu : Unique N t) : lookup N t k = some v ↔ ∃ i < N, t i = some (k, v) := by
  rw [lookup, bind_eq_some_iff]
  constructor
  · rintro ⟨i, hslot, hv⟩
    obtain ⟨hi, hk⟩ := slotOf_eq_some hslot
    refine ⟨i, hi, ?_⟩
    rw [keyAt, map_eq_some_iff] at hk
    obtain ⟨⟨a, b⟩, hab, rfl⟩ := hk
    rw [hab, map_some, some.injEq] at hv
    rw [hab, ← hv]
  · rintro ⟨i, hi, ht⟩
    have hk : t.keyAt i = some k := by simp [keyAt, ht]
    exact ⟨i, slotOf_of_keyAt hu hi hk, by simp [ht]⟩

lemma lookup_isSome : (lookup N t k).isSome ↔ (slotOf N t k).isSome := by
  rw [lookup, isSome_bind]
  cases h : slotOf N t k with
  | none => simp
  | some i => simpa using isSome_of_keyAt (slotOf_eq_some h).2

lemma lookup_set_some (hu : Unique N t) (hi : i < N)
    (hother : ∀ j < N, j ≠ i → t.keyAt j ≠ some k) (hself : ∀ k' ∈ t.keyAt i, k' = k) (v : ν) :
    lookup N (t.set i (some (k, v))) k' = if k' = k then some v else lookup N t k' := by
  have hu' := unique_set hu hother v
  by_cases hk : k' = k
  · subst hk
    rw [if_pos rfl, lookup_eq_some hu']
    exact ⟨i, hi, set_self _⟩
  · rw [if_neg hk]
    apply ext
    intro w
    rw [lookup_eq_some hu', lookup_eq_some hu]
    constructor
    · rintro ⟨j, hj, ht⟩
      by_cases hji : j = i
      · rw [hji, set_self, some.injEq, Prod.mk.injEq] at ht
        exact absurd ht.1.symm hk
      · exact ⟨j, hj, by rwa [set_of_ne hji] at ht⟩
    · rintro ⟨j, hj, ht⟩
      have hji : j ≠ i := by
        rintro rfl
        exact hk (hself k' (by simp [keyAt, ht]))
      exact ⟨j, hj, by rwa [set_of_ne hji]⟩

lemma lookup_set_none (hu : Unique N t) (hi : i < N) (hk : t.keyAt i = some k) :
    lookup N (t.set i none) k' = if k' = k then none else lookup N t k' := by
  have hu' : Unique N (t.set i none) := unique_set_none hu
  apply ext
  intro w
  rw [lookup_eq_some hu']
  by_cases hkk : k' = k
  · subst hkk
    simp only [if_true, reduceCtorEq, iff_false, not_exists, not_and]
    intro j hj ht
    by_cases hji : j = i
    · rw [hji, set_self] at ht
      cases ht
    · rw [set_of_ne hji] at ht
      exact hji (hu j hj i hi k' (by simp [keyAt, ht]) hk)
  · rw [if_neg hkk, lookup_eq_some hu]
    constructor
    · rintro ⟨j, hj, ht⟩
      by_cases hji : j = i
      · rw [hji, set_self] at ht
        cases ht
      · exact ⟨j, hj, by rwa [set_of_ne hji] at ht⟩
    · rintro ⟨j, hj, ht⟩
      have hji : j ≠ i := by
        rintro rfl
        rw [keyAt, ht, map_some, some.injEq] at hk
        exact hkk hk
      exact ⟨j, hj, by rwa [set_of_ne hji]⟩

structure Agrees (N : ℕ) (t : FirstFit κ ν) (m : Finmap fun _ : κ => ν) : Prop where
  unique : Unique N t
  lookup : ∀ k, lookup N t k = m.lookup k
  size : size N t = m.keys.card

namespace Agrees

variable {m : Finmap fun _ : κ => ν}

lemma empty : Agrees N (empty : FirstFit κ ν) ∅ where
  unique := by
    intro i _ j _ k h
    cases h
  lookup := by
    intro k
    have hnone : slotOf N (FirstFit.empty : FirstFit κ ν) k = none := by
      rw [slotOf_eq_none]
      intro i _ h
      cases h
    rw [FirstFit.lookup, hnone]
    rfl
  size := by simp [FirstFit.size, FirstFit.empty]

variable (h : Agrees N t m)
include h

lemma mem_iff : k ∈ m ↔ (slotOf N t k).isSome := by
  rw [← lookup_isSome, h.lookup, Finmap.lookup_isSome]

lemma put_old (hslot : slotOf N t k = some i) (v : ν) :
    Agrees N (t.set i (some (k, v))) (m.insert k v) := by
  obtain ⟨hi, hk⟩ := slotOf_eq_some hslot
  have hother : ∀ j < N, j ≠ i → t.keyAt j ≠ some k :=
    fun j hj hji hkj => hji (h.unique j hj i hi k hkj hk)
  have hocc := isSome_of_keyAt hk
  refine ⟨unique_set h.unique hother v, ?_, ?_⟩
  · intro k'
    rw [lookup_set_some h.unique hi hother (fun k' hk' => by simpa [hk] using hk'.symm) v, h.lookup]
    split_ifs with hkk
    · rw [hkk, Finmap.lookup_insert]
    · rw [Finmap.lookup_insert_of_ne _ hkk]
  · have hkeys : (m.insert k v).keys = m.keys := by
      ext k'
      rw [Finmap.mem_keys, Finmap.mem_keys, Finmap.mem_insert]
      refine ⟨fun hmem => hmem.elim (fun heq => ?_) id, Or.inr⟩
      rw [heq, h.mem_iff, hslot]
      rfl
    rw [size_set_some_of_some hocc, h.size, hkeys]

lemma put_new (hslot : slotOf N t k = none) (hi : i < N) (hfree : t i = none)
    (v : ν) : Agrees N (t.set i (some (k, v))) (m.insert k v) := by
  have hother : ∀ j < N, j ≠ i → t.keyAt j ≠ some k := fun j hj _ => slotOf_eq_none.mp hslot j hj
  have hnot : k ∉ m := by
    rw [h.mem_iff, hslot]
    simp
  refine ⟨unique_set h.unique hother v, ?_, ?_⟩
  · intro k'
    rw [lookup_set_some h.unique hi hother (fun k' hk' => by simp [keyAt, hfree] at hk') v,
      h.lookup]
    by_cases hkk : k' = k
    · rw [if_pos hkk, hkk, Finmap.lookup_insert]
    · rw [if_neg hkk, Finmap.lookup_insert_of_ne _ hkk]
  · have hkeys : (m.insert k v).keys = insert k m.keys := by
      ext k'
      rw [Finmap.mem_keys, Finset.mem_insert, Finmap.mem_keys, Finmap.mem_insert]
    rw [size_set_some_of_none hi hfree, h.size, hkeys,
      Finset.card_insert_of_notMem (by rwa [Finmap.mem_keys])]

lemma remove (hslot : slotOf N t k = some i) : Agrees N (t.set i none) (m.erase k) := by
  obtain ⟨hi, hk⟩ := slotOf_eq_some hslot
  have hmem : k ∈ m := by
    rw [h.mem_iff, hslot]
    rfl
  have hocc := isSome_of_keyAt hk
  refine ⟨unique_set_none h.unique, ?_, ?_⟩
  · intro k'
    rw [lookup_set_none h.unique hi hk, h.lookup]
    split_ifs with hkk
    · rw [hkk, Finmap.lookup_erase]
    · rw [Finmap.lookup_erase_ne hkk]
  · have hsize := size_set_none hi hocc
    have hcard := Finset.card_erase_add_one ((Finmap.mem_keys).mpr hmem)
    rw [Finmap.keys_erase, ← Nat.add_right_cancel_iff (n := 1), hsize, hcard, h.size]

end Agrees

end keys

end FirstFit

end Stasis
