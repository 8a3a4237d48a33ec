import Mathlib.Data.List.Basic
import Mathlib.Data.List.Count

namespace Stasis

open Option
open List

structure SlotTable (α : Type*) (n : ℕ) where
  slots : List (Option α)
  count : ℕ
  slots_length : slots.length = n
  count_eq : count = slots.countP Option.isSome
deriving DecidableEq

namespace SlotTable

variable {α : Type*} {n : ℕ}

variable {t : SlotTable α n} {a : α} {l : List (Option α)} {i : ℕ}

@[ext] lemma ext (h : t.slots = u.slots) : t = u := by
  obtain ⟨s, c, hs, hc⟩ := t
  obtain ⟨s', c', hs', hc'⟩ := u
  obtain rfl : s = s' := h
  obtain rfl : c = c' := hc.trans hc'.symm
  rfl

def empty (α : Type*) (n : ℕ) : SlotTable α n where
  slots := List.replicate n none
  count := 0
  slots_length := List.length_replicate
  count_eq := by simp [List.countP_replicate]

def occupants (t : SlotTable α n) : List α := t.slots.filterMap id

lemma mem_occupants : a ∈ t.occupants ↔ some a ∈ t.slots := by
  simp [occupants]

@[simp] lemma occupants_empty : (empty α n).occupants = [] := by
  simp [occupants, empty]

lemma count_le (t : SlotTable α n) : t.count ≤ n := by
  calc t.count = t.slots.countP isSome := t.count_eq
    _ ≤ t.slots.length := countP_le_length
    _ = n := t.slots_length

lemma length_occupants (t : SlotTable α n) : t.occupants.length = t.count := by
  rw [t.count_eq, occupants]
  generalize t.slots = l
  induction l with
  | nil => rfl
  | cons o l ih => cases o <;> simpa using ih

lemma firstFree_lt (t : SlotTable α n) (h : t.count < n) :
    t.slots.findIdx isNone < t.slots.length := by
  rw [findIdx_lt_length]
  by_contra! hfull
  have hall : ∀ o ∈ t.slots, o.isSome = true := by
    intro o ho
    simpa [isNone_iff_eq_none, isSome_iff_ne_none] using hfull o ho
  have hc := countP_eq_length.mpr hall
  rw [← t.count_eq, t.slots_length] at hc
  omega

lemma countP_set_of_none (hi : i < l.length) (hn : l[i] = none) (a : α) :
    (l.set i (some a)).countP isSome = l.countP isSome + 1 := by
  rw [countP_set hi]
  simp [hn]

lemma countP_set_none (hi : i < l.length) :
    (l.set i none).countP isSome = l.countP isSome - if l[i].isSome then 1 else 0 := by
  rw [countP_set hi]
  simp

def insert (t : SlotTable α n) (a : α) (h : t.count < n) : SlotTable α n where
  slots := t.slots.set (t.slots.findIdx Option.isNone) (some a)
  count := t.count + 1
  slots_length := by rw [List.length_set, t.slots_length]
  count_eq := by
    have hi := t.firstFree_lt h
    rw [countP_set_of_none hi (by simpa using List.findIdx_getElem (w := hi)), ← t.count_eq]

def removeWhere (t : SlotTable α n) (p : α → Bool) : SlotTable α n where
  slots := t.slots.map fun o => if o.any p then none else o
  count := t.count - t.slots.countP fun o => o.any p
  slots_length := by rw [List.length_map, t.slots_length]
  count_eq := by
    rw [t.count_eq]
    generalize t.slots = l
    induction l with
    | nil => rfl
    | cons o l ih =>
      have hle : (l.countP fun o => o.any p) ≤ l.countP Option.isSome := by
        apply List.countP_mono_left
        intro o _ h
        cases o <;> simp_all
      cases o with
      | none => simpa using ih
      | some a =>
        by_cases hp : p a
        · simp_all
        · simp_all
          omega

def take (t : SlotTable α n) (i : ℕ) : SlotTable α n where
  slots := t.slots.set i none
  count := t.count - if (t.slots[i]?.join).isSome then 1 else 0
  slots_length := by rw [List.length_set, t.slots_length]
  count_eq := by
    by_cases hi : i < t.slots.length
    · rw [countP_set_none hi, t.count_eq]
      simp [List.getElem?_eq_getElem hi]
    · have hi' : t.slots.length ≤ i := Nat.le_of_not_lt hi
      rw [List.set_eq_of_length_le hi', List.getElem?_eq_none hi', t.count_eq]
      simp

lemma mem_occupants_removeWhere :
    a ∈ (t.removeWhere p).occupants ↔ a ∈ t.occupants ∧ p a = false := by
  simp only [mem_occupants, removeWhere, List.mem_map]
  constructor
  · rintro ⟨o, ho, h⟩
    cases o with
    | none => simp at h
    | some b =>
      by_cases hb : p b
      · simp [hb] at h
      · simp only [any_some, hb, Bool.false_eq_true, if_false, some.injEq] at h
        subst h
        exact ⟨ho, by simpa using hb⟩
  · rintro ⟨ha, hp⟩
    exact ⟨some a, ha, by simp [hp]⟩

lemma occupants_removeWhere (t : SlotTable α n) (p : α → Bool) :
    (t.removeWhere p).occupants = t.occupants.filter fun a => !p a := by
  simp only [occupants, removeWhere]
  generalize t.slots = l
  induction l with
  | nil => rfl
  | cons o l ih =>
    cases o with
    | none => simpa using ih
    | some a =>
      by_cases hp : p a <;> simpa [hp] using ih

lemma occupants_set_perm (hi : i < l.length) (hn : l[i] = none) (a : α) :
    ((l.set i (some a)).filterMap id).Perm (a :: l.filterMap id) := by
  induction l generalizing i with
  | nil => simp at hi
  | cons o l ih =>
    cases i with
    | zero =>
      obtain rfl : o = none := hn
      simp
    | succ i =>
      have hperm := ih (i := i) (by simpa using hi) (by simpa using hn)
      cases o with
      | none => simpa using hperm
      | some b => simpa using (hperm.cons b).trans (List.Perm.swap a b _)

lemma occupants_insert_perm (t : SlotTable α n) (a : α) (h : t.count < n) :
    (t.insert a h).occupants.Perm (a :: t.occupants) := by
  have hi := t.firstFree_lt h
  exact occupants_set_perm hi (by simpa using findIdx_getElem (w := hi)) a

/-- The slots whose occupants satisfy `p`, with the occupants. -/
def slotsWhere (t : SlotTable α n) (p : α → Prop) [DecidablePred p] : List (ℕ × α) :=
  t.slots.zipIdx.filterMap fun (slot, index) =>
    slot.bind fun a => if p a then some (index, a) else none

lemma mem_slotsWhere [DecidablePred p] :
    (i, a) ∈ t.slotsWhere p ↔ t.slots[i]? = some (some a) ∧ p a := by
  simp only [slotsWhere, mem_filterMap, Prod.exists, mem_zipIdx_iff_getElem?]
  constructor
  · rintro ⟨slot, index, hslot, hentry⟩
    obtain ⟨b, rfl, hb⟩ := bind_eq_some_iff.mp hentry
    split_ifs at hb with hp
    cases hb
    exact ⟨hslot, hp⟩
  · rintro ⟨hslot, hp⟩
    exact ⟨some a, i, hslot, by simp [hp]⟩

lemma map_snd_slotsWhere (t : SlotTable α n) (p : α → Prop) [DecidablePred p] :
    (t.slotsWhere p).map Prod.snd = t.occupants.filter p := by
  simp only [slotsWhere, occupants]
  generalize 0 = k
  generalize t.slots = l
  induction l generalizing k with
  | nil => rfl
  | cons o l ih =>
    cases o with
    | none => simpa using ih (k + 1)
    | some a =>
      by_cases hp : p a <;> simpa [hp] using ih (k + 1)

lemma getElem?_foldl_take (is : List ℕ) (t : SlotTable α n) (j : ℕ) :
    (is.foldl take t).slots[j]? =
      if j ∈ is then t.slots[j]?.map fun _ => none else t.slots[j]? := by
  induction is generalizing t with
  | nil => simp
  | cons i is ih =>
    rw [foldl_cons, ih]
    simp only [take, getElem?_set, mem_cons]
    by_cases hij : i = j
    · subst hij
      by_cases hlt : i < t.slots.length <;> simp [hlt]
    · have hji : j ≠ i := fun h => hij h.symm
      simp [hij, hji]

lemma foldl_take_slotsWhere [DecidablePred p] {entries : List (ℕ × α)}
    (h : entries.Perm (t.slotsWhere p)) :
    (entries.map Prod.fst).foldl take t = t.removeWhere p := by
  apply ext
  apply ext_getElem?
  intro j
  rw [getElem?_foldl_take]
  simp only [removeWhere, getElem?_map]
  have hmem : j ∈ entries.map Prod.fst ↔ ∃ a, t.slots[j]? = some (some a) ∧ p a := by
    simp [h.mem_iff, mem_slotsWhere]
  rcases hslot : t.slots[j]? with - | - | a
  · simp
  · simp
  · have hiff : j ∈ entries.map Prod.fst ↔ p a := by
      rw [hmem, hslot]
      simp
    by_cases hp : p a
    · simp [hiff.mpr hp, hp]
    · rw [if_neg (fun hj => hp (hiff.mp hj))]
      simp [hp]

end SlotTable
end Stasis
