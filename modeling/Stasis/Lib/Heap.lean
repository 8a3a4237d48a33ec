import Mathlib.Algebra.Order.Group.Nat
import Mathlib.Data.Multiset.MapFold
import Mathlib.Data.Multiset.Range
import Mathlib.Logic.Equiv.Basic
import Mathlib.Order.Defs.LinearOrder

namespace Stasis.Heap

open Multiset
open Function
variable {α κ : Type*} [LinearOrder κ]

def parent (i : ℕ) : ℕ := (i - 1) / 2

def Ordered (key : α → κ) (n : ℕ) (f : ℕ → α) : Prop :=
  ∀ j, 0 < j → j < n → key (f (parent j)) ≤ key (f j)

def entries (f : ℕ → α) (n : ℕ) : Multiset α := (Multiset.range n).map f

def swap (f : ℕ → α) (i j : ℕ) : ℕ → α := f ∘ Equiv.swap i j

def siftUp (key : α → κ) (f : ℕ → α) : ℕ → ℕ → ℕ → α
  | 0, _ => f
  | rounds + 1, i =>
    if 0 < i ∧ key (f i) < key (f (parent i)) then
      siftUp key (swap f i (parent i)) rounds (parent i)
    else f

/-- The child of slot `i` that orders first; of two equal ones the left. -/
def child (key : α → κ) (f : ℕ → α) (n i : ℕ) : ℕ :=
  if 2 * i + 2 < n ∧ key (f (2 * i + 2)) < key (f (2 * i + 1)) then 2 * i + 2 else 2 * i + 1

def siftDown (key : α → κ) (n : ℕ) (f : ℕ → α) : ℕ → ℕ → ℕ → α
  | 0, _ => f
  | rounds + 1, i =>
    if 2 * i + 1 < n ∧ key (f (child key f n i)) < key (f i) then
      siftDown key n (swap f i (child key f n i)) rounds (child key f n i)
    else f

variable {key : α → κ} {f g : ℕ → α} {n i j c rounds : ℕ}

lemma parent_lt (h : 0 < i) : parent i < i := by
  unfold parent
  omega

lemma parent_eq_iff (h : 0 < j) : parent j = i ↔ j = 2 * i + 1 ∨ j = 2 * i + 2 := by
  unfold parent
  omega

lemma swap_left : swap f i j i = f j := by simp [swap]

lemma swap_right : swap f i j j = f i := by simp [swap]

lemma swap_of_ne (hi : k ≠ i) (hj : k ≠ j) : swap f i j k = f k := by
  simp [swap, Equiv.swap_apply_of_ne_of_ne hi hj]

lemma swap_eq_update : swap f i j = update (update f i (f j)) j (f i) := by
  funext k
  by_cases hj : k = j
  · rw [hj, swap_right, update_self]
  · rw [update_of_ne hj]
    by_cases hi : k = i
    · rw [hi, swap_left, update_self]
    · rw [update_of_ne hi, swap_of_ne hi hj]

lemma entries_succ : entries f (n + 1) = f n ::ₘ entries f n := by
  simp [entries, range_succ]

lemma entries_congr (h : ∀ k < n, f k = g k) : entries f n = entries g n :=
  map_congr rfl fun k hk => h k (mem_range.mp hk)

lemma mem_entries : a ∈ entries f n ↔ ∃ k < n, f k = a := by
  simp [entries]

lemma entries_swap (hi : i < n) (hj : j < n) : entries (swap f i j) n = entries f n := by
  have hlt : ∀ k < n, Equiv.swap i j k < n := by
    intro k hk
    rw [Equiv.swap_apply_def]
    split_ifs <;> assumption
  have hperm : (range n).map (Equiv.swap i j) = range n := by
    rw [((nodup_range n).map (Equiv.swap i j).injective).ext (nodup_range n)]
    intro k
    simp only [mem_map, mem_range]
    constructor
    · rintro ⟨a, ha, rfl⟩
      exact hlt a ha
    · intro hk
      exact ⟨Equiv.swap i j k, hlt k hk, Equiv.swap_apply_self i j k⟩
  rw [entries, swap, ← map_map, hperm]
  rfl

/-- The order holds except between slot `i` and its parent, and the children of
slot `i` would order behind that parent. -/
structure OrderedAbove (key : α → κ) (n : ℕ) (f : ℕ → α) (i : ℕ) : Prop where
  elsewhere : ∀ j, 0 < j → j < n → j ≠ i → key (f (parent j)) ≤ key (f j)
  across : ∀ j, 0 < j → j < n → parent j = i → 0 < i → key (f (parent i)) ≤ key (f j)

lemma OrderedAbove.ordered (h : OrderedAbove key n f i)
    (hdone : 0 < i → key (f (parent i)) ≤ key (f i)) : Ordered key n f := by
  intro j hpos hj
  by_cases hji : j = i
  · subst hji
    exact hdone hpos
  · exact h.elsewhere j hpos hj hji

lemma OrderedAbove.step (h : OrderedAbove key n f i) (hpos : 0 < i) (hi : i < n)
    (hlt : key (f i) < key (f (parent i))) :
    OrderedAbove key n (swap f i (parent i)) (parent i) where
  elsewhere := by
    intro j hj hjn hne
    by_cases hji : j = i
    · subst hji
      rw [swap_left, swap_right]
      exact hlt.le
    · rw [swap_of_ne hji hne]
      by_cases hpar : parent j = i
      · rw [hpar, swap_left]
        exact h.across j hj hjn hpar hpos
      · by_cases hsib : parent j = parent i
        · rw [hsib, swap_right]
          exact hlt.le.trans (hsib ▸ h.elsewhere j hj hjn hji)
        · rw [swap_of_ne hpar hsib]
          exact h.elsewhere j hj hjn hji
  across := by
    intro j hj hjn hpar hppos
    have hne : parent (parent i) ≠ parent i := (parent_lt hppos).ne
    have hne' : parent (parent i) ≠ i := ((parent_lt hppos).trans (parent_lt hpos)).ne
    have hpn : parent i < n := (parent_lt hpos).trans hi
    have hupper : key (f (parent (parent i))) ≤ key (f (parent i)) :=
      h.elsewhere (parent i) hppos hpn (parent_lt hpos).ne
    rw [swap_of_ne hne' hne]
    by_cases hji : j = i
    · rw [hji, swap_left]
      exact hupper
    · have hjp : j ≠ parent i := fun heq => (parent_lt hj).ne (hpar.trans heq.symm)
      rw [swap_of_ne hji hjp]
      exact hupper.trans (hpar ▸ h.elsewhere j hj hjn hji)

lemma siftUp_ordered (h : OrderedAbove key n f i) (hi : i < n) (hrou : i < rounds) :
    Ordered key n (siftUp key f rounds i) := by
  induction rounds generalizing f i with
  | zero => omega
  | succ rounds ih =>
    rw [siftUp]
    split
    case isTrue hswap =>
      obtain ⟨hpos, hlt⟩ := hswap
      have hpar := parent_lt hpos
      exact ih (h.step hpos hi hlt) (by omega) (by omega)
    case isFalse hstay =>
      refine h.ordered fun hpos => ?_
      exact not_lt.mp fun hlt => hstay ⟨hpos, hlt⟩

lemma entries_siftUp (hi : i < n) : entries (siftUp key f rounds i) n = entries f n := by
  induction rounds generalizing f i with
  | zero => rfl
  | succ rounds ih =>
    rw [siftUp]
    split
    case isTrue hswap =>
      have hpar : parent i < n := (parent_lt hswap.1).trans hi
      rw [ih hpar, entries_swap hi hpar]
    case isFalse => rfl

lemma siftUp_of_lt (h : i < j) : siftUp key f rounds i j = f j := by
  induction rounds generalizing f i with
  | zero => rfl
  | succ rounds ih =>
    rw [siftUp]
    split
    case isTrue hswap =>
      have hpar := parent_lt hswap.1
      rw [ih (by omega), swap_of_ne (by omega) (by omega)]
    case isFalse => rfl

/-- The order holds except between slot `i` and its children, and those would order
behind the parent of slot `i`. -/
structure OrderedBelow (key : α → κ) (n : ℕ) (f : ℕ → α) (i : ℕ) : Prop where
  elsewhere : ∀ j, 0 < j → j < n → parent j ≠ i → key (f (parent j)) ≤ key (f j)
  across : ∀ j, 0 < j → j < n → parent j = i → 0 < i → key (f (parent i)) ≤ key (f j)

lemma child_le (hj : 0 < j) (hn : j < n) (hpar : parent j = i) :
    key (f (child key f n i)) ≤ key (f j) := by
  rw [parent_eq_iff hj] at hpar
  rw [child]
  split
  case isTrue h =>
    obtain rfl | rfl := hpar
    · exact h.2.le
    · exact le_rfl
  case isFalse h =>
    obtain rfl | rfl := hpar
    · exact le_rfl
    · exact not_lt.mp fun hlt => h ⟨hn, hlt⟩

lemma child_lt (h : 2 * i + 1 < n) : child key f n i < n := by
  rw [child]
  split
  case isTrue h' => exact h'.1
  case isFalse => exact h

lemma lt_child : i < child key f n i := by
  rw [child]
  split <;> omega

lemma parent_child : parent (child key f n i) = i := by
  rw [child]
  split <;> (unfold parent; omega)

lemma OrderedBelow.ordered (h : OrderedBelow key n f i)
    (hdone : 2 * i + 1 < n → key (f i) ≤ key (f (child key f n i))) : Ordered key n f := by
  intro j hpos hj
  by_cases hpar : parent j = i
  · rw [hpar]
    have hslot := (parent_eq_iff hpos).mp hpar
    exact (hdone (by omega)).trans (child_le hpos hj hpar)
  · exact h.elsewhere j hpos hj hpar

lemma OrderedBelow.step (h : OrderedBelow key n f i) (hleft : 2 * i + 1 < n)
    (hlt : key (f (child key f n i)) < key (f i)) :
    OrderedBelow key n (swap f i (child key f n i)) (child key f n i) := by
  have hi : i < child key f n i := lt_child
  have hpar : parent (child key f n i) = i := parent_child
  have hc : child key f n i < n := child_lt hleft
  have hleast : ∀ j, 0 < j → j < n → parent j = i → key (f (child key f n i)) ≤ key (f j) :=
    fun j => child_le
  generalize child key f n i = c at *
  constructor
  · intro j hj hjn hne
    by_cases hji : j = i
    · -- slot `i` got the child, which orders behind the parent of `i`
      subst hji
      have hp := parent_lt hj
      rw [swap_left, swap_of_ne (by omega) (by omega)]
      exact h.across c (by omega) hc hpar hj
    · by_cases hjc : j = c
      · subst hjc
        rw [hpar, swap_left, swap_right]
        exact hlt.le
      · rw [swap_of_ne hji hjc]
        by_cases hpi : parent j = i
        · rw [hpi, swap_left]
          exact hleast j hj hjn hpi
        · rw [swap_of_ne hpi hne]
          exact h.elsewhere j hj hjn hpi
  · intro j hj hjn hpc _
    have hp := parent_lt hj
    rw [hpar, swap_left, swap_of_ne (by omega) (by omega)]
    exact hpc ▸ h.elsewhere j hj hjn (by omega)

lemma siftDown_ordered (h : OrderedBelow key n f i) (hi : i < n) (hrou : n ≤ i + rounds) :
    Ordered key n (siftDown key n f rounds i) := by
  induction rounds generalizing f i with
  | zero => omega
  | succ rounds ih =>
    rw [siftDown]
    split
    case isTrue hswap =>
      obtain ⟨hleft, hlt⟩ := hswap
      have hchild : i < child key f n i := lt_child
      exact ih (h.step hleft hlt) (child_lt hleft) (by omega)
    case isFalse hstay =>
      refine h.ordered fun hleft => ?_
      exact not_lt.mp fun hlt => hstay ⟨hleft, hlt⟩

lemma entries_siftDown (hi : i < n) : entries (siftDown key n f rounds i) n = entries f n := by
  induction rounds generalizing f i with
  | zero => rfl
  | succ rounds ih =>
    rw [siftDown]
    split
    case isTrue hswap => rw [ih (child_lt hswap.1), entries_swap hi (child_lt hswap.1)]
    case isFalse => rfl

lemma siftDown_of_le (hi : i < n) (h : n ≤ j) : siftDown key n f rounds i j = f j := by
  induction rounds generalizing f i with
  | zero => rfl
  | succ rounds ih =>
    rw [siftDown]
    split
    case isTrue hswap =>
      have hchild : child key f n i < n := child_lt hswap.1
      rw [ih hchild, swap_of_ne (by omega) (by omega)]
    case isFalse => rfl

lemma Ordered.root_le (h : Ordered key n f) (hj : j < n) : key (f 0) ≤ key (f j) := by
  induction j using Nat.strong_induction_on with
  | _ j ih =>
    obtain rfl | hpos := Nat.eq_zero_or_pos j
    · exact le_rfl
    · have hpar := parent_lt hpos
      exact (ih (parent j) hpar (by omega)).trans (h j hpos hj)

lemma Ordered.push (h : Ordered key n f) (a : α) : OrderedAbove key (n + 1) (update f n a) n where
  elsewhere := by
    intro j hpos hj hne
    have hpar := parent_lt hpos
    rw [update_of_ne (by omega), update_of_ne hne]
    exact h j hpos (by omega)
  across := by
    intro j hpos hj hpar hn
    have := parent_lt hpos
    omega

lemma Ordered.pop (h : Ordered key (n + 1) f) (hg : ∀ k, 0 < k → k < n → g k = f k) :
    OrderedBelow key n g 0 where
  elsewhere := by
    intro j hpos hj hne
    have hpar := parent_lt hpos
    rw [hg j hpos hj, hg (parent j) (by omega) (by omega)]
    exact h j hpos (by omega)
  across := by
    intro j _ _ _ hzero
    omega

lemma entries_pop (hn : 0 < n) (hroot : g 0 = f n) (hg : ∀ k, 0 < k → k < n → g k = f k) :
    entries f (n + 1) = f 0 ::ₘ entries g n := by
  have hswap : entries (swap f 0 n) (n + 1) = entries f (n + 1) :=
    entries_swap (by omega) (by omega)
  have hcongr : entries (swap f 0 n) n = entries g n := by
    apply entries_congr
    intro k hk
    obtain rfl | hpos := Nat.eq_zero_or_pos k
    · rw [swap_left, hroot]
    · rw [swap_of_ne (by omega) (by omega), hg k hpos hk]
  rw [← hswap, entries_succ, swap_right, hcongr]

end Stasis.Heap
