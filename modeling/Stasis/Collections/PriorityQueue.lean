import Stasis.Collections.Storage
import Stasis.Lib.Heap
import Stasis.Lib.Refine

namespace Stasis.Collections

open Word
open Heap
open Function
open BitVec (ofNat)
open List

namespace PriorityQueue

@[ext] structure Cell where
  priority : Word
  order : Word
  value : Word
deriving DecidableEq, Repr

def loadCell (capacity : ℕ) (index : Word) : Lowered Cell := do
  let priority ← loadElement capacity .priority index
  let order ← loadElement capacity .order index
  let value ← loadElement capacity .values index
  return ⟨priority, order, value⟩

def storeCell (capacity : ℕ) (index : Word) (cell : Cell) : Lowered Unit := do
  storeElement capacity .priority index cell.priority
  storeElement capacity .order index cell.order
  storeElement capacity .values index cell.value

def metadataValid (capacity : ℕ) (count : Word) : Bool :=
  BitVec.sle 0 count && count.sle (ofNat 32 capacity)

def before (cell other : Cell) : Bool :=
  cell.priority.slt other.priority ||
    (cell.priority == other.priority && cell.order.ult other.order)

def siftUp (capacity : ℕ) : ℕ → Word → Lowered Unit
  | 0, _ => throw .looping
  | rounds + 1, currentIndex => do
    if BitVec.slt 0 currentIndex then
      let parentIndex := (currentIndex - 1).udiv 2
      let current ← loadCell capacity currentIndex
      let parent ← loadCell capacity parentIndex
      if before current parent then
        storeCell capacity parentIndex current
        storeCell capacity currentIndex parent
        siftUp capacity rounds parentIndex

/-- The child that orders first, its right sibling only if there is one. -/
def chooseChild (capacity : ℕ) (limit left : Word) : Lowered (Word × Cell) := do
  let right := left + 1
  let leftCell ← loadCell capacity left
  if right.slt limit then
    let rightCell ← loadCell capacity right
    return if before rightCell leftCell then (right, rightCell) else (left, leftCell)
  else return (left, leftCell)

/-- `emit_typed_priority_queue_sift_down`; the left child is computed in 64 bits. -/
def siftDown (capacity : ℕ) (limit : Word) : ℕ → Word → Lowered Unit
  | 0, _ => throw .looping
  | rounds + 1, currentIndex => do
    if currentIndex.slt limit then
      let current ← loadCell capacity currentIndex
      let left64 : BitVec 64 := (currentIndex.signExtend 64 <<< 1) + 1
      if left64.ult (limit.signExtend 64) then
        let (childIndex, child) ← chooseChild capacity limit (left64.truncate 32)
        if before child current then
          storeCell capacity currentIndex child
          storeCell capacity childIndex current
          siftDown capacity limit rounds childIndex

def pushFast (capacity : ℕ) (count nextOrder priority value : Word) : Lowered Unit := do
  storeCell capacity count ⟨priority, nextOrder, value⟩
  siftUp capacity (capacity + 1) count
  storeScalar .count (count + 1)
  storeScalar .nextOrder (nextOrder + 1)

def popFast (capacity : ℕ) (count : Word) : Lowered Unit := do
  let lastIndex := count - 1
  if count = 1 then
    storeCell capacity lastIndex ⟨0, 0, 0⟩
    storeScalar .count 0
  else
    let last ← loadCell capacity lastIndex
    storeCell capacity 0 last
    storeCell capacity lastIndex ⟨0, 0, 0⟩
    storeScalar .count (count - 1)
    siftDown capacity (count - 1) (capacity + 1) 0

inductive GuardMode
  | push | pop | peek
deriving DecidableEq, Repr

structure GuardState where
  count : Word
  nextOrder : Option Word

def guardState (capacity : ℕ) (mode : GuardMode) : Lowered (Bool × GuardState) := do
  if capacity = 0 then
    let count ← loadScalar .count
    metadataTrap (count == 0)
    let nextOrder ← if mode = .push then some <$> loadScalar .nextOrder else pure none
    return (false, ⟨count, nextOrder⟩)
  else
    let count ← loadScalar .count
    metadataTrap (metadataValid capacity count)
    match mode with
    | .push =>
      let nextOrder ← loadScalar .nextOrder
      let hasRoom := count.slt (ofNat 32 capacity)
      let orderAvailable := nextOrder != -1
      return (metadataValid capacity count && hasRoom && orderAvailable, ⟨count, some nextOrder⟩)
    | .pop | .peek =>
      return (metadataValid capacity count && BitVec.slt 0 count, ⟨count, none⟩)

def queueCount (capacity : ℕ) : Lowered Word := do
  let count ← loadScalar .count
  metadataTrap (if capacity = 0 then count == 0 else metadataValid capacity count)
  return count

def clear (capacity : ℕ) : Lowered Unit := do
  storeScalar .count 0
  storeScalar .nextOrder 0
  clearLanes capacity [.priority, .order, .values]

inductive Op
  | push (priority value : Word)
  | pop
  | peek
  | peekPriority
  | count
  | clear
deriving DecidableEq, Repr

/-- An action that runs only if its preflight allows it, from the state the
preflight captured. -/
def guarded (capacity : ℕ) (mode : GuardMode) (action : GuardState → Lowered Outcome) :
    Lowered Outcome := do
  let (can, state) ← guardState capacity mode
  if can then action state else return .refused

/-- The code of a call, each guarded action inside its own `if can_…`. -/
def lower (capacity : ℕ) : Op → Lowered Outcome
  | .push priority value => guarded capacity .push fun state => do
      -- a push preflight always captures the number of the push
      if let some nextOrder := state.nextOrder then
        pushFast capacity state.count nextOrder priority value
      return .done
  | .pop => guarded capacity .pop fun state => do
      popFast capacity state.count
      return .done
  | .peek => guarded capacity .peek fun _ => do
      return .value (← loadElement capacity .values 0)
  | .peekPriority => guarded capacity .peek fun _ => do
      return .value (← loadElement capacity .priority 0)
  | .count => do return .value (← queueCount capacity)
  | .clear => do
      clear capacity
      return .done

def emit (capacity : ℕ) (op : Op) : Except String (Lowered Outcome) := do
  let _ ← capacityI32 "typed priority_queue" "i32 operation range" capacity
  pure (lower capacity op)

def cells (s : Storage) (i : ℕ) : Cell :=
  ⟨s.array .priority i, s.array .order i, s.array .values i⟩

def setCells (s : Storage) (f : ℕ → Cell) : Storage where
  scalar := s.scalar
  array := fun lane i =>
    match lane with
    | .priority => (f i).priority
    | .order => (f i).order
    | .values => (f i).value
    | .occupied => s.array .occupied i
    | .keys => s.array .keys i

section cells

@[simp] lemma cells_setCells : cells (setCells s f) = f := rfl

@[simp] lemma setCells_scalar : (setCells s f).scalar = s.scalar := rfl

@[simp] lemma setCells_setCells : setCells (setCells s f) g = setCells s g := rfl

@[simp] lemma setCells_cells : setCells s (cells s) = s := by
  obtain ⟨scalar, array⟩ := s
  simp only [setCells, cells, Storage.mk.injEq, true_and]
  funext lane i
  cases lane <;> rfl

lemma run_loadCell (h : index.toNat < capacity) :
    loadCell capacity index s = .ok (cells s index.toNat) s := by
  rw [loadCell, bind_of_ok (run_loadElement h), bind_of_ok (run_loadElement h),
    bind_of_ok (run_loadElement h)]
  rfl

lemma run_storeCell (h : index.toNat < capacity) (cell : Cell) :
    storeCell capacity index cell s = .ok () (setCells s (update (cells s) index.toNat cell)) := by
  rw [storeCell, bind_of_ok (run_storeElement h), bind_of_ok (run_storeElement h),
    run_storeElement h]
  congr 1
  simp only [setCells, Storage.setElement, Storage.mk.injEq, true_and]
  funext lane i
  by_cases hi : i = index.toNat
  · subst hi
    cases lane <;> simp [ArrayLane.narrow, ArrayLane.storageBytes]
  · cases lane <;> simp [hi, cells]

/-- A priority and the number of a push, in lexicographic order. -/
def Rank := ℤ ×ₗ ℕ

instance : LinearOrder Rank := @Prod.Lex.instLinearOrder ℤ ℕ Int.instLinearOrder Nat.instLinearOrder

def Rank.of (priority : Word) (sequence : ℕ) : Rank := toLex (priority.toInt, sequence)

lemma Rank.of_lt_of (p q : Word) (m n : ℕ) :
    Rank.of p m < Rank.of q n ↔ p.toInt < q.toInt ∨ p = q ∧ m < n := by
  rw [← BitVec.toInt_inj]
  exact Prod.Lex.toLex_lt_toLex

lemma Rank.sequence_eq (h : Rank.of p m = Rank.of q n) : m = n :=
  congrArg (fun r : ℤ ×ₗ ℕ => (ofLex r).2) h

/-- By signed priority, and by the number of the push among equal priorities. -/
def key (cell : Cell) : Rank := Rank.of cell.priority cell.order.toNat

lemma before_iff (c d : Cell) : before c d = true ↔ key c < key d := by
  simp only [before, key, Rank.of_lt_of, Bool.or_eq_true, Bool.and_eq_true,
    BitVec.slt_iff_toInt_lt, BitVec.ult_iff_toNat_lt, beq_iff_eq]

lemma toNat_parent (hpos : 0 < i) (hi : i < 2 ^ 31) :
    ((ofNat 32 i - 1).udiv 2 : Word) = ofNat 32 (parent i) := by
  apply BitVec.eq_of_toNat_eq
  have hsub : (ofNat 32 i - 1 : Word).toNat = i - 1 := by
    rw [BitVec.toNat_sub, toNat_ofNat hi]
    change (2 ^ 32 - 1 + i) % 2 ^ 32 = i - 1
    omega
  rw [BitVec.udiv_eq, BitVec.toNat_udiv, hsub, toNat_ofNat]
  · rfl
  · have := Heap.parent_lt hpos
    omega

lemma run_siftUp (hc : capacity < 2 ^ 31) (hi : i < capacity) (hr : i < rounds) :
    siftUp capacity rounds (ofNat 32 i) s =
      .ok () (setCells s (Heap.siftUp key (cells s) rounds i)) := by
  induction rounds generalizing i s with
  | zero => omega
  | succ rounds ih =>
    have hidx : (ofNat 32 i).toNat = i := toNat_ofNat (by omega)
    have hzero : BitVec.slt 0 (ofNat 32 i) = decide (0 < i) := by
      rw [slt_of_lt (by decide) (by omega), hidx]
      rfl
    rw [siftUp, hzero, Heap.siftUp]
    by_cases hpos : 0 < i
    · have hpar := Heap.parent_lt hpos
      have hpidx : (ofNat 32 (parent i)).toNat = parent i := toNat_ofNat (by omega)
      rw [if_pos (decide_eq_true hpos), toNat_parent hpos (by omega),
        bind_of_ok (run_loadCell (by omega)), bind_of_ok (run_loadCell (by omega)), hidx, hpidx]
      by_cases hlt : key (cells s i) < key (cells s (parent i))
      · rw [if_pos ((before_iff _ _).mpr hlt), bind_of_ok (run_storeCell (by omega) _),
          bind_of_ok (run_storeCell (by omega) _), hidx, hpidx, ih (by omega) (by omega),
          if_pos ⟨hpos, hlt⟩, swap_eq_update, update_comm (by omega)]
        rfl
      · rw [if_neg (mt (before_iff _ _).mp hlt), if_neg (fun h => hlt h.2), setCells_cells]
        rfl
    · rw [if_neg (by simpa using hpos), if_neg (fun h => hpos h.1), setCells_cells]
      rfl

lemma toNat_left (hi : i < 2 ^ 31) :
    ((ofNat 32 i).signExtend 64 <<< 1 + 1 : BitVec 64).toNat = 2 * i + 1 := by
  have hidx : (ofNat 32 i).toNat = i := toNat_ofNat hi
  have hext : ((ofNat 32 i).signExtend 64).toNat = i := by
    rw [toNat_signExtend (by omega), hidx]
  rw [BitVec.toNat_add, BitVec.toNat_shiftLeft, hext, Nat.shiftLeft_eq]
  change (i * 2 ^ 1 % 2 ^ 64 + 1) % 2 ^ 64 = 2 * i + 1
  omega

lemma truncate_left (hi : i < 2 ^ 31) :
    ((ofNat 32 i).signExtend 64 <<< 1 + 1 : BitVec 64).truncate 32 = ofNat 32 (2 * i + 1) := by
  apply BitVec.eq_of_toNat_eq
  rw [BitVec.truncate_eq_setWidth, BitVec.toNat_setWidth, toNat_left hi, BitVec.toNat_ofNat]

section siftDown

variable (hc : capacity < 2 ^ 31) (hn : n ≤ capacity)
include hc hn

lemma toNat_slot (hi : i ≤ n) : (ofNat 32 i).toNat = i := toNat_ofNat (by omega)

lemma slt_limit (hi : i ≤ n) : (ofNat 32 i).slt (ofNat 32 n) = decide (i < n) := by
  have hi' := toNat_slot hc hn hi
  have hn' := toNat_slot hc hn le_rfl
  rw [slt_of_lt (by omega) (by omega), hi', hn']

lemma ult_limit (hi : i < n) : ((ofNat 32 i).signExtend 64 <<< 1 + 1 : BitVec 64).ult
      ((ofNat 32 n).signExtend 64) = decide (2 * i + 1 < n) := by
  have hn' := toNat_slot hc hn le_rfl
  rw [BitVec.ult, toNat_left (by omega), toNat_signExtend (by omega), hn']

lemma run_chooseChild (hleft : 2 * i + 1 < n) :
    chooseChild capacity (ofNat 32 n) (ofNat 32 (2 * i + 1)) s =
      .ok (ofNat 32 (Heap.child key (cells s) n i), cells s (Heap.child key (cells s) n i)) s := by
  have hright : (ofNat 32 (2 * i + 1) + 1 : Word) = ofNat 32 (2 * i + 2) :=
    (BitVec.ofNat_add (2 * i + 1) 1).symm
  have hl := toNat_slot hc hn hleft.le
  have hr := toNat_slot hc hn (show 2 * i + 2 ≤ n by omega)
  rw [chooseChild, hright, bind_of_ok (run_loadCell (by omega)), hl,
    slt_limit hc hn (show 2 * i + 2 ≤ n by omega), Heap.child]
  by_cases hlt : 2 * i + 2 < n
  · rw [if_pos (decide_eq_true hlt), bind_of_ok (run_loadCell (by omega)), hr]
    by_cases hbef : key (cells s (2 * i + 2)) < key (cells s (2 * i + 1))
    · rw [if_pos ((before_iff _ _).mpr hbef), if_pos ⟨hlt, hbef⟩]
      rfl
    · rw [if_neg (mt (before_iff _ _).mp hbef), if_neg (fun h => hbef h.2)]
      rfl
  · rw [if_neg (by simpa using hlt), if_neg (fun h => hlt h.1)]
    rfl

lemma run_siftDown (hi : i < n) (hr : n < i + rounds) :
    siftDown capacity (ofNat 32 n) rounds (ofNat 32 i) s =
      .ok () (setCells s (Heap.siftDown key n (cells s) rounds i)) := by
  induction rounds generalizing i s with
  | zero => omega
  | succ rounds ih =>
    have hidx := toNat_slot hc hn hi.le
    rw [siftDown, slt_limit hc hn hi.le, if_pos (decide_eq_true hi),
      bind_of_ok (run_loadCell (by omega)), hidx, ult_limit hc hn hi, Heap.siftDown]
    by_cases hleft : 2 * i + 1 < n
    · have hchild : Heap.child key (cells s) n i < n := Heap.child_lt hleft
      have hlt_child : i < Heap.child key (cells s) n i := lt_child
      have hcidx := toNat_slot hc hn hchild.le
      rw [if_pos (decide_eq_true hleft), truncate_left (by omega),
        bind_of_ok (run_chooseChild hc hn hleft)]
      by_cases hlt : key (cells s (Heap.child key (cells s) n i)) < key (cells s i)
      · rw [if_pos ⟨hleft, hlt⟩]
        dsimp only
        rw [if_pos ((before_iff _ _).mpr hlt), bind_of_ok (run_storeCell (by omega) _),
          bind_of_ok (run_storeCell (by omega) _), hidx, hcidx, ih hchild (by omega),
          swap_eq_update]
        rfl
      · rw [if_neg (fun h => hlt h.2), setCells_cells]
        dsimp only
        rw [if_neg (mt (before_iff _ _).mp hlt)]
        rfl
    · rw [if_neg (by simpa using hleft), if_neg (fun h => hleft h.1), setCells_cells]
      rfl

end siftDown

end cells

structure Entry where
  priority : Word
  /-- How many entries were pushed before it since the last clear. -/
  sequence : ℕ
  value : Word
deriving DecidableEq, Repr

/-- By signed priority, the earliest push first among equal priorities. -/
def Entry.rank (e : Entry) : Rank := Rank.of e.priority e.sequence

/-- The entries in the order of their pushes, and the number of pushes since the last
clear. -/
@[ext] structure Queue where
  entries : List Entry
  pushes : ℕ
  ordered : entries.Pairwise fun a b => a.sequence < b.sequence
  below : ∀ e ∈ entries, e.sequence < pushes

namespace Queue

def empty : Queue where
  entries := []
  pushes := 0
  ordered := .nil
  below := by simp

def first (q : Queue) : Option Entry := q.entries.argmin Entry.rank

def push (q : Queue) (priority value : Word) : Queue where
  entries := q.entries ++ [⟨priority, q.pushes, value⟩]
  pushes := q.pushes + 1
  ordered := by
    rw [List.pairwise_append]
    refine ⟨q.ordered, List.pairwise_singleton .., fun a ha b hb => ?_⟩
    rw [List.mem_singleton.mp hb]
    exact q.below a ha
  below := by
    intro e he
    obtain he | he := List.mem_append.mp he
    · exact Nat.lt_succ_of_lt (q.below e he)
    · rw [List.mem_singleton.mp he]
      exact Nat.lt_succ_self _

def remove (q : Queue) (e : Entry) : Queue where
  entries := q.entries.erase e
  pushes := q.pushes
  ordered := q.ordered.sublist List.erase_sublist
  below := fun a ha => q.below a (List.mem_of_mem_erase ha)

def step (capacity : ℕ) (q : Queue) : Op → Queue × Outcome
  | .push priority value =>
    if q.entries.length < capacity ∧ q.pushes < 2 ^ 32 - 1 then (q.push priority value, .done)
    else (q, .refused)
  | .pop =>
    match q.first with
    | some e => (q.remove e, .done)
    | none => (q, .refused)
  | .peek =>
    match q.first with
    | some e => (q, .value e.value)
    | none => (q, .refused)
  | .peekPriority =>
    match q.first with
    | some e => (q, .value e.priority)
    | none => (q, .refused)
  | .count => (q, .value (ofNat 32 q.entries.length))
  | .clear => (empty, .done)

lemma eq_of_sequence_eq (q : Queue) (ha : a ∈ q.entries) (hb : b ∈ q.entries)
    (h : a.sequence = b.sequence) : a = b := by
  have hnodup : (q.entries.map Entry.sequence).Nodup :=
    pairwise_map.mpr (q.ordered.imp Nat.ne_of_lt)
  exact inj_on_of_nodup_map hnodup ha hb h

lemma first_isSome (q : Queue) (h : 0 < q.entries.length) : ∃ e, q.first = some e := by
  cases hfirst : q.first with
  | some e => exact ⟨e, rfl⟩
  | none =>
    rw [first, argmin_eq_none] at hfirst
    rw [hfirst] at h
    cases h

lemma first_of_length (q : Queue) (h : q.entries.length = 0) : q.first = none :=
  argmin_eq_none.mpr (length_eq_zero_iff.mp h)

lemma first_mem {q : Queue} (h : q.first = some e) : e ∈ q.entries := argmin_mem h

lemma first_eq {q : Queue} (h : q.first = some e) (ha : a ∈ q.entries) (hle : a.rank ≤ e.rank) :
    a = e := by
  have hge : e.rank ≤ a.rank := le_of_mem_argmin ha h
  have hrank : a.rank = e.rank := le_antisymm hle hge
  have hseq : a.sequence = e.sequence := Rank.sequence_eq hrank
  exact q.eq_of_sequence_eq ha (first_mem h) hseq

end Queue

open Queue

def Entry.cell (e : Entry) : Cell := ⟨e.priority, ofNat 32 e.sequence, e.value⟩

structure Represents (capacity : ℕ) (s : Storage) (q : Queue) : Prop where
  length_le : q.entries.length ≤ capacity
  pushes_lt : q.pushes < 2 ^ 32
  count : s.scalar .count = ofNat 32 q.entries.length
  nextOrder : s.scalar .nextOrder = ofNat 32 q.pushes
  heap : Heap.Ordered key q.entries.length (cells s)
  contents : Heap.entries (cells s) q.entries.length = q.entries.map Entry.cell
  free : ∀ i, q.entries.length ≤ i → cells s i = ⟨0, 0, 0⟩

section represents

lemma Represents.zeroed : Represents capacity .zeroed .empty where
  length_le := Nat.zero_le _
  pushes_lt := by decide
  count := rfl
  nextOrder := rfl
  heap := fun _ _ h => absurd h (Nat.not_lt_zero _)
  contents := rfl
  free := fun _ _ => rfl

lemma Represents.key_cell (h : Represents capacity s q) (he : e ∈ q.entries) :
    key e.cell = e.rank := by
  have hlt := q.below e he
  have hpus := h.pushes_lt
  have horder : (ofNat 32 e.sequence).toNat = e.sequence := by
    rw [BitVec.toNat_ofNat]
    omega
  simp only [key, Entry.cell, Entry.rank, horder]

lemma Represents.root (h : Represents capacity s q) (hfirst : q.first = some e) :
    cells s 0 = e.cell := by
  have hmem := first_mem hfirst
  have hpos : 0 < q.entries.length := length_pos_of_mem hmem
  have hcells : ∀ c, c ∈ Heap.entries (cells s) q.entries.length ↔ ∃ a ∈ q.entries, a.cell = c := by
    intro c
    rw [h.contents, Multiset.mem_coe, mem_map]
  obtain ⟨a, ha, hroot⟩ := (hcells _).mp (mem_entries.mpr ⟨0, hpos, rfl⟩)
  obtain ⟨k, hk, hcell⟩ := mem_entries.mp ((hcells _).mpr ⟨e, hmem, rfl⟩)
  have hle : key (cells s 0) ≤ key (cells s k) := h.heap.root_le hk
  rw [← hroot, hcell, h.key_cell ha, h.key_cell hmem] at hle
  rw [← hroot, first_eq hfirst ha hle]

section preflights

variable (hc : capacity < 2 ^ 31) (h : Represents capacity s q)

include hc h

lemma Represents.toNat_count : (s.scalar .count).toNat = q.entries.length := by
  have hle := h.length_le
  rw [h.count, toNat_ofNat (by omega)]

lemma Represents.metadataValid : metadataValid capacity (s.scalar .count) = true := by
  have hle := h.length_le
  have hcount := h.toNat_count hc
  have hcap := toNat_ofNat hc
  rw [PriorityQueue.metadataValid, zero_sle, sle_of_lt (by omega) (by omega), hcount, hcap]
  simp only [Bool.and_eq_true, decide_eq_true_eq]
  omega

lemma Represents.hasRoom :
    (s.scalar .count).slt (ofNat 32 capacity) = decide (q.entries.length < capacity) := by
  have hle := h.length_le
  have hcount := h.toNat_count hc
  have hcap := toNat_ofNat hc
  rw [slt_of_lt (by omega) (by omega), hcount, hcap]

omit hc in
lemma Represents.orderAvailable : (s.scalar .nextOrder != -1) = decide (q.pushes < 2 ^ 32 - 1) := by
  have hlt := h.pushes_lt
  have hiff : s.scalar .nextOrder = -1 ↔ q.pushes = 2 ^ 32 - 1 := by
    rw [h.nextOrder, ← BitVec.toNat_inj, BitVec.toNat_ofNat, Nat.mod_eq_of_lt hlt]
    rfl
  rw [Bool.eq_iff_iff, bne_iff_ne, decide_eq_true_eq, ne_eq, hiff]
  omega

lemma Represents.nonempty : BitVec.slt 0 (s.scalar .count) = decide (0 < q.entries.length) := by
  have hle := h.length_le
  have hcount := h.toNat_count hc
  rw [slt_of_lt (by decide) (by omega), hcount]
  rfl

omit hc in
lemma Represents.count_of_no_slots (hzero : capacity = 0) :
    q.entries.length = 0 ∧ s.scalar .count = 0 := by
  have hlen : q.entries.length = 0 := Nat.le_zero.mp (hzero ▸ h.length_le)
  refine ⟨hlen, ?_⟩
  rw [h.count, hlen]
  rfl

lemma run_guardState_push :
    guardState capacity .push s =
      .ok (decide (q.entries.length < capacity ∧ q.pushes < 2 ^ 32 - 1),
        ⟨s.scalar .count, some (s.scalar .nextOrder)⟩) s := by
  by_cases hzero : capacity = 0
  · obtain ⟨-, hcount⟩ := h.count_of_no_slots hzero
    rw [guardState, if_pos hzero, bind_of_ok (run_loadScalar ..), hcount, hzero,
      decide_eq_false fun hroom => Nat.not_lt_zero _ hroom.1]
    rfl
  · rw [guardState, if_neg hzero, bind_of_ok (run_loadScalar ..), h.metadataValid hc,
      bind_of_ok run_metadataTrap_true]
    dsimp only
    rw [bind_of_ok (run_loadScalar ..), h.hasRoom hc, h.orderAvailable, Bool.true_and,
      Bool.decide_and]
    rfl

lemma run_guardState_access (hmode : mode ≠ .push) :
    guardState capacity mode s =
      .ok (decide (0 < q.entries.length), ⟨s.scalar .count, none⟩) s := by
  by_cases hzero : capacity = 0
  · obtain ⟨hlen, hcount⟩ := h.count_of_no_slots hzero
    rw [guardState, if_pos hzero, bind_of_ok (run_loadScalar ..), hcount, hlen, if_neg hmode]
    rfl
  · rw [guardState, if_neg hzero, bind_of_ok (run_loadScalar ..), h.metadataValid hc,
      bind_of_ok run_metadataTrap_true, h.nonempty hc]
    cases mode with
    | push => exact absurd rfl hmode
    | pop => rfl
    | peek => rfl

end preflights

variable (hc : capacity < 2 ^ 31) (h : Represents capacity s q)
include hc h

lemma run_pushFast (hroom : q.entries.length < capacity) (hpus : q.pushes < 2 ^ 32 - 1)
    (priority value : Word) :
    ∃ s', pushFast capacity (s.scalar .count) (s.scalar .nextOrder) priority value s = .ok () s' ∧
      Represents capacity s' (q.push priority value) := by
  have hcount := h.toNat_count hc
  let pushed := update (cells s) q.entries.length
    (Entry.cell ⟨priority, q.pushes, value⟩)
  have hstore : storeCell capacity (s.scalar .count) ⟨priority, s.scalar .nextOrder, value⟩ s =
      .ok () (setCells s pushed) := by
    rw [run_storeCell (by omega), hcount, h.nextOrder]
    rfl
  have hsift : siftUp capacity (capacity + 1) (s.scalar .count) (setCells s pushed) =
      .ok () (setCells s (Heap.siftUp key pushed (capacity + 1) q.entries.length)) := by
    rw [h.count, run_siftUp hc hroom (by omega), cells_setCells, setCells_setCells]
  have hlen : (q.push priority value).entries.length = q.entries.length + 1 := by
    simp [push]
  rw [pushFast, bind_of_ok hstore, bind_of_ok hsift]
  refine ⟨_, rfl, ?_⟩
  constructor
  · omega
  · change q.pushes + 1 < 2 ^ 32
    omega
  · rw [hlen, BitVec.ofNat_add, ← h.count]
    simp
  · rw [Storage.setScalar_scalar, h.nextOrder]
    exact (BitVec.ofNat_add q.pushes 1).symm
  · rw [hlen]
    exact siftUp_ordered (h.heap.push _) (Nat.lt_succ_self _) (by omega)
  · have hsame : Heap.entries pushed q.entries.length = Heap.entries (cells s) q.entries.length :=
      entries_congr fun k hk => update_of_ne hk.ne ..
    rw [hlen]
    change Heap.entries (Heap.siftUp key pushed _ _) _ = _
    rw [entries_siftUp (Nat.lt_succ_self _), entries_succ, hsame, h.contents,
      show pushed q.entries.length = _ from update_self .., Multiset.cons_coe, push, map_append,
        Multiset.coe_eq_coe]
    exact (perm_append_singleton _ _).symm
  · intro i hi
    rw [hlen] at hi
    change Heap.siftUp key pushed _ _ i = _
    rw [siftUp_of_lt hi]
    exact (update_of_ne (by omega) ..).trans (h.free i (by omega))

omit h hc in
lemma length_remove (hmem : e ∈ q.entries) : (q.remove e).entries.length = q.entries.length - 1 :=
  length_erase_of_mem hmem

omit h hc in
lemma contents_remove (hmem : e ∈ q.entries) :
    ((q.entries.map Entry.cell : List Cell) : Multiset Cell) =
      e.cell ::ₘ ((q.remove e).entries.map Entry.cell : List Cell) := by
  rw [Multiset.cons_coe, Multiset.coe_eq_coe, ← map_cons]
  exact (perm_cons_erase hmem).map _

lemma run_popFast_single (hfirst : q.first = some e) (hone : q.entries.length = 1) :
    ∃ s', popFast capacity (s.scalar .count) s = .ok () s' ∧
      Represents capacity s' (q.remove e) := by
  have hle := h.length_le
  have hlen := length_remove (first_mem hfirst)
  have hcount : s.scalar .count = 1 := by
    rw [h.count, hone]
    rfl
  have hempty : (q.remove e).entries = [] := length_eq_zero_iff.mp (by omega)
  rw [popFast, hcount, if_pos rfl, bind_of_ok (run_storeCell (by change 0 < capacity; omega) _)]
  refine ⟨_, rfl, ?_⟩
  constructor
  · omega
  · exact h.pushes_lt
  · rw [hempty]
    simp
  · simpa [remove] using h.nextOrder
  · intro j _ hj
    omega
  · rw [hempty]
    rfl
  · intro i _
    change update (cells s) 0 _ i = _
    obtain rfl | hi := Nat.eq_zero_or_pos i
    · exact update_self ..
    · exact (update_of_ne (by omega) ..).trans (h.free i (by omega))

lemma run_popFast_many (hfirst : q.first = some e) (hn : q.entries.length = n + 1) (hpos : 0 < n) :
    ∃ s', popFast capacity (s.scalar .count) s = .ok () s' ∧
      Represents capacity s' (q.remove e) := by
  have hle := h.length_le
  have hmem := first_mem hfirst
  have hlen : (q.remove e).entries.length = n := by rw [length_remove hmem, hn]; rfl
  have hcount : s.scalar .count = ofNat 32 (n + 1) := by rw [h.count, hn]
  have hlast : (ofNat 32 (n + 1) - 1 : Word) = ofNat 32 n := by
    rw [BitVec.ofNat_add]
    exact BitVec.add_sub_cancel _ _
  have hne : (ofNat 32 (n + 1) : Word) ≠ 1 := by
    intro heq
    have hnat := congrArg BitVec.toNat heq
    rw [toNat_ofNat (by omega)] at hnat
    change n + 1 = 1 at hnat
    omega
  have hidx : (ofNat 32 n).toNat = n := toNat_ofNat (by omega)
  -- the last entry stands at the root and its own slot is cleared
  let moved := update (update (cells s) 0 (cells s n)) n ⟨0, 0, 0⟩
  have hroot : moved 0 = cells s n := by
    rw [show moved 0 = _ from update_of_ne (by omega) .., update_self]
  have hsame : ∀ k, 0 < k → k < n → moved k = cells s k := by
    intro k hk hkn
    rw [show moved k = _ from update_of_ne (by omega) .., update_of_ne (by omega)]
  have hsift : siftDown capacity (ofNat 32 n) (capacity + 1) 0
      ((setCells s moved).setScalar .count (ofNat 32 n)) =
        .ok () (setCells ((setCells s moved).setScalar .count (ofNat 32 n))
          (Heap.siftDown key n moved (capacity + 1) 0)) :=
    run_siftDown hc (by omega) hpos (by omega)
  rw [popFast, hcount, if_neg hne, hlast, bind_of_ok (run_loadCell (by omega)), hidx,
    bind_of_ok (run_storeCell (by change 0 < capacity; omega) _),
    bind_of_ok (run_storeCell (by omega) _), hidx, bind_of_ok (run_storeScalar ..)]
  refine ⟨_, hsift, ?_⟩
  constructor
  · omega
  · exact h.pushes_lt
  · rw [hlen]
    simp
  · simpa [remove] using h.nextOrder
  · rw [hlen]
    exact Heap.siftDown_ordered (Heap.Ordered.pop (hn ▸ h.heap) hsame) hpos (by omega)
  · have hent := Heap.entries_pop hpos hroot hsame
    rw [← hn, h.contents, h.root hfirst, contents_remove hmem, Multiset.cons_inj_right] at hent
    rw [hlen, cells_setCells, entries_siftDown hpos, hent]
  · intro i hi
    rw [hlen] at hi
    rw [cells_setCells, siftDown_of_le hpos hi]
    by_cases hin : i = n
    · rw [hin]
      exact update_self ..
    · rw [show moved i = _ from update_of_ne hin .., update_of_ne (by omega)]
      exact h.free i (by omega)

lemma run_clear : ∃ s', clear capacity s = .ok () s' ∧ Represents capacity s' .empty := by
  rw [clear, bind_of_ok (run_storeScalar ..), bind_of_ok (run_storeScalar ..), run_clearLanes hc]
  refine ⟨_, rfl, ?_⟩
  constructor
  · exact Nat.zero_le _
  · decide
  · rfl
  · rfl
  · exact fun _ _ hj => absurd hj (Nat.not_lt_zero _)
  · rfl
  · intro i _
    by_cases hi : i < capacity
    · simp [cells, Storage.zeroWhere, hi]
    · have hle := h.length_le
      have hfree := h.free i (by omega)
      simpa [cells, Storage.zeroWhere, hi] using hfree

lemma run_guarded_access (hmode : mode ≠ .push) (action : GuardState → Lowered Outcome) :
    guarded capacity mode action s =
      if 0 < q.entries.length then action ⟨s.scalar .count, none⟩ s else .ok .refused s := by
  rw [guarded, bind_of_ok (run_guardState_access hc h hmode)]
  by_cases hpos : 0 < q.entries.length
  · simp only [hpos, decide_true, if_true]
  · simp only [hpos, decide_false, if_false]
    rfl

omit hc in
lemma run_loadElement_root (hfirst : q.first = some e) :
    loadElement capacity .values 0 s = .ok e.value s ∧
      loadElement capacity .priority 0 s = .ok e.priority s := by
  have hpos := length_pos_of_mem (first_mem hfirst)
  have hle := h.length_le
  have hroot := h.root hfirst
  have hlt : (0 : Word).toNat < capacity := by
    change 0 < capacity
    omega
  constructor
  · rw [run_loadElement hlt]
    exact congrArg (fun c : Cell => EStateM.Result.ok c.value s) hroot
  · rw [run_loadElement hlt]
    exact congrArg (fun c : Cell => EStateM.Result.ok c.priority s) hroot

lemma run_queueCount : queueCount capacity s = .ok (ofNat 32 q.entries.length) s := by
  rw [queueCount, bind_of_ok (run_loadScalar ..)]
  by_cases hzero : capacity = 0
  · obtain ⟨hlen, hcount⟩ := h.count_of_no_slots hzero
    rw [if_pos hzero, hcount, hlen]
    rfl
  · rw [if_neg hzero, h.metadataValid hc, bind_of_ok run_metadataTrap_true, h.count]
    rfl

lemma lower_simulates (op : Op) :
    ∃ s', lower capacity op s = .ok (q.step capacity op).2 s' ∧
      Represents capacity s' (q.step capacity op).1 := by
  cases op with
  | push priority value =>
    rw [lower, guarded, bind_of_ok (run_guardState_push hc h), step]
    by_cases hcan : q.entries.length < capacity ∧ q.pushes < 2 ^ 32 - 1
    · obtain ⟨s', hrun, h'⟩ := run_pushFast hc h hcan.1 hcan.2 priority value
      rw [if_pos hcan]
      refine ⟨s', ?_, h'⟩
      simp only [hcan, and_self, decide_true, if_true]
      rw [bind_of_ok hrun]
      rfl
    · rw [if_neg hcan, decide_eq_false hcan]
      exact ⟨s, rfl, h⟩
  | pop =>
    rw [lower, run_guarded_access hc h (by simp), step]
    by_cases hpos : 0 < q.entries.length
    · obtain ⟨e, hfirst⟩ := q.first_isSome hpos
      rw [if_pos hpos, hfirst]
      obtain ⟨n, hn⟩ : ∃ n, q.entries.length = n + 1 := ⟨_, (Nat.succ_pred_eq_of_pos hpos).symm⟩
      obtain ⟨s', hrun, h'⟩ : ∃ s', popFast capacity (s.scalar .count) s = .ok () s' ∧
          Represents capacity s' (q.remove e) := by
        obtain rfl | hmany := Nat.eq_zero_or_pos n
        · exact run_popFast_single hc h hfirst hn
        · exact run_popFast_many hc h hfirst hn hmany
      refine ⟨s', ?_, h'⟩
      rw [bind_of_ok hrun]
      rfl
    · rw [if_neg hpos, q.first_of_length (by omega)]
      exact ⟨s, rfl, h⟩
  | peek | peekPriority =>
    rw [lower, run_guarded_access hc h (by simp), step]
    by_cases hpos : 0 < q.entries.length
    · obtain ⟨e, hfirst⟩ := q.first_isSome hpos
      obtain ⟨hvalue, hpriority⟩ := run_loadElement_root h hfirst
      simp only [if_pos hpos, hfirst, bind_of_ok hvalue, bind_of_ok hpriority]
      exact ⟨s, rfl, h⟩
    · rw [if_neg hpos, q.first_of_length (by omega)]
      exact ⟨s, rfl, h⟩
  | count =>
    rw [lower, bind_of_ok (run_queueCount hc h)]
    exact ⟨s, rfl, h⟩
  | clear =>
    obtain ⟨s', hrun, h'⟩ := run_clear hc h
    rw [lower, bind_of_ok hrun]
    exact ⟨s', rfl, h'⟩

end represents

/-- Priority queues refine the stable queue of their entries: every accepted sequence
of calls gives the results of the abstract queue, no preflight traps and no loop goes
on, and the lanes end as a heap of exactly its entries with zeros behind them. -/
theorem calls_refine_queue (capacity : ℕ) (ops : List Op) (code : Lowered (List Outcome))
    (h : emitAll (emit capacity) ops = .ok code) :
    ∃ s, code .zeroed = .ok (stepAll (Queue.step capacity) .empty ops).2 s ∧
      Represents capacity s (stepAll (Queue.step capacity) .empty ops).1 := by
  refine emitAll_simulates ?_ h _ _ Represents.zeroed
  intro op lowered hemit s q hrep
  rw [emit] at hemit
  obtain ⟨c, hcap, ⟨⟩⟩ := bind_ok_iff.mp hemit
  exact lower_simulates (capacityI32_eq_ok hcap).1 hrep op

/-- Equal priorities leave in the order of their pushes, signed ones first. -/
theorem calls_refine_queue_ties :
    ∃ code, emitAll (emit 3)
        [.push 5 1, .push 5 2, .push (-1) 3, .push 0 4, .peek, .pop, .peek, .pop, .peekPriority,
          .peek] = .ok code ∧
      ∃ s, code .zeroed =
        .ok [.done, .done, .done, .refused, .value 3, .done, .value 1, .done, .value 5, .value 2]
          s := by
  refine ⟨_, rfl, ?_⟩
  obtain ⟨s, hrun, -⟩ := calls_refine_queue 3
    [.push 5 1, .push 5 2, .push (-1) 3, .push 0 4, .peek, .pop, .peek, .pop, .peekPriority,
      .peek] _ rfl
  refine ⟨s, hrun.trans ?_⟩
  congr 1

end PriorityQueue

end Stasis.Collections
