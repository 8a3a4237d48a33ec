import Stasis.Collections.Storage
import Stasis.Lib.Refine
import Stasis.Lib.Window

namespace Stasis.Collections

open Window
open Word
open Storage
open List

namespace Circular

def metadataValid (capacity : ℕ) (count head : Word) : Bool :=
  (BitVec.sle 0 count && count.sle (BitVec.ofNat 32 capacity)) &&
    (BitVec.sle 0 head && head.slt (BitVec.ofNat 32 capacity))

/-- `emit_typed_circular_physical_index`: the sum and the remainder are taken in 64
bits. -/
def physicalIndex (capacity : ℕ) (head logical : Word) : Word :=
  ((head.signExtend 64 + logical.signExtend 64) % BitVec.ofNat 64 capacity).setWidth 32

inductive GuardMode
  | push | pop
  | peek (logical : Word)
deriving DecidableEq, Repr

def GuardMode.logical : GuardMode → Option Word
  | peek logical => some logical
  | _ => none

structure GuardState where
  count : Word
  head : Word
  physical : Option Word

/-- Whether the preflight of an operation succeeds on valid metadata. -/
def allowed (capacity : ℕ) (count : Word) : GuardMode → Bool
  | .push => count.slt (BitVec.ofNat 32 capacity)
  | .pop => BitVec.slt 0 count
  | .peek logical => (BitVec.sle 0 logical && logical.slt count) &&
      logical.slt (BitVec.ofNat 32 capacity)

def guardState (capacity : ℕ) (mode : GuardMode) : Lowered (Bool × GuardState) := do
  let count ← loadScalar .count
  let head ← loadScalar .head
  if capacity = 0 then
    metadataTrap (count == 0 && head == 0)
    return (false, ⟨count, head, mode.logical.map fun _ => 0⟩)
  else
    let valid := metadataValid capacity count head
    metadataTrap valid
    return (valid && allowed capacity count mode,
      ⟨count, head, mode.logical.map (physicalIndex capacity head)⟩)

def pushFast (capacity : ℕ) (count head value : Word) : Lowered Unit := do
  storeElement capacity .values (physicalIndex capacity head count) value
  storeScalar .count (count + 1)

def popFast (capacity : ℕ) (count head : Word) : Lowered Unit := do
  storeElement capacity .values head 0
  let nextCount := count - 1
  storeScalar .count nextCount
  if nextCount = 0 then storeScalar .head 0
  else storeScalar .head (physicalIndex capacity head 1)

def peekFast (capacity : ℕ) (physical : Word) : Lowered Word :=
  loadElement capacity .values physical

/-- `emit_typed_circular_overwrite_oldest`; it has no preflight and reads the
metadata itself. -/
def overwriteOldest (capacity : ℕ) (value : Word) : Lowered Unit := do
  let count ← loadScalar .count
  let head ← loadScalar .head
  metadataTrap (metadataValid capacity count head)
  if count = BitVec.ofNat 32 capacity then
    storeElement capacity .values head value
    storeScalar .head (physicalIndex capacity head 1)
  else
    storeElement capacity .values (physicalIndex capacity head count) value
    storeScalar .count (count + 1)

def clear (capacity : ℕ) : Lowered Unit := do
  storeScalar .count 0
  storeScalar .head 0
  clearLanes capacity [.values]

inductive Op
  | push (value : Word)
  | pop
  | peek (logical : Word)
  | overwriteOldest (value : Word)
  | clear
deriving DecidableEq, Repr

/-- An action that runs only if its preflight allows it, from the state the
preflight captured. -/
def guarded (capacity : ℕ) (mode : GuardMode) (action : GuardState → Lowered Outcome) :
    Lowered Outcome := do
  let (can, state) ← guardState capacity mode
  if can then action state else return .refused

/-- The code of a call, each guarded action inside its own `if can_…`. -/
def lower (capacity : ℕ) : Op → Lowered Outcome
  | .push value => guarded capacity .push fun state => do
      pushFast capacity state.count state.head value
      return .done
  | .pop => guarded capacity .pop fun state => do
      popFast capacity state.count state.head
      return .done
  | .peek logical => guarded capacity (.peek logical) fun state => do
      return .value (← peekFast capacity (state.physical.getD 0))
  | .overwriteOldest value => do
      overwriteOldest capacity value
      return .done
  | .clear => do
      clear capacity
      return .done

def Op.needsSlot : Op → Bool
  | overwriteOldest _ => true
  | _ => false

/-- A capacity outside the operation range is refused, with the one text that the
`emit_typed_circular_*` functions share, and so is an overwrite of a collection without
slots. -/
def emit (capacity : ℕ) (op : Op) : Except String (Lowered Outcome) := do
  let _ ← capacityI32 "typed circular collection" "i32 operation range" capacity
  if op.needsSlot && capacity == 0 then .error "overwrite_oldest requires positive capacity"
  else pure (lower capacity op)

end Circular

namespace Fifo

def step (capacity : ℕ) (xs : List Word) : Circular.Op → List Word × Outcome
  | .push value => if xs.length < capacity then (xs ++ [value], .done) else (xs, .refused)
  | .pop => if xs = [] then (xs, .refused) else (xs.tail, .done)
  | .peek logical =>
    if 0 ≤ logical.toInt ∧ logical.toInt < xs.length then
      (xs, .value (xs.getD logical.toInt.toNat 0))
    else (xs, .refused)
  | .overwriteOldest value =>
    if xs.length < capacity then (xs ++ [value], .done) else (xs.tail ++ [value], .done)
  | .clear => ([], .done)

end Fifo

open Fifo

namespace Circular

variable {capacity : ℕ} {s : Storage} {xs : List Word} {value : Word}

def contents (capacity : ℕ) (s : Storage) : List Word :=
  window (s.array .values) capacity (s.scalar .head).toNat (s.scalar .count).toNat

structure Represents (capacity : ℕ) (s : Storage) (xs : List Word) : Prop where
  count : s.scalar .count = BitVec.ofNat 32 xs.length
  length_le : xs.length ≤ capacity
  head_lt : (s.scalar .head).toNat < capacity
  head_of_empty : xs = [] → s.scalar .head = 0
  contents : contents capacity s = xs
  /-- Slots outside the live window are zero. -/
  dead : ∀ i < capacity, (∀ j < xs.length, ((s.scalar .head).toNat + j) % capacity ≠ i) →
    s.array .values i = 0

lemma represents_zeroed (h : 1 ≤ capacity) : Represents capacity .zeroed [] where
  count := rfl
  length_le := Nat.zero_le _
  head_lt := h
  head_of_empty := fun _ => rfl
  contents := rfl
  dead := fun _ _ _ => rfl

lemma toNat_physicalIndex {head logical : Word} (hc : capacity < 2 ^ 31)
    (hhead : head.toNat < capacity) (hlog : logical.toNat < 2 ^ 31) :
    (physicalIndex capacity head logical).toNat = (head.toNat + logical.toNat) % capacity := by
  have hpos : 0 < capacity := Nat.zero_lt_of_lt hhead
  have hmod := Nat.mod_lt (head.toNat + logical.toNat) hpos
  have hsum : (head.toNat + logical.toNat) % 2 ^ 64 = head.toNat + logical.toNat := by omega
  have hcap : capacity % 2 ^ 64 = capacity := by omega
  rw [physicalIndex, BitVec.toNat_setWidth, BitVec.toNat_umod, BitVec.toNat_add,
    toNat_signExtend (hhead.trans hc), toNat_signExtend hlog, BitVec.toNat_ofNat,
    hsum, hcap]
  omega

namespace Represents

variable (hr : Represents capacity s xs) (hc : capacity < 2 ^ 31)
include hr hc

lemma toNat_count : (s.scalar .count).toNat = xs.length := by
  rw [hr.count, toNat_ofNat (hr.length_le.trans_lt hc)]

lemma window_eq : window (s.array .values) capacity (s.scalar .head).toNat xs.length = xs := by
  have h := hr.contents
  rwa [Circular.contents, hr.toNat_count hc] at h

lemma metadataValid : metadataValid capacity (s.scalar .count) (s.scalar .head) = true := by
  have hcount := hr.toNat_count hc
  have hlen := hr.length_le
  have hhead := hr.head_lt
  have hcap := toNat_ofNat hc
  rw [Circular.metadataValid, zero_sle, zero_sle,
    sle_of_lt (by omega) (by omega), slt_of_lt (by omega) (by omega)]
  simp only [Bool.and_eq_true, decide_eq_true_eq]
  omega

lemma run_guardState (mode : GuardMode) :
    guardState capacity mode s =
      .ok (allowed capacity (s.scalar .count) mode, ⟨s.scalar .count, s.scalar .head,
          mode.logical.map (physicalIndex capacity (s.scalar .head))⟩) s := by
  have hpos : capacity ≠ 0 := by
    have := hr.head_lt
    omega
  simp only [guardState, run_bind, run_loadScalar, if_neg hpos, hr.metadataValid hc,
    run_metadataTrap_true, Bool.true_and, run_pure]

lemma allowed_push : allowed capacity (s.scalar .count) .push = decide (xs.length < capacity) := by
  have hcount := hr.toNat_count hc
  have hlen := hr.length_le
  have hcap := toNat_ofNat hc
  rw [allowed, slt_of_lt (by omega) (by omega), hcount, hcap]

lemma allowed_pop : allowed capacity (s.scalar .count) .pop = decide (xs ≠ []) := by
  have hcount := hr.toNat_count hc
  have hlen := hr.length_le
  rw [allowed, slt_of_lt (by decide) (by omega), hcount]
  apply decide_eq_decide.mpr
  exact length_pos_iff

lemma allowed_peek (logical : Word) :
    allowed capacity (s.scalar .count) (.peek logical) =
      decide (0 ≤ logical.toInt ∧ logical.toInt < xs.length) := by
  have hcount := hr.toNat_count hc
  have hlen := hr.length_le
  have hcap := toNat_ofNat hc
  rw [allowed, zero_sle]
  by_cases hsmall : logical.toNat < 2 ^ 31
  · rw [slt_of_lt hsmall (by omega), slt_of_lt hsmall (by omega), hcount, hcap,
      toInt_of_lt hsmall, Bool.eq_iff_iff]
    simp only [Bool.and_eq_true, decide_eq_true_eq]
    omega
  · -- a negative index is refused
    have hneg : ¬ 0 ≤ logical.toInt := by
      intro h
      apply hsmall
      exact of_decide_eq_true ((zero_sle logical).symm.trans (decide_eq_true h))
    simp only [hsmall, hneg, decide_false, Bool.false_and, false_and]

end Represents

variable (hr : Represents capacity s xs) (hc : capacity < 2 ^ 31)
include hr hc

lemma Represents.append (hroom : xs.length < capacity) (value : Word) :
    Represents capacity
      ((s.setElement .values (((s.scalar .head).toNat + xs.length) % capacity) value).setScalar
        .count (s.scalar .count + 1)) (xs ++ [value]) := by
  have hcount : (s.scalar .count + 1).toNat = xs.length + 1 := by
    rw [BitVec.toNat_add, hr.toNat_count hc]
    have := hroom
    simp
    omega
  constructor
  · apply BitVec.eq_of_toNat_eq
    rw [setScalar_scalar, hcount, length_append, length_singleton, toNat_ofNat (by omega)]
  · rw [length_append, length_singleton]
    exact hroom
  · simpa using hr.head_lt
  · intro h
    simp at h
  · simp only [Circular.contents, setScalar_scalar, hcount, setScalar_array,
      setElement_array, ne_eq, reduceCtorEq, not_false_eq_true,
      setScalar_scalar_of_ne, setElement_scalar]
    rw [window_push _ _ _ hroom, hr.window_eq hc]
  · intro i hi hne
    simp only [ne_eq, reduceCtorEq, not_false_eq_true, setScalar_scalar_of_ne,
      setElement_scalar, length_append, length_singleton,
      setScalar_array, setElement_array] at hne ⊢
    rw [Function.update_of_ne (Ne.symm (hne xs.length (by omega)))]
    exact hr.dead i hi fun j hj => hne j (by omega)

omit hc hr in
lemma Represents.count_pred (hr : Represents capacity s (x :: xs)) :
    s.scalar .count - 1 = BitVec.ofNat 32 xs.length := by
  rw [hr.count, length_cons]
  apply BitVec.eq_of_toNat_eq
  simp
  omega

omit hc hr in
lemma Represents.removeFirst (hr : Represents capacity s (x :: xs)) (hc : capacity < 2 ^ 31)
    {head : Word} (hempty : xs = [] → head = 0)
    (hnext : xs ≠ [] → head.toNat = ((s.scalar .head).toNat + 1) % capacity) :
    Represents capacity
      (((s.setElement .values (s.scalar .head).toNat 0).setScalar .count
        (s.scalar .count - 1)).setScalar .head head) xs := by
  have hhead := hr.head_lt
  have hlen : xs.length + 1 ≤ capacity := hr.length_le
  have hcount := hr.count_pred
  have hself : ((s.scalar .head).toNat + 0) % capacity = (s.scalar .head).toNat :=
    Nat.mod_eq_of_lt hhead
  constructor
  · rw [hcount, setScalar_scalar_of_ne _ _ _ _ (by decide), setScalar_scalar]
  · omega
  · rw [setScalar_scalar]
    by_cases h : xs = []
    · rw [hempty h]
      exact Nat.zero_lt_of_lt hhead
    · rw [hnext h]
      exact Nat.mod_lt _ (Nat.zero_lt_of_lt hhead)
  · intro h
    simp [hempty h]
  · simp only [Circular.contents, hcount, setScalar_scalar, setScalar_array,
      setElement_array, ne_eq, reduceCtorEq, not_false_eq_true,
      setScalar_scalar_of_ne]
    rw [toNat_ofNat (by omega)]
    by_cases h : xs = []
    · rw [h]
      rfl
    · have hold := hr.window_eq hc
      rw [length_cons, window_succ, cons.injEq] at hold
      rw [hnext h, window_update, hold.2]
      intro j hj heq
      rw [slot_next] at heq
      have := slot_injective (by omega) (by omega) (heq.trans hself.symm)
      omega
  · intro i hi hne
    simp only [setScalar_scalar, setScalar_array, setElement_array] at hne ⊢
    by_cases hih : i = (s.scalar .head).toNat
    · rw [hih, Function.update_self]
    · rw [Function.update_of_ne hih]
      apply hr.dead i hi
      intro j hj
      cases j with
      | zero => rw [hself]; exact fun h => hih h.symm
      | succ j =>
        have hxs : xs ≠ [] := by
          rintro rfl
          simp at hj
        rw [← slot_next, ← hnext hxs]
        exact hne j (by simpa using hj)

lemma Represents.overwrite (hfull : xs.length = capacity) (value : Word) {head : Word}
    (hnext : head.toNat = ((s.scalar .head).toNat + 1) % capacity) :
    Represents capacity ((s.setElement .values (s.scalar .head).toNat value).setScalar .head head)
      (xs.tail ++ [value]) := by
  have hhead := hr.head_lt
  have hlen : (xs.tail ++ [value]).length = xs.length := by
    rw [length_append, length_tail, length_singleton]
    omega
  constructor
  · rw [hlen]
    simpa using hr.count
  · rw [hlen]
    exact hr.length_le
  · rw [setScalar_scalar, hnext]
    exact Nat.mod_lt _ (Nat.zero_lt_of_lt hhead)
  · intro h
    simp at h
  · simp only [Circular.contents, setScalar_scalar, setScalar_array,
      setElement_array, ne_eq, reduceCtorEq, not_false_eq_true,
      setScalar_scalar_of_ne, setElement_scalar, hnext, hr.toNat_count hc]
    have hold := hr.window_eq hc
    rw [hfull] at hold ⊢
    rw [window_overwrite _ _ hhead, hold]
  · -- the window covers the whole lane
    intro i hi hne
    rw [hlen, hfull, setScalar_scalar] at hne
    exfalso
    apply hne ((i + (capacity - head.toNat % capacity)) % capacity)
      (Nat.mod_lt _ (Nat.zero_lt_of_lt hhead))
    have hlt := Nat.mod_lt head.toNat (Nat.zero_lt_of_lt hhead)
    rw [Nat.add_mod_mod, ← Nat.mod_add_mod,
      show head.toNat % capacity + (i + (capacity - head.toNat % capacity)) = i + capacity by omega,
      Nat.add_mod_right, Nat.mod_eq_of_lt hi]

lemma run_guarded (mode : GuardMode) (action : GuardState → Lowered Outcome) :
    guarded capacity mode action s =
      if allowed capacity (s.scalar .count) mode then
        action ⟨s.scalar .count, s.scalar .head,
          mode.logical.map (physicalIndex capacity (s.scalar .head))⟩ s
      else .ok .refused s := by
  rw [guarded, bind_of_ok (hr.run_guardState hc mode)]
  by_cases h : allowed capacity (s.scalar .count) mode
  · simp only [h, if_true]
  · simp only [h, if_false, Bool.false_eq_true, run_pure]

lemma run_pushFast (hroom : xs.length < capacity) (value : Word) :
    pushFast capacity (s.scalar .count) (s.scalar .head) value s =
      .ok () ((s.setElement .values (((s.scalar .head).toNat + xs.length) % capacity)
        value).setScalar .count (s.scalar .count + 1)) := by
  have hslot : (physicalIndex capacity (s.scalar .head) (s.scalar .count)).toNat =
      ((s.scalar .head).toNat + xs.length) % capacity := by
    rw [toNat_physicalIndex hc hr.head_lt (by rw [hr.toNat_count hc]; omega), hr.toNat_count hc]
  have hlt : (physicalIndex capacity (s.scalar .head) (s.scalar .count)).toNat < capacity :=
    hslot ▸ Nat.mod_lt _ (Nat.zero_lt_of_lt hroom)
  rw [pushFast, bind_of_ok (run_storeElement hlt), hslot]
  rfl

lemma toNat_nextHead :
    (physicalIndex capacity (s.scalar .head) 1).toNat = ((s.scalar .head).toNat + 1) % capacity :=
  toNat_physicalIndex hc hr.head_lt (by decide)

omit hr

lemma simulates_push (value : Word) :
    Simulates (Represents capacity) (lower capacity (.push value))
      fun xs => step capacity xs (.push value) := by
  intro s xs hr
  rw [lower, run_guarded hr hc, hr.allowed_push hc]
  dsimp only [step]
  by_cases hroom : xs.length < capacity
  · simp only [hroom, decide_true, if_true]
    rw [bind_of_ok (run_pushFast hr hc hroom value)]
    exact ⟨_, rfl, hr.append hc hroom value⟩
  · simp only [hroom, decide_false, if_false]
    exact ⟨s, rfl, hr⟩

lemma simulates_pop :
    Simulates (Represents capacity) (lower capacity .pop) fun xs => step capacity xs .pop := by
  intro s xs hr
  rw [lower, run_guarded hr hc, hr.allowed_pop hc]
  dsimp only [step]
  rcases xs with _ | ⟨_, xs⟩
  · exact ⟨s, rfl, hr⟩
  have hhead := hr.head_lt
  have hlen : xs.length + 1 ≤ capacity := hr.length_le
  have hempty : s.scalar .count - 1 = 0 ↔ xs = [] := by
    rw [hr.count_pred, ← length_eq_zero_iff, ← BitVec.toNat_inj, toNat_ofNat (by omega)]
    rfl
  simp only [ne_eq, reduceCtorEq, not_false_eq_true, decide_true, if_true, if_false,
    tail_cons, popFast]
  rw [bind_assoc, bind_of_ok (run_storeElement hhead), bind_assoc,
    bind_of_ok (run_storeScalar _ _ _)]
  by_cases hxs : xs = []
  · rw [if_pos (hempty.mpr hxs)]
    exact ⟨_, rfl, hr.removeFirst hc (fun _ => rfl) (fun h => absurd hxs h)⟩
  · rw [if_neg (fun h => hxs (hempty.mp h))]
    exact ⟨_, rfl, hr.removeFirst hc (fun h => absurd h hxs) fun _ => toNat_nextHead hr hc⟩

lemma simulates_peek (logical : Word) :
    Simulates (Represents capacity) (lower capacity (.peek logical))
      fun xs => step capacity xs (.peek logical) := by
  intro s xs hr
  rw [lower, run_guarded hr hc, hr.allowed_peek hc]
  dsimp only [step]
  by_cases hin : 0 ≤ logical.toInt ∧ logical.toInt < xs.length
  · have hsmall : logical.toNat < 2 ^ 31 :=
      of_decide_eq_true ((zero_sle logical).symm.trans (decide_eq_true hin.1))
    have htoInt := toInt_of_lt hsmall
    have hlt : logical.toNat < xs.length := by omega
    have hslot := toNat_physicalIndex hc hr.head_lt hsmall
    have hbound : (physicalIndex capacity (s.scalar .head) logical).toNat < capacity :=
      hslot ▸ Nat.mod_lt _ (Nat.zero_lt_of_lt hr.head_lt)
    have hvalue : s.array .values (((s.scalar .head).toNat + logical.toNat) % capacity) =
        xs.getD logical.toNat 0 := by
      have hget := getElem?_window capacity (s.scalar .head).toNat
        (s.array .values) hlt
      rw [hr.window_eq hc] at hget
      rw [getD_eq_getElem?_getD, hget, Option.getD_some]
    simp only [hin, and_self, decide_true, if_true, GuardMode.logical, Option.map_some,
      Option.getD_some, peekFast]
    rw [bind_of_ok (run_loadElement hbound), hslot, narrow_values, hvalue, htoInt,
      Int.toNat_natCast]
    exact ⟨s, rfl, hr⟩
  · simp only [hin, decide_false, if_false]
    exact ⟨s, rfl, hr⟩

lemma simulates_overwriteOldest (value : Word) :
    Simulates (Represents capacity) (lower capacity (.overwriteOldest value))
      fun xs => step capacity xs (.overwriteOldest value) := by
  intro s xs hr
  have hlen := hr.length_le
  have hfull : s.scalar .count = BitVec.ofNat 32 capacity ↔ ¬ xs.length < capacity := by
    rw [← BitVec.toNat_inj, hr.toNat_count hc, toNat_ofNat hc]
    omega
  rw [lower, overwriteOldest]
  simp only [bind_assoc, step]
  rw [bind_of_ok (run_loadScalar _ _), bind_of_ok (run_loadScalar _ _), hr.metadataValid hc,
    bind_of_ok run_metadataTrap_true]
  by_cases hroom : xs.length < capacity
  · rw [if_neg (fun h => hfull.mp h hroom), if_pos hroom]
    have hpush := run_pushFast hr hc hroom value
    rw [pushFast] at hpush
    rw [bind_of_ok hpush]
    exact ⟨_, rfl, hr.append hc hroom value⟩
  · rw [if_pos (hfull.mpr hroom), if_neg hroom]
    rw [bind_assoc, bind_of_ok (run_storeElement hr.head_lt)]
    exact ⟨_, rfl, hr.overwrite hc (by omega) value (toNat_nextHead hr hc)⟩

lemma simulates_clear :
    Simulates (Represents capacity) (lower capacity .clear)
      fun xs => step capacity xs .clear := by
  intro s xs hr
  rw [lower, clear]
  simp only [bind_assoc]
  rw [bind_of_ok (run_storeScalar _ _ _), bind_of_ok (run_storeScalar _ _ _),
    bind_of_ok (run_clearLanes hc _ _)]
  refine ⟨_, rfl, rfl, Nat.zero_le _, Nat.zero_lt_of_lt hr.head_lt, fun _ => rfl, rfl, ?_⟩
  intro i hi _
  simp [zeroWhere, hi]

omit hc

lemma emit_eq_ok (h : emit capacity op = .ok code) :
    capacity < 2 ^ 31 ∧ code = lower capacity op := by
  unfold emit at h
  obtain ⟨c, hcap, h⟩ := bind_ok_iff.mp h
  refine ⟨(capacityI32_eq_ok hcap).1, ?_⟩
  split_ifs at h
  cases h
  rfl

lemma simulates_emit (op : Op) (code : Lowered Outcome) (h : emit capacity op = .ok code) :
    Simulates (Represents capacity) code fun xs => step capacity xs op := by
  obtain ⟨hc, rfl⟩ := emit_eq_ok h
  cases op with
  | push value => exact simulates_push hc value
  | pop => exact simulates_pop hc
  | peek logical => exact simulates_peek hc logical
  | overwriteOldest value => exact simulates_overwriteOldest hc value
  | clear => exact simulates_clear hc

/-- Every sequence of calls the compiler accepts behaves as the bounded queue does:
no trap is taken, the results are the queue's, and the lanes hold its entries. -/
theorem calls_refine_fifo (capacity : ℕ) (hpos : 1 ≤ capacity) (ops : List Op)
    (code : Lowered (List Outcome)) (h : emitAll (emit capacity) ops = .ok code) :
    ∃ s, code .zeroed = .ok (stepAll (Fifo.step capacity) [] ops).2 s ∧
      Represents capacity s (stepAll (Fifo.step capacity) [] ops).1 :=
  emitAll_simulates simulates_emit h _ _ (represents_zeroed hpos)

/-- A ring of two slots that goes round: the third push is refused, and the last
word takes the slot of the oldest. -/
def wrappingCalls : List Op :=
  [.push 7, .push 8, .push 9, .pop, .push 9, .overwriteOldest 5, .peek 1]

theorem calls_refine_fifo_wrapping :
    ∃ code, emitAll (emit 2) wrappingCalls = .ok code ∧
      ∃ s, code .zeroed = .ok [.done, .done, .refused, .done, .done, .done, .value 5] s ∧
        Represents 2 s [9, 5] := by
  refine ⟨_, rfl, ?_⟩
  exact calls_refine_fifo 2 (by decide) wrappingCalls _ rfl

end Circular

end Stasis.Collections
