import Stasis.Lib.Effects
import Stasis.Lib.Word

namespace Stasis.Collections

inductive ScalarLane
  | count | head | nextOrder
deriving DecidableEq, Repr

inductive ArrayLane
  | values | priority | order | occupied | keys
deriving DecidableEq, Repr

def ArrayLane.storageBytes : ArrayLane → ℕ
  | occupied => 1
  | _ => 4

def ArrayLane.narrow (lane : ArrayLane) (value : Word) : Word :=
  if lane.storageBytes = 1 then value &&& 0xff else value

structure Storage where
  scalar : ScalarLane → Word
  array : ArrayLane → ℕ → Word

namespace Storage

def zeroed : Storage := ⟨fun _ => 0, fun _ _ => 0⟩

def setScalar (s : Storage) (lane : ScalarLane) (value : Word) : Storage :=
  { s with scalar := Function.update s.scalar lane value }

def setElement (s : Storage) (lane : ArrayLane) (i : ℕ) (value : Word) : Storage :=
  { s with array := Function.update s.array lane (Function.update (s.array lane) i value) }

variable (s : Storage) (l l' : ScalarLane) (a a' : ArrayLane) (i : ℕ) (v : Word)

@[simp] lemma setScalar_scalar : (s.setScalar l v).scalar l = v := by
  simp [setScalar]

@[simp] lemma setScalar_scalar_of_ne (h : l' ≠ l) : (s.setScalar l v).scalar l' = s.scalar l' := by
  simp [setScalar, h]

@[simp] lemma setScalar_array : (s.setScalar l v).array = s.array := rfl

@[simp] lemma setElement_scalar : (s.setElement a i v).scalar = s.scalar := rfl

@[simp] lemma setElement_array :
    (s.setElement a i v).array a = Function.update (s.array a) i v := by
  simp [setElement]

@[simp] lemma setElement_array_of_ne (h : a' ≠ a) : (s.setElement a i v).array a' = s.array a' := by
  simp [setElement, h]

end Storage

open Storage

/-- Why lowered code stops: the fatal trap on impossible metadata, an access outside
a lane, or a loop that does not end within the rounds it is given. -/
inductive Fault
  | trap | wild | looping
deriving DecidableEq, Repr

abbrev Lowered (α : Type) := EStateM Fault Storage α

def loadScalar (lane : ScalarLane) : Lowered Word := do return (← get).scalar lane

def storeScalar (lane : ScalarLane) (value : Word) : Lowered Unit :=
  modify fun s => s.setScalar lane value

/-- `emit_direct_array_load` of a lane with `capacity` elements, its bounds proven. -/
def loadElement (capacity : ℕ) (lane : ArrayLane) (index : Word) : Lowered Word := do
  if index.toNat < capacity then return lane.narrow ((← get).array lane index.toNat)
  else throw .wild

def storeElement (capacity : ℕ) (lane : ArrayLane) (index value : Word) : Lowered Unit := do
  if index.toNat < capacity then
    modify fun s => s.setElement lane index.toNat (lane.narrow value)
  else throw .wild

def metadataTrap (valid : Bool) : Lowered Unit :=
  if valid then pure () else throw .trap

section run

@[simp] lemma run_loadScalar (l : ScalarLane) (s : Storage) :
    loadScalar l s = .ok (s.scalar l) s := rfl

@[simp] lemma run_storeScalar (l : ScalarLane) (v : Word) (s : Storage) :
    storeScalar l v s = .ok () (s.setScalar l v) := rfl

lemma run_loadElement (h : index.toNat < capacity) :
    loadElement capacity lane index s = .ok (lane.narrow (s.array lane index.toNat)) s := by
  simp only [loadElement, h, if_true]
  rfl

lemma run_storeElement (h : index.toNat < capacity) :
    storeElement capacity lane index value s =
      .ok () (s.setElement lane index.toNat (lane.narrow value)) := by
  simp only [storeElement, h, if_true]
  rfl

@[simp] lemma run_metadataTrap_true : metadataTrap true s = .ok () s := rfl

@[simp] lemma run_metadataTrap_false : metadataTrap false s = .error .trap s := rfl

end run

def storeSlot (capacity : ℕ) (lanes : List ArrayLane) (index value : Word) : Lowered Unit :=
  lanes.forM fun lane => storeElement capacity lane index value

def clearLanes (capacity : ℕ) (lanes : List ArrayLane) : Lowered Unit :=
  (List.range capacity).forM fun index => storeSlot capacity lanes (BitVec.ofNat 32 index) 0

@[simp] lemma narrow_zero (lane : ArrayLane) : lane.narrow 0#32 = 0#32 := by
  cases lane <;> rfl

def Storage.zeroWhere (s : Storage) (p : ArrayLane → ℕ → Bool) : Storage :=
  { s with array := fun lane i => if p lane i then 0 else s.array lane i }

lemma zeroWhere_zeroWhere (s : Storage) (p q : ArrayLane → ℕ → Bool) :
    (s.zeroWhere p).zeroWhere q = s.zeroWhere fun lane i => q lane i || p lane i := by
  simp only [zeroWhere, mk.injEq, true_and]
  funext lane i
  by_cases hq : q lane i
  · simp [hq]
  · simp [hq]

lemma setElement_zero (s : Storage) (lane : ArrayLane) (i : ℕ) :
    s.setElement lane i 0 = s.zeroWhere fun l j => l = lane ∧ j = i := by
  simp only [zeroWhere, setElement, mk.injEq, true_and]
  funext l j
  by_cases hl : l = lane
  · subst hl
    by_cases hj : j = i
    · simp [hj]
    · simp [hj]
  · simp [hl]

lemma run_storeSlot_zero (h : index.toNat < capacity) (lanes : List ArrayLane) (s : Storage) :
    storeSlot capacity lanes index 0 s =
      .ok () (s.zeroWhere fun lane i => lane ∈ lanes ∧ i = index.toNat) := by
  induction lanes generalizing s with
  | nil => simp [storeSlot, zeroWhere]
  | cons lane lanes ih =>
    have hstore : storeElement capacity lane index 0 s =
        .ok () (s.zeroWhere fun l i => l = lane ∧ i = index.toNat) := by
      have hzero : lane.narrow 0 = 0 := narrow_zero lane
      rw [run_storeElement h, hzero, setElement_zero]
    refine (bind_of_ok (f := fun _ => storeSlot capacity lanes index 0) hstore).trans ?_
    rw [ih, zeroWhere_zeroWhere]
    congr 2
    funext l i
    simp only [List.mem_cons]
    grind

lemma run_clearLanes (hc : capacity < 2 ^ 31) (lanes : List ArrayLane) (s : Storage) :
    clearLanes capacity lanes s =
      .ok () (s.zeroWhere fun lane i => lane ∈ lanes ∧ i < capacity) := by
  -- the slots below `n` are cleared after `n` rounds
  have hrou : ∀ n, (List.range n).foldl
      (fun s index => s.zeroWhere fun lane i => lane ∈ lanes ∧ i = index) s =
        s.zeroWhere fun lane i => lane ∈ lanes ∧ i < n := by
    intro n
    induction n with
    | zero => simp [zeroWhere]
    | succ n ih =>
      rw [List.range_succ, List.foldl_append, ih, List.foldl_cons, List.foldl_nil,
        zeroWhere_zeroWhere]
      congr 1
      funext l i
      grind
  rw [← hrou]
  apply forM_eq_ok_foldl
  intro index hindex s
  have hlt := List.mem_range.mp hindex
  have htoNat : (BitVec.ofNat 32 index).toNat = index := Word.toNat_ofNat (by omega)
  rw [run_storeSlot_zero (by omega), htoNat]

@[simp] lemma narrow_values (v : Word) : ArrayLane.values.narrow v = v := rfl

@[simp] lemma narrow_keys (v : Word) : ArrayLane.keys.narrow v = v := rfl

@[simp] lemma narrow_occupied_one : ArrayLane.occupied.narrow 1#32 = 1#32 := by decide

def capacityI32 (kind range : String) (capacity : ℕ) : Except String Word :=
  if capacity < 2 ^ 31 then .ok (BitVec.ofNat 32 capacity)
  else .error (kind ++ " capacity " ++ toString capacity ++ " exceeds " ++ range)

lemma capacityI32_eq_ok (h : capacityI32 kind range capacity = .ok c) :
    capacity < 2 ^ 31 ∧ c = BitVec.ofNat 32 capacity := by
  unfold capacityI32 at h
  split at h
  case isTrue hlt =>
    cases h
    exact ⟨hlt, rfl⟩
  case isFalse => cases h

/-- What a call that is guarded by its preflight gives: the preflight refused it, it
was carried out, or it returned a value. -/
inductive Outcome
  | refused
  | done
  | value (v : Word)
deriving DecidableEq, Repr

end Stasis.Collections
