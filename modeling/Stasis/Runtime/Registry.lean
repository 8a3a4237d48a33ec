import Mathlib
import Stasis.Lib.Cells

namespace Stasis.Runtime

abbrev Path := List String

def showPath (path : Path) : String := ".".intercalate path

def hashGlobalPath (path : Path) : UInt32 :=
  (".".intercalate path).toUTF8.data.toList.foldl
    (fun hash byte => (hash ^^^ byte.toUInt32) * 16777619) 2166136261

def hashForeachFieldSuffix (suffix : Path) : UInt32 :=
  if suffix = [] then 0 else hashGlobalPath suffix

inductive JitStorageKind
  | i32 | f32 | f64 | u8 | u16
deriving DecidableEq, Repr

/-- The table a storage kind is looked up in; the integer widths share one. -/
inductive StorageTable
  | int | f32 | f64
deriving DecidableEq, Repr

namespace JitStorageKind

def debugName : JitStorageKind → String
  | i32 => "I32"
  | f32 => "F32"
  | f64 => "F64"
  | u8 => "U8"
  | u16 => "U16"

def bits : JitStorageKind → ℕ
  | i32 | f32 => 32
  | f64 => 64
  | u8 => 8
  | u16 => 16

def table : JitStorageKind → StorageTable
  | i32 | u8 | u16 => .int
  | f32 => .f32
  | f64 => .f64

end JitStorageKind

abbrev ArrayKey := UInt32 × UInt32

structure Lane where
  kind : JitStorageKind
  elements : List ℕ
deriving DecidableEq

structure Registry where
  scalars : StorageTable → UInt32 → Option ℕ
  lanes : StorageTable → ArrayKey → Option Lane
  /-- Elements stored under a key that has no backing array. -/
  fallback : StorageTable → ArrayKey → List (ℕ × ℕ)
  literals : UInt32 → Option (List UInt8)

inductive Address
  | scalar (table : StorageTable) (hash : UInt32)
  | element (table : StorageTable) (key : ArrayKey) (index : ℕ)
deriving DecidableEq

namespace Registry

def empty : Registry where
  scalars _ _ := none
  lanes _ _ := none
  fallback _ _ := []
  literals _ := none

def scalarLoad (reg : Registry) (table : StorageTable) (hash : UInt32) : ℕ :=
  (reg.scalars table hash).getD 0

def scalarStore (reg : Registry) (table : StorageTable) (hash : UInt32) (value : ℕ) : Registry :=
  { reg with scalars := fun t h => if t = table ∧ h = hash then some value else reg.scalars t h }

/-- `stasis_jit_global_*_array_load`: the backing array, then the single
elements, then the bytes of a string literal with the same hash. -/
def arrayLoad (reg : Registry) (table : StorageTable) (key : ArrayKey) (index : ℕ) : ℕ :=
  match reg.lanes table key with
  | some lane => lane.elements.getD index 0
  | none =>
    match (reg.fallback table key).lookup index with
    | some value => value
    | none =>
      if reg.fallback table key ≠ [] ∨ table ≠ .int ∨ key.2 ≠ 0 then 0
      else ((reg.literals key.1).bind (fun text => text[index]?)).elim 0 UInt8.toNat

def setLane (reg : Registry) (table : StorageTable) (key : ArrayKey) (lane : Lane) : Registry :=
  { reg with lanes := fun t k => if t = table ∧ k = key then some lane else reg.lanes t k }

def setFallback (reg : Registry) (table : StorageTable) (key : ArrayKey)
    (entries : List (ℕ × ℕ)) : Registry :=
  { reg with fallback := fun t k => if t = table ∧ k = key then entries else reg.fallback t k }

/-- `stasis_jit_global_*_array_store`: a backing array narrows the value to its
width and ignores an index past its end. -/
def arrayStore (reg : Registry) (table : StorageTable) (key : ArrayKey) (index value : ℕ) :
    Registry :=
  match reg.lanes table key with
  | some lane =>
    reg.setLane table key
      { lane with elements := lane.elements.set index (value % 2 ^ lane.kind.bits) }
  | none => reg.setFallback table key ((index, value) :: reg.fallback table key)

/-- `ensure_owned_scalar`: the initial value is used only for a new slot. -/
def provisionScalar (reg : Registry) (table : StorageTable) (hash : UInt32) (initial : ℕ) :
    Registry :=
  match reg.scalars table hash with
  | some _ => reg
  | none => reg.scalarStore table hash initial

/-- `migrate_fallback_array` and `migrate_integer_fallback_array`: single
elements inside the new backing move into it. -/
def migrateFallback (kind : JitStorageKind) (entries : List (ℕ × ℕ)) (elements : List ℕ) :
    List ℕ :=
  elements.mapIdx fun index element =>
    (entries.lookup index).elim element (· % 2 ^ kind.bits)

/-- `ensure_jit_*_array_capacity_unlocked_with_initial`: a lane of another
integer width is discarded, a lane of the same kind only grows. -/
def provisionLane (reg : Registry) (kind : JitStorageKind) (key : ArrayKey) (len initial : ℕ) :
    Registry :=
  let kept := match reg.lanes kind.table key with
    | some lane => if lane.kind = kind then lane.elements else []
    | none => []
  let grown := kept ++ List.replicate (len - kept.length) initial
  let entries := reg.fallback kind.table key
  (reg.setLane kind.table key ⟨kind, migrateFallback kind entries grown⟩).setFallback kind.table
    key (entries.filter fun entry => grown.length ≤ entry.1)

def load (reg : Registry) : Address → ℕ
  | .scalar table hash => reg.scalarLoad table hash
  | .element table key index => reg.arrayLoad table key index

def store (reg : Registry) : Address → ℕ → Registry
  | .scalar table hash, value => reg.scalarStore table hash value
  | .element table key index, value => reg.arrayStore table key index value

/-- The slot has backing of its own that keeps a value of `kind.bits` bits, and
no single element waits to be moved into it. -/
def Backed (reg : Registry) (kind : JitStorageKind) : Address → Prop
  | .scalar table hash => (reg.scalars table hash).isSome
  | .element table key index =>
    (∃ lane, reg.lanes table key = some lane ∧ lane.kind = kind ∧ index < lane.elements.length) ∧
      (reg.fallback table key).lookup index = none

lemma lanes_store (reg : Registry) (a : Address) (v : ℕ) (t : StorageTable) (k : ArrayKey) :
    ((reg.store a v).lanes t k).map (fun lane => (lane.kind, lane.elements.length)) =
      (reg.lanes t k).map fun lane => (lane.kind, lane.elements.length) := by
  cases a with
  | scalar table hash => rfl
  | element table key index =>
    cases hlane : reg.lanes table key with
    | none => simp [store, arrayStore, hlane, setFallback]
    | some lane =>
      simp only [store, arrayStore, hlane, setLane]
      split_ifs with h
      · obtain ⟨rfl, rfl⟩ := h
        simp [hlane]
      · rfl

variable {t : StorageTable} {reg : Registry} {kind : JitStorageKind} {b a : Address} {index : ℕ}

lemma scalars_store (reg : Registry) (a : Address) (v : ℕ) (hsome : (reg.scalars t h).isSome) :
    ((reg.store a v).scalars t h).isSome := by
  cases a with
  | scalar table hash =>
    simp only [store, scalarStore]
    split_ifs
    · rfl
    · exact hsome
  | element table key index =>
    simp only [store, arrayStore]
    split <;> exact hsome

variable {k key : ArrayKey} {v : ℕ}

lemma fallback_store (reg : Registry) (a : Address) (v : ℕ) (hlane : (reg.lanes t k).isSome) :
    (reg.store a v).fallback t k = reg.fallback t k := by
  cases a with
  | scalar table hash => rfl
  | element table key index =>
    cases hkey : reg.lanes table key with
    | some lane => simp [store, arrayStore, hkey, setLane]
    | none =>
      simp only [store, arrayStore, hkey, setFallback]
      split_ifs with h
      · obtain ⟨rfl, rfl⟩ := h
        simp [hkey] at hlane
      · rfl

lemma Backed.store (h : reg.Backed kind b) (a : Address) (v : ℕ) :
    (reg.store a v).Backed kind b := by
  cases b with
  | scalar table hash => exact scalars_store reg a v h
  | element table key index =>
    obtain ⟨⟨lane, hlane, hkind, hlt⟩, hfree⟩ := h
    have hshape := lanes_store reg a v table key
    rw [hlane] at hshape
    obtain ⟨lane', hlane', heq⟩ := Option.map_eq_some_iff.mp hshape
    obtain ⟨hk, hl⟩ := Prod.mk.inj heq
    refine ⟨⟨lane', hlane', hk.trans hkind, by omega⟩, ?_⟩
    rw [fallback_store reg a v (by simp [hlane]), hfree]

lemma load_store_self (h : reg.Backed kind a) (hv : v < 2 ^ kind.bits) :
    (reg.store a v).load a = v := by
  cases a with
  | scalar table hash => simp [store, load, scalarStore, scalarLoad]
  | element table key index =>
    obtain ⟨⟨lane, hlane, rfl, hlt⟩, -⟩ := h
    simp [store, load, arrayStore, arrayLoad, setLane, hlane, hlt, Nat.mod_eq_of_lt hv]

lemma load_store_of_ne (hne : a ≠ b) (h : reg.Backed kind b) :
    (reg.store a v).load b = reg.load b := by
  cases b with
  | scalar table hash =>
    cases a with
    | scalar table' hash' =>
      have hne' : ¬(table = table' ∧ hash = hash') := by
        rintro ⟨rfl, rfl⟩
        exact hne rfl
      simp [store, load, scalarStore, scalarLoad, hne']
    | element table' key' index' =>
      simp only [store, arrayStore]
      split <;> rfl
  | element table key index =>
    obtain ⟨⟨lane, hlane, -, -⟩, -⟩ := h
    cases a with
    | scalar table' hash' => rfl
    | element table' key' index' =>
      by_cases hkey : table = table' ∧ key = key'
      · obtain ⟨rfl, rfl⟩ := hkey
        have hidx : index' ≠ index := fun he => hne (he ▸ rfl)
        simp [store, load, arrayStore, arrayLoad, setLane, hlane, List.getElem?_set_ne hidx]
      · -- the lane read is not the one written, whichever table took the write
        simp only [store, load, arrayStore]
        split <;> simp [arrayLoad, setLane, setFallback, hkey, hlane]

def cells : CellMemory Registry Address ℕ where
  load := load
  store := store
  Holds reg a v := ∃ kind, reg.Backed kind a ∧ v < 2 ^ kind.bits
  load_store := fun ⟨_, hb, hv⟩ => load_store_self hb hv
  load_store_ne := fun hne ⟨_, hb, _⟩ => load_store_of_ne hne hb
  holds_store := fun ⟨kind, hb, hv⟩ => ⟨kind, hb.store _ _, hv⟩

lemma Backed.writeAll (h : reg.Backed kind a) (ws : List (Address × ℕ)) :
    (cells.writeAll reg ws).Backed kind a := by
  induction ws generalizing reg with
  | nil => exact h
  | cons w ws ih => exact ih (h.store w.1 w.2)

lemma lookup_filter_le (entries : List (ℕ × ℕ)) (h : index < n) :
    (entries.filter fun entry => n ≤ entry.1).lookup index = none := by
  rw [List.lookup_eq_none_iff]
  intro entry hentry
  have hle : n ≤ entry.1 := by simpa using (List.mem_filter.mp hentry).2
  simp only [bne_iff_ne, ne_eq]
  omega

lemma backed_provisionLane (reg : Registry) (kind : JitStorageKind) (key : ArrayKey) (initial : ℕ)
    (h : index < len) :
    (reg.provisionLane kind key len initial).Backed kind (.element kind.table key index) := by
  refine ⟨⟨_, by simp [provisionLane, setLane, setFallback]; rfl, rfl, ?_⟩, ?_⟩
  · simp only [migrateFallback, List.length_mapIdx, List.length_append, List.length_replicate]
    omega
  · simp only [provisionLane, setFallback, and_self, if_true]
    apply lookup_filter_le
    simp only [List.length_append, List.length_replicate]
    omega

lemma provisionLane_of_ne (reg : Registry) (len initial : ℕ) (h : ¬(t = kind.table ∧ k = key)) :
    (reg.provisionLane kind key len initial).lanes t k = reg.lanes t k ∧
      (reg.provisionLane kind key len initial).fallback t k = reg.fallback t k := by
  simp [provisionLane, setLane, setFallback, h]

lemma backed_provisionScalar (reg : Registry) (kind : JitStorageKind) (table : StorageTable)
    (hash : UInt32) (initial : ℕ) :
    (reg.provisionScalar table hash initial).Backed kind (.scalar table hash) := by
  unfold provisionScalar Backed
  cases h : reg.scalars table hash with
  | some v => simp [h]
  | none => simp [scalarStore]

lemma Backed.provisionScalar (h : reg.Backed kind b) (table : StorageTable) (hash : UInt32)
    (initial : ℕ) :
    (reg.provisionScalar table hash initial).Backed kind b := by
  unfold Registry.provisionScalar
  split
  · exact h
  · exact h.store (.scalar table hash) initial

lemma load_provisionScalar (h : reg.Backed kind b) (table : StorageTable) (hash : UInt32)
    (initial : ℕ) :
    (reg.provisionScalar table hash initial).load b = reg.load b := by
  unfold provisionScalar
  split
  · rfl
  next hnone =>
    apply load_store_of_ne (a := .scalar table hash) _ h
    rintro rfl
    simp [Backed, hnone] at h

lemma load_provisionLane (h : reg.Backed kind (.element kind.table key index)) (len initial : ℕ) :
    (reg.provisionLane kind key len initial).load (.element kind.table key index) =
      reg.load (.element kind.table key index) := by
  obtain ⟨⟨lane, hlane, hkind, hlt⟩, hfree⟩ := h
  simp [load, arrayLoad, provisionLane, setLane, setFallback, hlane, hkind, migrateFallback,
    List.getElem?_append_left hlt, hfree, hlt]

end Registry

end Stasis.Runtime
