import Stasis.Lib.Assoc
import Stasis.Runtime.State

namespace Stasis.Runtime

open TypeKey
open Registry
open Option

inductive StateSlot
  | scalar (path : Path)
  | lane (path field : Path)
deriving DecidableEq

inductive SlotKey
  | scalar (table : StorageTable) (hash : UInt32)
  | lane (table : StorageTable) (key : ArrayKey)
deriving DecidableEq

def Address.slotKey : Address → SlotKey
  | .scalar table hash => .scalar table hash
  | .element table key _ => .lane table key

namespace Program

variable (p : Program)

def slots : List StateSlot :=
  p.stateLayout.scalars.map (fun scalar => .scalar scalar.path) ++
    p.stateLayout.collections.flatMap fun collection =>
      collection.fields.map fun field => .lane collection.path field.field

def scalarTypeOf (path : Path) : Option ScalarType :=
  (p.globalPathTypes.lookup path).bind (p.scalarType path)

/-- Type and length of a lane, if the accessors support it. -/
def laneTypeOf (path field : Path) : Option (ScalarType × ℕ) :=
  match p.globalCollectionValueType path field with
  | .error _ => none
  | .ok (type, capacity) => (p.laneScalarType path field type).map fun t => (t, capacity)

def slotKey : StateSlot → Option SlotKey
  | .scalar path => (p.scalarTypeOf path).map fun t => (scalarAddress path t).slotKey
  | .lane path field =>
    (p.laneTypeOf path field).map fun t => .lane t.1.storageKind.table (laneKey path field)

def SlotsDistinct : Prop :=
  ∀ s ∈ p.slots, ∀ s' ∈ p.slots, p.slotKey s ≠ none → p.slotKey s = p.slotKey s' → s = s'

instance : Decidable p.SlotsDistinct :=
  inferInstanceAs (Decidable (∀ s ∈ p.slots, ∀ s' ∈ p.slots, p.slotKey s ≠ none →
    p.slotKey s = p.slotKey s' → s = s'))

/-- Whether the program has metadata under the slot's path, of whatever type. -/
def knows : StateSlot → Bool
  | .scalar path => p.hasGlobalPath path
  | .lane path field => p.hasGlobalCollectionField path field

variable {p}

variable {path field : Path} {reg reg' : Registry} {v : JitScalarValue} {index : ℕ}

lemma readGlobalScalar_eq_ok_iff :
    p.readGlobalScalar path reg = .ok v ↔
      ∃ t, p.scalarTypeOf path = some t ∧ v = .ofBits t (reg.load (scalarAddress path t)) := by
  unfold readGlobalScalar globalPathType scalarTypeOf
  cases p.globalPathTypes.lookup path with
  | none => simp
  | some type => cases h : p.scalarType path type <;> simp [h, eq_comm]

lemma writeGlobalScalar_of_ok (h : p.writeGlobalScalar path v reg = .ok () reg') :
    p.scalarTypeOf path = some v.type ∧ reg' = reg.store (scalarAddress path v.type) v.toBits := by
  unfold writeGlobalScalar globalPathType at h
  unfold scalarTypeOf
  cases hlook : p.globalPathTypes.lookup path with
  | none => simp [hlook] at h
  | some type =>
    simp only [hlook] at h
    split_ifs at h with htype
    cases h
    exact ⟨htype, rfl⟩

lemma readGlobalScalar_congr
    (h : ∀ t, p.scalarTypeOf path = some t → JitScalarValue.ofBits t
      (reg'.load (scalarAddress path t)) = .ofBits t (reg.load (scalarAddress path t))) :
    p.readGlobalScalar path reg' = p.readGlobalScalar path reg := by
  unfold scalarTypeOf at h
  unfold readGlobalScalar globalPathType
  cases hlook : p.globalPathTypes.lookup path with
  | none => rfl
  | some type =>
    cases ht : p.scalarType path type with
    | none => simp [ht]
    | some t => simpa [ht] using h t (by simp [hlook, ht])

lemma writeGlobalScalar_eq_ok (h : p.scalarTypeOf path = some v.type) (reg : Registry) :
    p.writeGlobalScalar path v reg = .ok () (reg.store (scalarAddress path v.type) v.toBits) := by
  obtain ⟨type, hlook, htype⟩ := bind_eq_some_iff.mp h
  simp [writeGlobalScalar, globalPathType, hlook, htype]

lemma readGlobalCollectionScalar_eq_ok_iff :
    p.readGlobalCollectionScalar path field index reg = .ok v ↔
      ∃ t capacity, p.laneTypeOf path field = some (t, capacity) ∧ index < capacity ∧
        v = .ofBits t (reg.load (laneAddress path field index t)) := by
  unfold readGlobalCollectionScalar laneTypeOf
  cases p.globalCollectionValueType path field with
  | error e => simp
  | ok type =>
    obtain ⟨type, capacity⟩ := type
    by_cases hlt : index < capacity
    · have hin : ¬((index : ℤ) < 0 ∨ (capacity : ℤ) ≤ index) := by omega
      simp only [hin, if_false]
      cases h : p.laneScalarType path field type <;> simp [hlt, eq_comm]
    · have hout : (index : ℤ) < 0 ∨ (capacity : ℤ) ≤ index := by omega
      simp only [hout, if_true, reduceCtorEq, map_eq_some_iff, Prod.mk.injEq, false_iff]
      rintro ⟨t, _, ⟨_, -, -, rfl⟩, hlt', -⟩
      exact hlt hlt'

lemma readGlobalCollectionScalar_congr
    (h : ∀ t capacity, p.laneTypeOf path field = some (t, capacity) → index < capacity →
      JitScalarValue.ofBits t (reg'.load (laneAddress path field index t)) =
        .ofBits t (reg.load (laneAddress path field index t))) :
    p.readGlobalCollectionScalar path field index reg' =
      p.readGlobalCollectionScalar path field index reg := by
  unfold laneTypeOf at h
  unfold readGlobalCollectionScalar
  cases htype : p.globalCollectionValueType path field with
  | error e => rfl
  | ok type =>
    obtain ⟨type, capacity⟩ := type
    dsimp only
    split_ifs with hout
    · rfl
    · cases ht : p.laneScalarType path field type with
      | none => rfl
      | some t => simpa using h t capacity (by simp [htype, ht]) (by omega)

lemma writeGlobalCollectionScalar_eq_ok (h : p.laneTypeOf path field = some (v.type, capacity))
    (hlt : index < capacity) (reg : Registry) :
    p.writeGlobalCollectionScalar path field index v reg =
      .ok () (reg.store (laneAddress path field index v.type) v.toBits) := by
  unfold laneTypeOf at h
  unfold writeGlobalCollectionScalar
  cases htype : p.globalCollectionValueType path field with
  | error e => simp [htype] at h
  | ok type =>
    obtain ⟨type, capacity'⟩ := type
    simp only [htype, map_eq_some_iff, Prod.mk.injEq] at h
    obtain ⟨t, ht, rfl, rfl⟩ := h
    simp [ht, hlt]

lemma writeGlobalCollectionScalar_of_ok
    (h : p.writeGlobalCollectionScalar path field index v reg = .ok () reg') :
    (∃ capacity, p.laneTypeOf path field = some (v.type, capacity) ∧ index < capacity) ∧
      reg' = reg.store (laneAddress path field index v.type) v.toBits := by
  unfold writeGlobalCollectionScalar at h
  unfold laneTypeOf
  cases htype : p.globalCollectionValueType path field with
  | error e => simp [htype] at h
  | ok type =>
    obtain ⟨type, capacity⟩ := type
    simp only [htype] at h
    split_ifs at h with hout hlane
    cases h
    exact ⟨⟨capacity, by simp [hlane], by omega⟩, rfl⟩

end Program

namespace StorageLane

def slotKey (lane : StorageLane) : SlotKey :=
  match lane.len, lane.kind with
  | none, .i32 | none, .f32 | none, .f64 => .scalar lane.kind.table lane.key.1
  | _, _ => .lane lane.kind.table lane.key

lemma provision_eq (lane : StorageLane) (bits : ℕ) (reg : Registry) :
    (∃ hash, lane.slotKey = .scalar lane.kind.table hash ∧
      lane.provision bits reg = reg.provisionScalar lane.kind.table hash bits) ∨
    (lane.slotKey = .lane lane.kind.table lane.key ∧ lane.provision bits reg =
        reg.provisionLane lane.kind lane.key (lane.len.getD 1) bits) := by
  obtain ⟨kind, key, len, default, label⟩ := lane
  cases len with
  | some n => exact .inr ⟨rfl, rfl⟩
  | none =>
    cases kind with
    | i32 | f32 | f64 => exact .inl ⟨key.1, rfl, rfl⟩
    | u8 | u16 => exact .inr ⟨rfl, rfl⟩

def Covers (lane : StorageLane) : Address → Prop
  | .scalar table hash => lane.slotKey = .scalar table hash
  | .element table key index => lane.slotKey = .lane table key ∧ index < lane.len.getD 1

variable {lane : StorageLane} {a : Address} {reg : Registry}

lemma Covers.slotKey_eq (h : lane.Covers a) : lane.slotKey = a.slotKey := by
  cases a with
  | scalar table hash => exact h
  | element table key index => exact h.1

lemma backed_provision (h : lane.Covers a) (reg : Registry) (bits : ℕ) :
    (lane.provision bits reg).Backed lane.kind a := by
  rcases lane.provision_eq bits reg with ⟨hash, hkey, heq⟩ | ⟨hkey, heq⟩
  · rw [heq]
    cases a with
    | scalar table hash' =>
      obtain ⟨rfl, rfl⟩ := SlotKey.scalar.inj (hkey.symm.trans h)
      exact reg.backed_provisionScalar _ _ _ _
    | element table key index => cases hkey.symm.trans h.1
  · rw [heq]
    cases a with
    | scalar table hash => cases hkey.symm.trans h
    | element table key index =>
      obtain ⟨rfl, rfl⟩ := SlotKey.lane.inj (hkey.symm.trans h.1)
      exact reg.backed_provisionLane _ _ bits h.2

/-- Provisioning other storage, or the same storage with the same kind, leaves
a backed slot and its contents alone. -/
lemma provision_keeps {kind : JitStorageKind} (h : reg.Backed kind a)
    (hsame : lane.slotKey = a.slotKey → lane.Covers a ∧ lane.kind = kind) (bits : ℕ) :
    (lane.provision bits reg).Backed kind a ∧ (lane.provision bits reg).load a = reg.load a := by
  rcases lane.provision_eq bits reg with ⟨hash, hkey, heq⟩ | ⟨hkey, heq⟩
  · rw [heq]
    exact ⟨h.provisionScalar _ _ _, load_provisionScalar h _ _ _⟩
  · by_cases hslot : lane.slotKey = a.slotKey
    · obtain ⟨hcov, rfl⟩ := hsame hslot
      refine ⟨backed_provision hcov reg bits, ?_⟩
      rw [heq]
      cases a with
      | scalar table hash => cases hkey.symm.trans hslot
      | element table key index =>
        obtain ⟨rfl, rfl⟩ := SlotKey.lane.inj (hkey.symm.trans hslot)
        exact load_provisionLane h _ _
    · rw [heq]
      cases a with
      | scalar table hash => exact ⟨h, rfl⟩
      | element table key index =>
        have hother : ¬(table = lane.kind.table ∧ key = lane.key) := by
          rintro ⟨rfl, rfl⟩
          exact hslot hkey
        obtain ⟨hlanes, hfal⟩ := reg.provisionLane_of_ne (lane.len.getD 1) bits hother
        obtain ⟨⟨l, hl, hkind, hlt⟩, hfree⟩ := h
        refine ⟨⟨⟨l, hlanes.trans hl, hkind, hlt⟩, hfal ▸ hfree⟩, ?_⟩
        simp [load, arrayLoad, hlanes, hl]

/-- Provision lanes in order, each with its checked default. -/
def provisionAll (reg : Registry) (bound : List (StorageLane × ℕ)) : Registry :=
  bound.foldl (fun reg b => b.1.provision b.2 reg) reg

lemma provisionAll_keeps {kind : JitStorageKind} (h : reg.Backed kind a)
    (hsame : ∀ b ∈ bound, b.1.slotKey = a.slotKey → b.1.Covers a ∧ b.1.kind = kind) :
    (provisionAll reg bound).Backed kind a ∧ (provisionAll reg bound).load a = reg.load a := by
  induction bound generalizing reg with
  | nil => exact ⟨h, rfl⟩
  | cons b bound ih =>
    obtain ⟨hb, hload⟩ := provision_keeps h (hsame b (.head _)) b.2
    obtain ⟨hall, hloads⟩ := ih hb fun b' hb' => hsame b' (.tail _ hb')
    exact ⟨hall, hloads.trans hload⟩

lemma backed_provisionAll (hnodup : (bound.map fun b => b.1.slotKey).Nodup)
    (hmem : (lane, bits) ∈ bound) (hcov : lane.Covers a) :
    (provisionAll reg bound).Backed lane.kind a := by
  induction bound generalizing reg with
  | nil => cases hmem
  | cons b bound ih =>
    rw [List.map_cons, List.nodup_cons] at hnodup
    rcases List.mem_cons.mp hmem with rfl | hmem
    · refine (provisionAll_keeps (backed_provision hcov reg bits) ?_).1
      intro b hb heq
      refine absurd ?_ hnodup.1
      rw [hcov.slotKey_eq]
      exact List.mem_map.mpr ⟨b, hb, heq⟩
    · exact ih hnodup.2 hmem

end StorageLane

open StorageLane

section

variable {claimed : List ((JitStorageKind × ArrayKey) × String)}
  {lanes : List (Except String StorageLane)} {reg reg' : Registry}

lemma bindStorage_cons_ok (h : bindStorage claimed (lane :: lanes) reg = .ok () reg') :
    ∃ l bits, lane = .ok l ∧ claimed.lookup (l.kind, l.key) = none ∧ l.defaultBits = .ok bits ∧
      bindStorage (((l.kind, l.key), l.label) :: claimed) lanes (l.provision bits reg) =
        .ok () reg' := by
  rcases lane with _ | lane
  · cases h
  rcases hclaim : claimed.lookup (lane.kind, lane.key) with _ | _
  swap
  · simp only [bindStorage, hclaim] at h
    cases h
  cases hbits : lane.defaultBits with
  | error e =>
    simp only [bindStorage, hclaim, hbits] at h
    cases h
  | ok bits =>
    simp only [bindStorage, hclaim, hbits] at h
    exact ⟨lane, bits, rfl, hclaim, hbits, h⟩

lemma bindStorage_ok (h : bindStorage claimed lanes reg = .ok () reg') :
    ∃ bound : List (StorageLane × ℕ), lanes = bound.map (fun b => .ok b.1) ∧
      ∀ r, bindStorage claimed lanes r = .ok () (provisionAll r bound) := by
  induction lanes generalizing claimed reg with
  | nil => exact ⟨[], rfl, fun r => rfl⟩
  | cons _ lanes ih =>
    obtain ⟨lane, bits, rfl, hclaim, hbits, h⟩ := bindStorage_cons_ok h
    obtain ⟨bound, rfl, hrun⟩ := ih h
    refine ⟨(lane, bits) :: bound, rfl, fun r => ?_⟩
    simp only [bindStorage, hclaim, hbits]
    exact hrun _

end

def succeeded {T : Type} : EStateM.Result String Registry T → Bool
  | .ok _ _ => true
  | .error _ _ => false

namespace Program

variable (p : Program)

def Activates : Prop := ∃ reg, succeeded (p.activateStagedRuntime reg) = true

def boundKeys : List SlotKey :=
  p.storageLanes.filterMap fun lane => lane.toOption.map StorageLane.slotKey

variable {p}

lemma Activates.exists_bound (h : p.Activates) :
    ∃ bound : List (StorageLane × ℕ), p.storageLanes = bound.map (fun b => .ok b.1) ∧
      ∀ r, p.activateStagedRuntime r = .ok () (p.replaceStringLiterals
        (p.seedMaxLengthHeaders (provisionAll r bound))) := by
  obtain ⟨reg, h⟩ := h
  cases hbind : bindStorage [] p.storageLanes reg with
  | error e r => simp [activateStagedRuntime, bind, EStateM.bind, hbind, succeeded] at h
  | ok u r =>
    obtain ⟨bound, hlanes, hrun⟩ := bindStorage_ok hbind
    refine ⟨bound, hlanes, fun r => ?_⟩
    simp [activateStagedRuntime, bind, EStateM.bind, hrun, modify, modifyGet,
      MonadStateOf.modifyGet,
      EStateM.modifyGet]

variable {path field : Path} {t : ScalarType} {type : TypeKey} {kind : JitStorageKind}
  {info : ForeachCollectionInfo} {reg : Registry} {a : Address} {bound : List (StorageLane × ℕ)}
  {header : Path × ℕ}

lemma scalar_storageLane (h : p.scalarTypeOf path = some t) :
    ∃ lane, .ok lane ∈ p.storageLanes ∧ lane.kind = t.storageKind ∧
      lane.key = (hashGlobalPath path, 0) ∧ lane.len = none := by
  obtain ⟨type, hlook, htype⟩ := bind_eq_some_iff.mp h
  have hmem := mem_of_lookup hlook
  have hcoll : p.collectionInfos.lookup path = none := by
    cases hinfo : p.collectionInfos.lookup path with
    | none => rfl
    | some info =>
      have hkind := p.wellFormed.collection_not_scalar _ (mem_of_lookup hinfo) type hlook
      cases type <;>
        simp [fixedArrayLane, fixedText, scalarType,
          ProgramMetadata.isNamedScalarStatePath] at hkind htype
  obtain ⟨lane, hlane, hspec⟩ : ∃ lane, p.scalarStorageLane (path, type) = some (.ok lane) ∧
      lane.kind = t.storageKind ∧ lane.key = (hashGlobalPath path, 0) ∧ lane.len = none := by
    simp [scalarStorageLane, hcoll, htype]
  exact ⟨lane, List.mem_append_left _ (List.mem_filterMap.mpr ⟨_, hmem, hlane⟩), hspec⟩

def laneExtent (field : StateCollectionFieldLayout) : Path × Option ℕ :=
  (field.field, field.elementCount)

lemma extents_textLane (collection : StateCollectionLayout) :
    (p.textLane collection).path = collection.path ∧
      (p.textLane collection).capacity = collection.capacity ∧
      (p.textLane collection).fields.map laneExtent = collection.fields.map laneExtent := by
  unfold textLane
  split_ifs
  · refine ⟨rfl, rfl, ?_⟩
    rw [List.map_map]
    apply List.map_congr_left
    intro field _
    dsimp only [Function.comp, laneExtent]
    split_ifs <;> rfl
  · exact ⟨rfl, rfl, rfl⟩

/-- The lanes of the layout come from the collections and the typed collections. -/
inductive LaneOrigin (p : Program) (path field : Path) (count : ℕ) : Prop
  | element {info : _} {type : TypeKey} : (path, info) ∈ p.collectionInfos →
      p.isNestedFixedArrayCollectionPath path = false → field = [] →
      info.elementType = some type → type.scalarStorageType.isSome → count = info.len →
      LaneOrigin p path field count
  | field {info : _} {type : TypeKey} : (path, info) ∈ p.collectionInfos →
      p.isNestedFixedArrayCollectionPath path = false → (field, type) ∈ info.fieldTypes →
      count = (type.laneTypeAndLen info.len).2 → LaneOrigin p path field count
  | typed {descriptor lane} : (path, descriptor) ∈ p.typedCollectionDescriptors →
      lane ∈ descriptor.lanes → typedMetadataLane lane.name = false → field = [lane.name] →
      count = lane.elementCount → LaneOrigin p path field count

lemma laneOrigin_of_mem (hcoll : collection ∈ p.stateLayout.collections)
    (hf : f ∈ collection.fields) :
    LaneOrigin p collection.path f.field (collection.fieldElementCount f) := by
  simp only [stateLayout, layoutCollections, List.mem_insertionSort, List.mem_append,
    List.mem_filterMap, List.mem_map] at hcoll
  rcases hcoll with ⟨⟨path, info⟩, hinfo, heq⟩ | ⟨⟨path, descriptor⟩, hdesc, rfl⟩
  · unfold collectionLayout at heq
    split_ifs at heq with hnes
    obtain rfl := some.inj heq
    rw [Bool.not_eq_true] at hnes
    obtain ⟨hpath, hcap, hextents⟩ := p.extents_textLane
      { path := path, capacity := info.len, elementShape := info.elementShape,
        fullyMigratable := info.fullyMigratable,
        fields := (info.elementType.bind elementFieldLayout).toList ++
          info.fieldTypes.filterMap (collectionFieldLayout info.len) }
    have hextent := List.mem_map_of_mem (f := laneExtent) hf
    rw [hextents] at hextent
    rw [hpath, StateCollectionLayout.fieldElementCount, hcap]
    simp only [List.map_append, List.mem_append, List.mem_map, mem_toList,
      bind_eq_some_iff, elementFieldLayout, List.mem_filterMap] at hextent
    rcases hextent with ⟨g, ⟨type, htype, hg⟩, heq⟩ | ⟨g, ⟨⟨name, type⟩, hentry, hg⟩, heq⟩
    · obtain ⟨t, ht, rfl⟩ := map_eq_some_iff.mp hg
      obtain ⟨hname, hcount⟩ := Prod.mk.inj heq
      exact .element hinfo hnes hname.symm htype (by simp [ht]) (by simp [← hcount])
    · obtain ⟨hname, hcount⟩ := Prod.mk.inj heq
      rw [← hname, ← hcount]
      unfold collectionFieldLayout at hg
      split at hg
      all_goals
        rename_i harray
        obtain ⟨t, -, rfl⟩ := map_eq_some_iff.mp hg
        exact .field hinfo hnes hentry (by simp [laneTypeAndLen, harray])
  · simp only [typedCollectionLayout, List.mem_map, List.mem_filter, Bool.not_eq_true,
      decide_eq_true_eq] at hf
    obtain ⟨lane, ⟨hlane, hmeta⟩, rfl⟩ := hf
    exact .typed hdesc hlane hmeta rfl rfl

lemma exists_laneOrigin (h : .lane path field ∈ p.slots) :
    ∃ count, LaneOrigin p path field count := by
  simp only [slots, List.mem_append, List.mem_map, reduceCtorEq, and_false, exists_false,
    false_or, List.mem_flatMap, StateSlot.lane.injEq] at h
  obtain ⟨collection, hcoll, f, hf, rfl, rfl⟩ := h
  exact ⟨_, laneOrigin_of_mem hcoll hf⟩

lemma storageKind_of_laneScalarType
    (htext : ¬(field = [] ∧ (p.globalFixedTextCapacity path).isSome))
    (ht : p.laneScalarType path field type = some t) (hkind : type.arrayStorageKind = some kind) :
    kind = t.storageKind := by
  unfold laneScalarType at ht
  rw [if_neg htext] at ht
  cases type with
  | scalar s =>
    cases ht
    exact (some.inj hkind).symm
  | named name =>
    dsimp only at ht
    split_ifs at ht
    cases ht
    exact (some.inj hkind).symm
  | typedCollection name => cases hkind
  | _ => cases ht

variable (hinfo : (path, info) ∈ p.collectionInfos)
include hinfo

lemma collectionStorageLanes_subset : p.collectionStorageLanes (path, info) ⊆ p.storageLanes := by
  intro l hl
  apply List.mem_append_right
  apply List.mem_append_left
  exact List.mem_flatMap.mpr ⟨_, hinfo, hl⟩

/-- What binding does for a lane of type `t` with `count` elements. -/
def BoundLane (p : Program) (path field : Path) (t : ScalarType) (count : ℕ) : Prop :=
  ∃ lane, .ok lane ∈ p.storageLanes ∧ lane.kind = t.storageKind ∧
    lane.key = laneKey path field ∧ lane.len = some count

lemma boundLane_element (hnes : p.isNestedFixedArrayCollectionPath path = false)
    (hele : info.elementType = some type) (hok : ∀ lane ∈ p.storageLanes, ∃ l, lane = .ok l)
    (ht : p.laneScalarType path [] type = some t) : p.BoundLane path [] t info.len := by
  have hmem : p.elementStorageLane path info.len type ∈ p.storageLanes := by
    apply collectionStorageLanes_subset hinfo
    simp [collectionStorageLanes, hnes, hele]
  obtain ⟨l, hl⟩ := hok _ hmem
  rw [hl] at hmem
  refine ⟨l, hmem, ?_⟩
  unfold elementStorageLane at hl
  by_cases htext : (p.globalFixedTextCapacity path).isSome
  · obtain rfl : t = .u8 := by simpa [laneScalarType, htext, eq_comm] using ht
    simp only [htext, if_true, Except.ok.injEq] at hl
    subst hl
    exact ⟨rfl, rfl, rfl⟩
  · cases hkind : type.arrayStorageKind with
    | none => simp [htext, hkind] at hl
    | some kind =>
      simp only [htext, Bool.false_eq_true, if_false, hkind, Except.ok.injEq] at hl
      subst hl
      exact ⟨storageKind_of_laneScalarType (by simp [htext]) ht hkind, rfl, rfl⟩

lemma boundLane_field (hnes : p.isNestedFixedArrayCollectionPath path = false)
    (hentry : (field, type) ∈ info.fieldTypes) (hok : ∀ lane ∈ p.storageLanes, ∃ l, lane = .ok l)
    (ht : p.laneScalarType path field (type.laneTypeAndLen info.len).1 = some t) :
    p.BoundLane path field t (type.laneTypeAndLen info.len).2 := by
  have hne : field ≠ [] := p.wellFormed.fields_nonempty _ hinfo _ hentry
  have hmem : p.fieldStorageLane path info.len (field, type) ∈ p.storageLanes := by
    apply collectionStorageLanes_subset hinfo
    simp only [collectionStorageLanes, hnes, Bool.false_eq_true, if_false, List.mem_append]
    exact .inr (List.mem_map_of_mem hentry)
  obtain ⟨l, hl⟩ := hok _ hmem
  rw [hl] at hmem
  refine ⟨l, hmem, ?_⟩
  dsimp only [fieldStorageLane] at hl
  split at hl
  · rename_i kind hkind
    cases hl
    exact ⟨storageKind_of_laneScalarType (by simp [hne]) ht hkind, rfl, rfl⟩
  · cases hl

omit hinfo

variable {count capacity : ℕ}

section

variable (hdesc : (path, descriptor) ∈ p.typedCollectionDescriptors)
  (hlane : lane ∈ descriptor.lanes)
include hdesc hlane

lemma boundLane_typed (hmeta : typedMetadataLane lane.name = false) :
    p.BoundLane path [lane.name] lane.type lane.elementCount := by
  refine ⟨p.typedStorageLane path lane, ?_, ?_⟩
  · apply List.mem_append_right
    apply List.mem_append_right
    exact List.mem_flatMap.mpr ⟨_, hdesc, List.mem_map_of_mem hlane⟩
  · simp [typedStorageLane, hmeta]

lemma find_typedLane : descriptor.lanes.find? (fun l => l.name = lane.name) = some lane := by
  have hnodup := p.wellFormed.typed_lanes_nodup _ hdesc
  cases hf : descriptor.lanes.find? (fun l => l.name = lane.name) with
  | none => simpa using List.find?_eq_none.mp hf lane hlane
  | some other =>
    have hname : other.name = lane.name := by simpa using List.find?_some hf
    rw [List.inj_on_of_nodup_map hnodup (List.mem_of_find?_eq_some hf) hlane hname]

end

/-- A supported lane of the layout has the length its layout entry says, and is
bound with it. -/
lemma laneTypeOf_origin (hori : LaneOrigin p path field count)
    (h : p.laneTypeOf path field = some (t, capacity)) :
    capacity = count ∧
      ((∀ lane ∈ p.storageLanes, ∃ l, lane = .ok l) → p.BoundLane path field t count) := by
  cases hori with
  | @element info type hinfo hnes hfield hele hstorage hcount =>
    subst hfield hcount
    have hlook := lookup_of_mem p.wellFormed.collections_nodup hinfo
    have harray : type.fixedArrayLane = none := by
      cases type <;> simp [scalarStorageType, fixedArrayLane] at hstorage ⊢
    obtain ⟨ht, rfl⟩ : p.laneScalarType path [] type = some t ∧ info.len = capacity := by
      simpa [laneTypeOf, globalCollectionValueType, hnes, hlook, hele,
        laneTypeAndLen, harray] using h
    exact ⟨rfl, fun hok => boundLane_element hinfo hnes hele hok ht⟩
  | @field info type hinfo hnes hentry hcount =>
    subst hcount
    have hlook := lookup_of_mem p.wellFormed.collections_nodup hinfo
    have hfield := lookup_of_mem (p.wellFormed.fields_nodup _ hinfo) hentry
    have hne : field ≠ [] := p.wellFormed.fields_nonempty _ hinfo _ hentry
    obtain ⟨ht, rfl⟩ : p.laneScalarType path field (type.laneTypeAndLen info.len).1 = some t ∧
        (type.laneTypeAndLen info.len).2 = capacity := by
      simpa [laneTypeOf, globalCollectionValueType, hnes, hlook, hne, hfield] using h
    exact ⟨rfl, fun hok => boundLane_field hinfo hnes hentry hok ht⟩
  | @typed descriptor lane hdescriptor hlane hmeta hfield hcount =>
    subst hfield hcount
    have hlook := lookup_of_mem p.wellFormed.typed_nodup hdescriptor
    obtain ⟨hnes, hcoll, -⟩ := p.wellFormed.typed_apart _ hdescriptor
    obtain ⟨rfl, rfl⟩ : lane.type = t ∧ lane.elementCount = capacity := by
      simpa [laneTypeOf, globalCollectionValueType, hnes, hcoll, hlook,
        find_typedLane hdescriptor hlane, laneScalarType] using h
    exact ⟨rfl, fun _ => boundLane_typed hdescriptor hlane hmeta⟩

lemma LaneOrigin.unique (h : LaneOrigin p path field count) (h' : LaneOrigin p path field count') :
    count = count' := by
  have hinfo : ∀ {info info' : ForeachCollectionInfo}, (path, info) ∈ p.collectionInfos →
      (path, info') ∈ p.collectionInfos → info = info' := by
    intro info info' hi hi'
    have hl := lookup_of_mem p.wellFormed.collections_nodup hi
    exact some.inj (hl.symm.trans (lookup_of_mem p.wellFormed.collections_nodup hi'))
  have hapart : ∀ {info : ForeachCollectionInfo} {d : TypedCollectionDescriptor},
      (path, info) ∈ p.collectionInfos → (path, d) ∈ p.typedCollectionDescriptors → False := by
    intro info d hi hd
    have hnone := (p.wellFormed.typed_apart _ hd).2.1
    rw [lookup_of_mem p.wellFormed.collections_nodup hi] at hnone
    cases hnone
  cases h with
  | element hi _ hfield _ _ hcount =>
    cases h' with
    | element hi' _ _ _ _ hcount' => rw [hcount, hcount', hinfo hi hi']
    | field hi' _ hentry _ => exact absurd hfield (p.wellFormed.fields_nonempty _ hi' _ hentry)
    | typed hd _ _ _ _ => exact (hapart hi hd).elim
  | field hi _ hentry hcount =>
    cases h' with
    | element hi' _ hfield _ _ _ => exact absurd hfield (p.wellFormed.fields_nonempty _ hi _ hentry)
    | field hi' _ hentry' hcount' =>
      obtain rfl := hinfo hi hi'
      have hl := lookup_of_mem (p.wellFormed.fields_nodup _ hi) hentry
      have hl' := lookup_of_mem (p.wellFormed.fields_nodup _ hi) hentry'
      rw [hcount, hcount', some.inj (hl.symm.trans hl')]
    | typed hd _ _ _ _ => exact (hapart hi hd).elim
  | typed hd hlane _ hfield hcount =>
    cases h' with
    | element hi' _ _ _ _ _ | field hi' _ _ _ => exact (hapart hi' hd).elim
    | typed hd' hlane' _ hfield' hcount' =>
      have hl := lookup_of_mem p.wellFormed.typed_nodup hd
      obtain rfl := some.inj (hl.symm.trans (lookup_of_mem p.wellFormed.typed_nodup hd'))
      have hname := List.cons.inj (hfield.symm.trans hfield')
      have hfind := find_typedLane hd hlane
      rw [hname.1, find_typedLane hd hlane'] at hfind
      rw [hcount, hcount', some.inj hfind]

variable (p) in
/-- Every slot of the layout has storage of the right kind and length. -/
structure Installed (reg : Registry) : Prop where
  scalar : ∀ {path t}, p.scalarTypeOf path = some t →
    reg.Backed t.storageKind (scalarAddress path t)
  lane : ∀ {path field t capacity}, .lane path field ∈ p.slots →
    p.laneTypeOf path field = some (t, capacity) → ∀ {index}, index < capacity →
      reg.Backed t.storageKind (laneAddress path field index t)

lemma backed_seedMaxLengthHeaders (h : reg.Backed kind a) :
    (p.seedMaxLengthHeaders reg).Backed kind a :=
  h.writeAll _

lemma backed_seeded (h : reg.Backed kind a) :
    (p.replaceStringLiterals (p.seedMaxLengthHeaders reg)).Backed kind a := by
  have hsee : (p.seedMaxLengthHeaders reg).Backed kind a := backed_seedMaxLengthHeaders h
  cases a with
  | scalar table hash | element table key index => exact hsee

lemma load_replaceStringLiterals (h : reg.Backed kind a) :
    (p.replaceStringLiterals reg).load a = reg.load a := by
  cases a with
  | scalar table hash => rfl
  | element table key index =>
    obtain ⟨⟨lane, hlane, -⟩, -⟩ := h
    simp [load, arrayLoad, replaceStringLiterals, hlane]

lemma boundKeys_eq (h : p.storageLanes = bound.map fun b => .ok b.1) :
    p.boundKeys = bound.map fun b => b.1.slotKey := by
  rw [boundKeys, h, List.filterMap_map]
  exact congrFun List.filterMap_eq_map' bound

lemma exists_covers_scalar (h : p.scalarTypeOf path = some t) :
    ∃ lane, .ok lane ∈ p.storageLanes ∧ lane.kind = t.storageKind ∧
      lane.Covers (scalarAddress path t) := by
  obtain ⟨lane, hlane, hkind, hkey, hlen⟩ := scalar_storageLane h
  refine ⟨lane, hlane, hkind, ?_⟩
  cases t <;>
    simp [StorageLane.Covers, scalarAddress, StorageLane.slotKey, hlen, hkind, hkey,
      ScalarType.storageKind, JitStorageKind.table]

lemma exists_covers_lane (hok : ∀ lane ∈ p.storageLanes, ∃ l, lane = .ok l)
    (hslot : .lane path field ∈ p.slots) (h : p.laneTypeOf path field = some (t, capacity))
    (hlt : index < capacity) :
    ∃ lane, .ok lane ∈ p.storageLanes ∧ lane.kind = t.storageKind ∧
      lane.Covers (laneAddress path field index t) := by
  obtain ⟨count, hori⟩ := exists_laneOrigin hslot
  obtain ⟨rfl, hbound⟩ := laneTypeOf_origin hori h
  obtain ⟨lane, hlane, hkind, hkey, hlen⟩ := hbound hok
  exact ⟨lane, hlane, hkind, by simp [StorageLane.slotKey, hkind, hkey, hlen], by simpa [hlen]⟩

section

variable (hlanes : p.storageLanes = bound.map fun b => .ok b.1)
include hlanes

lemma isOk_storageLanes : ∀ lane ∈ p.storageLanes, ∃ l, lane = .ok l := by
  rw [hlanes]
  intro lane hlane
  obtain ⟨b, -, rfl⟩ := List.mem_map.mp hlane
  exact ⟨b.1, rfl⟩

lemma eq_of_covers (hkeys : p.boundKeys.Nodup) (hlane : .ok lane ∈ p.storageLanes)
    (hcov : lane.Covers a) (hb : b ∈ bound) (hkey : b.1.slotKey = a.slotKey) : b.1 = lane := by
  rw [boundKeys_eq hlanes] at hkeys
  rw [hlanes] at hlane
  obtain ⟨b', hb', heq⟩ := List.mem_map.mp hlane
  cases heq
  rw [List.inj_on_of_nodup_map hkeys hb hb' (hkey.trans hcov.slotKey_eq.symm)]

lemma installed_provisionAll (hkeys : p.boundKeys.Nodup) (reg : Registry) :
    p.Installed (provisionAll reg bound) := by
  rw [boundKeys_eq hlanes] at hkeys
  have hbac : ∀ {lane : StorageLane} {a : Address}, .ok lane ∈ p.storageLanes →
      lane.Covers a → (provisionAll reg bound).Backed lane.kind a := by
    intro lane a hlane hcov
    rw [hlanes] at hlane
    obtain ⟨⟨l, bits⟩, hb, heq⟩ := List.mem_map.mp hlane
    cases heq
    exact backed_provisionAll hkeys hb hcov
  constructor
  · intro path t ht
    obtain ⟨lane, hlane, hkind, hcov⟩ := exists_covers_scalar ht
    exact hkind ▸ hbac hlane hcov
  · intro path field t capacity hslot ht index hlt
    obtain ⟨lane, hlane, hkind, hcov⟩ := exists_covers_lane (isOk_storageLanes hlanes) hslot ht hlt
    exact hkind ▸ hbac hlane hcov

end

lemma Installed.seeded (h : p.Installed reg) :
    p.Installed (p.replaceStringLiterals (p.seedMaxLengthHeaders reg)) :=
  ⟨fun ht => backed_seeded (h.scalar ht), fun hs ht _ hlt => backed_seeded (h.lane hs ht hlt)⟩

lemma Activates.installed (h : p.Activates) (hkeys : p.boundKeys.Nodup) (reg : Registry) :
    ∃ reg', p.activateStagedRuntime reg = .ok () reg' ∧ p.Installed reg' := by
  obtain ⟨bound, hlanes, hrun⟩ := h.exists_bound
  exact ⟨_, hrun reg, (installed_provisionAll hlanes hkeys reg).seeded⟩

variable (h : p.globalPathTypes.lookup path = some (.scalar .i32))
include h

lemma scalarTypeOf_i32 : p.scalarTypeOf path = some .i32 := by
  simp [scalarTypeOf, h, scalarType]

lemma header_mem_slots : .scalar path ∈ p.slots := by
  have htyped : p.isTypedPath path = false := by
    rw [isTypedPath, isSome_eq_false_iff, isNone_iff_eq_none]
    cases hd : p.typedCollectionDescriptors.lookup path with
    | none => rfl
    | some d =>
      have htype := (p.wellFormed.typed_apart _ (mem_of_lookup hd)).2.2
      simp [h, isTypedCollection] at htype
  apply List.mem_append_left
  refine List.mem_map.mpr ⟨⟨path, .scalar .i32, .i32⟩, ?_, rfl⟩
  simp only [stateLayout, List.mem_insertionSort, List.mem_append, List.mem_filterMap]
  refine .inl ⟨(path, .scalar .i32), mem_of_lookup h, ?_⟩
  simp [scalarLayout, htyped, isNamed, scalarStorageType]

omit h

lemma maxLengthHeaders_unique (h : header ∈ p.maxLengthHeaders) (h' : header' ∈ p.maxLengthHeaders)
    (hpath : header'.1 = header.1) : header'.2 = header.2 := by
  obtain ⟨entry, hentry, heq⟩ := List.mem_filterMap.mp h
  obtain ⟨entry', hentry', heq'⟩ := List.mem_filterMap.mp h'
  have hfst : entry'.1 = entry.1 := by
    split at heq <;> split at heq' <;> cases heq <;> cases heq' <;>
      exact List.append_cancel_right hpath
  obtain rfl := List.inj_on_of_nodup_map p.wellFormed.globals_nodup hentry' hentry hfst
  rw [heq] at heq'
  rw [some.inj heq']

lemma seed_slotKey (h : header ∈ p.maxLengthHeaders) :
    .scalar header.1 ∈ p.slots ∧
      p.slotKey (.scalar header.1) = some (.scalar .int (hashGlobalPath header.1)) := by
  have hi32 := p.wellFormed.max_length_global header h
  exact ⟨header_mem_slots hi32, by simp [slotKey, scalarTypeOf_i32 hi32, scalarAddress,
    ScalarType.storageKind, JitStorageKind.table, Address.slotKey]⟩

lemma load_seeded_header (hdist : p.SlotsDistinct) (h : header ∈ p.maxLengthHeaders)
    (hbac : reg.Backed .i32 (scalarAddress header.1 .i32)) :
    (p.seedMaxLengthHeaders reg).load (scalarAddress header.1 .i32) = header.2 % 2 ^ 32 := by
  generalize hadd : scalarAddress header.1 .i32 = a at hbac ⊢
  apply CellMemory.load_writeAll_of_mem (m := cells)
  · exact ⟨.i32, hbac, Nat.mod_lt _ (by decide)⟩
  · exact List.mem_map.mpr ⟨header, h, by rw [← hadd]; rfl⟩
  · intro w hw hsame
    obtain ⟨header', h', rfl⟩ := List.mem_map.mp hw
    obtain ⟨hslot, hkey⟩ := seed_slotKey h
    obtain ⟨hslot', hkey'⟩ := seed_slotKey h'
    have hhash := (Address.scalar.inj (hsame.trans hadd.symm)).2
    have heq := hdist _ hslot' _ hslot (by simp [hkey']) (by rw [hkey', hkey, hhash])
    rw [maxLengthHeaders_unique h h' (StateSlot.scalar.inj heq)]

lemma load_seeded_of_ne (hdist : p.SlotsDistinct) (hs : s ∈ p.slots)
    (hkey : p.slotKey s = some a.slotKey)
    (hne : ∀ header ∈ p.maxLengthHeaders, s ≠ .scalar header.1) (hbac : reg.Backed kind a) :
    (p.seedMaxLengthHeaders reg).load a = reg.load a := by
  apply CellMemory.load_writeAll_of_forall_ne (m := cells) (v := 0)
  · exact ⟨kind, hbac, Nat.two_pow_pos _⟩
  · intro w hw hadd
    obtain ⟨header, hhead, rfl⟩ := List.mem_map.mp hw
    subst hadd
    obtain ⟨hslot, hkey'⟩ := seed_slotKey hhead
    exact hne header hhead (hdist _ hs _ hslot (by simp [hkey]) (hkey.trans hkey'.symm))

end Program

end Stasis.Runtime
