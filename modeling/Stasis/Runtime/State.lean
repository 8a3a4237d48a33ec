import Stasis.Runtime.Program

namespace Stasis.Runtime

abbrev RuntimeM := EStateM String Registry

namespace Program

variable (p : Program)

def hasGlobalPath (path : Path) : Bool := (p.globalPathTypes.lookup path).isSome

def globalPathType (path : Path) : Except String TypeKey :=
  match p.globalPathTypes.lookup path with
  | some type => .ok type
  | none => .error ("global path '" ++ showPath path ++ "' was not found in compiler metadata")

/-- The scalar type a global path is read and written with. -/
def scalarType (path : Path) (type : TypeKey) : Option ScalarType :=
  match type with
  | .scalar t => some t
  | type => if p.isNamedScalarStatePath path type then some .i32 else none

/-- Narrow scalars live in the first element of a lane, all others in a slot. -/
def scalarAddress (path : Path) : ScalarType → Address
  | .u8 | .u16 => .element .int (hashGlobalPath path, 0) 0
  | t => .scalar t.storageKind.table (hashGlobalPath path)

def readGlobalScalar (path : Path) (reg : Registry) : Except String JitScalarValue :=
  match p.globalPathType path with
  | .error e => .error e
  | .ok type =>
    match p.scalarType path type with
    | some t => .ok (.ofBits t (reg.load (scalarAddress path t)))
    | none => .error ("global path '" ++ showPath path ++ "' is not a supported scalar")

def writeGlobalScalar (path : Path) (value : JitScalarValue) : RuntimeM Unit := fun reg =>
  match p.globalPathType path with
  | .error e => .error e reg
  | .ok type =>
    if p.scalarType path type = some value.type then
      .ok () (reg.store (scalarAddress path value.type) value.toBits)
    else
      .error ("global path '" ++ showPath path ++ "' does not accept " ++ value.type.name) reg

def collectionNotFound (path : Path) : String :=
  "global collection path '" ++ showPath path ++ "' was not found"

def fieldNotFound (path field : Path) : String :=
  "global collection path '" ++ showPath path ++ "' field '" ++ showPath field ++ "' was not found"

/-- `global_collection_value_type`: element type and element count of a lane. -/
def globalCollectionValueType (path field : Path) : Except String (TypeKey × ℕ) :=
  if p.isNestedFixedArrayCollectionPath path then
    .error ("global collection path '" ++ showPath path ++
      "' is a nested fixed-array lane, not an independent collection")
  else match p.collectionInfos.lookup path with
  | some info =>
    match if field = [] then info.elementType else info.fieldTypes.lookup field with
    | none => .error (fieldNotFound path field)
    | some type => .ok (type.laneTypeAndLen info.len)
  | none =>
    match p.typedCollectionDescriptors.lookup path with
    | some descriptor =>
      match descriptor.lanes.find? (fun lane => [lane.name] = field) with
      | some lane => .ok (.scalar lane.type, lane.elementCount)
      | none =>
        -- the program's collection metadata has no further lane of a typed collection
        match if field = [] then descriptor.elementType else none with
        | some type => .ok (type, descriptor.capacity)
        | none => .error (fieldNotFound path field)
    | none => .error (collectionNotFound path)

def hasGlobalCollectionField (path field : Path) : Bool :=
  (p.globalCollectionValueType path field).isOk

def laneScalarType (path field : Path) (type : TypeKey) : Option ScalarType :=
  if field = [] ∧ (p.globalFixedTextCapacity path).isSome then some .u8
  else match type with
  | .scalar t => some t
  | .named name => if name ∈ p.structNames then none else some .i32
  | .typedCollection name => if name ∈ p.structNames then none else some .i32
  | _ => none

def laneKey (path field : Path) : ArrayKey := (hashGlobalPath path, hashForeachFieldSuffix field)

def laneAddress (path field : Path) (index : ℕ) (t : ScalarType) : Address :=
  .element t.storageKind.table (laneKey path field) index

def outsideCapacity (path : Path) (index : ℤ) (capacity : ℕ) : String :=
  "global collection path '" ++ showPath path ++ "' index " ++ toString index ++
    " is outside capacity " ++ toString capacity

def readGlobalCollectionScalar (path field : Path) (index : ℤ) (reg : Registry) :
    Except String JitScalarValue :=
  match p.globalCollectionValueType path field with
  | .error e => .error e
  | .ok (type, capacity) =>
    if index < 0 ∨ (capacity : ℤ) ≤ index then .error (outsideCapacity path index capacity)
    else match p.laneScalarType path field type with
    | some t => .ok (.ofBits t (reg.load (laneAddress path field index.toNat t)))
    | none => .error ("global collection path '" ++ showPath path ++ "' field '" ++
        showPath field ++ "' is not a supported scalar")

def laneDoesNotAccept (path field : Path) (value : JitScalarValue) : String :=
  if field = [] ∧ (p.globalFixedTextCapacity path).isSome then
    "global text path '" ++ showPath path ++ "' does not accept " ++ value.type.name
  else "global collection path '" ++ showPath path ++ "' field '" ++ showPath field ++
    "' does not accept " ++ value.type.name

def writeGlobalCollectionScalar (path field : Path) (index : ℤ) (value : JitScalarValue) :
    RuntimeM Unit := fun reg =>
  match p.globalCollectionValueType path field with
  | .error e => .error e reg
  | .ok (type, capacity) =>
    if index < 0 ∨ (capacity : ℤ) ≤ index then .error (outsideCapacity path index capacity) reg
    else if p.laneScalarType path field type = some value.type then
      .ok () (reg.store (laneAddress path field index.toNat value.type) value.toBits)
    else .error (p.laneDoesNotAccept path field value) reg

end Program

structure StateScalarLayout where
  path : Path
  typeName : TypeKey
  storageType : ScalarType
deriving DecidableEq

structure StateCollectionFieldLayout where
  field : Path
  typeName : TypeKey
  storageType : ScalarType
  elementCount : Option ℕ
deriving DecidableEq

structure StateCollectionLayout where
  path : Path
  capacity : ℕ
  elementShape : String
  fullyMigratable : Bool
  fields : List StateCollectionFieldLayout
deriving DecidableEq

structure StateStructLayout where
  path : Path
  typeName : String
  fields : List (String × TypeKey)
deriving DecidableEq

/-- The layout of a program's state.  Its version is the layout itself: the
digest the source compares is taken to be injective. -/
structure StateLayout where
  scalars : List StateScalarLayout
  collections : List StateCollectionLayout
  structs : List StateStructLayout
  opaqueEntries : List (Path × TypeKey)
deriving DecidableEq

/-- `collection_field_element_count` at the collection's own capacity. -/
def StateCollectionLayout.fieldElementCount (collection : StateCollectionLayout)
    (field : StateCollectionFieldLayout) : ℕ :=
  field.elementCount.getD collection.capacity

namespace Program

variable (p : Program)

def isTypedPath (path : Path) : Bool := (p.typedCollectionDescriptors.lookup path).isSome

def scalarLayout (entry : Path × TypeKey) : Option StateScalarLayout :=
  if p.isTypedPath entry.1 then none
  else if entry.2.isNamed ∧ p.isNamedScalarStatePath entry.1 entry.2 = false then none
  else entry.2.scalarStorageType.map fun t => ⟨entry.1, entry.2, t⟩

def typedMetadataScalars (entry : Path × TypedCollectionDescriptor) : List StateScalarLayout :=
  (entry.2.lanes.filter fun lane => typedMetadataLane lane.name).map fun lane =>
    ⟨entry.1 ++ [lane.name], .scalar lane.type, lane.type⟩

def elementFieldLayout (type : TypeKey) : Option StateCollectionFieldLayout :=
  type.scalarStorageType.map fun t => ⟨[], type, t, none⟩

def collectionFieldLayout (len : ℕ) (entry : Path × TypeKey) :
    Option StateCollectionFieldLayout :=
  match entry.2.fixedArrayLane with
  | some (element, innerLen) =>
    element.scalarStorageType.map fun t => ⟨entry.1, element, t, some (len * innerLen)⟩
  | none => entry.2.scalarStorageType.map fun t => ⟨entry.1, entry.2, t, none⟩

def textLane (collection : StateCollectionLayout) : StateCollectionLayout :=
  if (p.globalFixedTextCapacity collection.path).isSome then
    { collection with
      fullyMigratable := true
      fields := collection.fields.map fun field =>
        if field.field = [] then { field with typeName := .scalar .u8, storageType := .u8 }
        else field }
  else collection

def collectionLayout (entry : Path × ForeachCollectionInfo) : Option StateCollectionLayout :=
  if p.isNestedFixedArrayCollectionPath entry.1 then none
  else some (p.textLane
    { path := entry.1
      capacity := entry.2.len
      elementShape := entry.2.elementShape
      fullyMigratable := entry.2.fullyMigratable
      fields := (entry.2.elementType.bind elementFieldLayout).toList ++
        entry.2.fieldTypes.filterMap (collectionFieldLayout entry.2.len) })

def typedCollectionLayout (entry : Path × TypedCollectionDescriptor) : StateCollectionLayout where
  path := entry.1
  capacity := entry.2.capacity
  elementShape := entry.2.shape
  fullyMigratable := false
  fields := (entry.2.lanes.filter fun lane => ¬typedMetadataLane lane.name).map fun lane =>
    ⟨[lane.name], .scalar lane.type, lane.type, some lane.elementCount⟩

def layoutCollections : List StateCollectionLayout :=
  (p.collectionInfos.filterMap p.collectionLayout ++
      p.typedCollectionDescriptors.map typedCollectionLayout).insertionSort
    fun a b => a.path ≤ b.path

def isOpaque (entry : Path × TypeKey) : Bool :=
  ¬p.isTypedPath entry.1 ∧ entry.2.scalarStorageType.isNone ∧
    ¬(p.layoutCollections.any fun collection => collection.path = entry.1)

def structLayout (entry : Path × TypeKey) : Option StateStructLayout :=
  if p.isTypedPath entry.1 ∨ entry.2.isNamed = false then none
  else some
    { path := entry.1
      typeName := entry.2.name
      fields := p.globalPathTypes.filterMap fun child =>
        match ProgramMetadata.below entry.1 child.1 with
        | some [field] => some (field, child.2)
        | _ => none }

def stateLayout : StateLayout where
  scalars := (p.globalPathTypes.filterMap p.scalarLayout ++
      p.typedCollectionDescriptors.flatMap typedMetadataScalars).insertionSort
    fun a b => a.path ≤ b.path
  collections := p.layoutCollections
  structs := p.globalPathTypes.filterMap p.structLayout
  opaqueEntries := p.globalPathTypes.filter p.isOpaque

end Program

/-- One slot or lane a program binds: `len` is absent for a scalar. -/
structure StorageLane where
  kind : JitStorageKind
  key : ArrayKey
  len : Option ℕ
  default : Option TypedScalarDefault
  label : String
deriving DecidableEq

def checkedInitializationDefaultBits (default : TypedScalarDefault) (expected : JitStorageKind)
    (lane : String) : Except String ℕ :=
  if default.storageKind.storageKind ≠ expected then
    .error ("state initialization default for " ++ lane ++ " uses storage kind " ++
      default.storageKind.debugName ++ ", but JIT backing requires " ++ expected.debugName)
  else if 2 ^ (8 * default.storageKind.byteWidth) ≤ default.bits.toNat then
    .error ("state initialization default for " ++ lane ++ " has invalid " ++
      toString default.storageKind.byteWidth ++ "-byte value bits")
  else if default.storageKind = .bool ∧ 1 < default.bits then
    .error ("state initialization default for " ++ lane ++ " has a noncanonical bool value")
  else .ok default.bits.toNat

namespace StorageLane

def defaultBits (lane : StorageLane) : Except String ℕ :=
  match lane.default with
  | some default => checkedInitializationDefaultBits default lane.kind lane.label
  | none => .ok 0

/-- `provision_direct_scalar_storage_with_default` and its array counterpart. -/
def provision (lane : StorageLane) (bits : ℕ) (reg : Registry) : Registry :=
  match lane.len with
  | some len => reg.provisionLane lane.kind lane.key len bits
  | none =>
    match lane.kind with
    | .u8 | .u16 => reg.provisionLane lane.kind lane.key 1 bits
    | _ => reg.provisionScalar lane.kind.table lane.key.1 bits

end StorageLane

namespace Program

variable (p : Program)

def scalarStorageLane (entry : Path × TypeKey) : Option (Except String StorageLane) :=
  if (p.collectionInfos.lookup entry.1).isSome then none
  else (p.scalarType entry.1 entry.2).map fun t => .ok
    { kind := t.storageKind
      key := (hashGlobalPath entry.1, 0)
      len := none
      default := p.initialization.scalarDefaults.lookup entry.1
      label := "scalar path '" ++ showPath entry.1 ++ "'" }

def collectionLane (path field : Path) (kind : JitStorageKind) (len : ℕ) : StorageLane where
  kind := kind
  key := laneKey path field
  len := some len
  default := p.initialization.collectionLaneDefaults.lookup (path, field)
  label := "array lane '" ++ showPath (path ++ field) ++ "'"

def elementStorageLane (path : Path) (len : ℕ) (type : TypeKey) : Except String StorageLane :=
  let kind := if (p.globalFixedTextCapacity path).isSome then some .u8 else type.arrayStorageKind
  match kind with
  | some kind => .ok (p.collectionLane path [] kind len)
  | none => .error ("unsupported direct storage element type " ++ type.name ++ " for '" ++
      showPath path ++ "'")

def fieldStorageLane (path : Path) (len : ℕ) (entry : Path × TypeKey) :
    Except String StorageLane :=
  let lane := entry.2.laneTypeAndLen len
  match lane.1.arrayStorageKind with
  | some kind => .ok (p.collectionLane path entry.1 kind lane.2)
  | none => .error ("unsupported direct storage field type " ++ entry.2.name ++ " for '" ++
      showPath (path ++ entry.1) ++ "'")

def collectionStorageLanes (entry : Path × ForeachCollectionInfo) :
    List (Except String StorageLane) :=
  if p.isNestedFixedArrayCollectionPath entry.1 then []
  else (entry.2.elementType.map (p.elementStorageLane entry.1 entry.2.len)).toList ++
    entry.2.fieldTypes.map (p.fieldStorageLane entry.1 entry.2.len)

def typedStorageLane (path : Path) (lane : TypedLane) : StorageLane :=
  let metadata := typedMetadataLane lane.name
  { kind := lane.type.storageKind
    key := if metadata then (hashGlobalPath (path ++ [lane.name]), 0) else laneKey path [lane.name]
    len := if metadata then none else some lane.elementCount
    default := p.initialization.collectionLaneDefaults.lookup (path, [lane.name])
    label := "typed collection lane '" ++ showPath (path ++ [lane.name]) ++ "'" }

/-- The lanes `build_direct_storage_bindings` walks through, in its order. -/
def storageLanes : List (Except String StorageLane) :=
  p.globalPathTypes.filterMap p.scalarStorageLane ++
    (p.collectionInfos.flatMap p.collectionStorageLanes ++
      p.typedCollectionDescriptors.flatMap fun entry =>
        entry.2.lanes.map fun lane => .ok (p.typedStorageLane entry.1 lane))

end Program

def slotCollision (lane : StorageLane) (previous : String) : String :=
  "JIT direct storage slot collision for (" ++ lane.kind.debugName ++ ", " ++
    toString lane.key.1.toInt32 ++ ", " ++ toString lane.key.2.toInt32 ++
    "): semantic lanes '" ++ previous ++ "' and '" ++ lane.label ++ "'"

/-- Bind lanes one after the other: a slot is claimed once, then provisioned. -/
def bindStorage : List ((JitStorageKind × ArrayKey) × String) →
    List (Except String StorageLane) → RuntimeM Unit
  | _, [] => pure ()
  | _, .error e :: _ => throw e
  | claimed, .ok lane :: rest =>
    match claimed.lookup (lane.kind, lane.key) with
    | some previous => throw (slotCollision lane previous)
    | none =>
      match lane.defaultBits with
      | .error e => throw e
      | .ok bits => do
        modify (lane.provision bits)
        bindStorage (((lane.kind, lane.key), lane.label) :: claimed) rest

namespace Program

variable (p : Program)

def seedMaxLengthHeaders (reg : Registry) : Registry :=
  Registry.cells.writeAll reg (p.maxLengthHeaders.map fun header =>
    (.scalar .int (hashGlobalPath header.1), header.2 % 2 ^ 32))

def replaceStringLiterals (reg : Registry) : Registry :=
  { reg with literals := fun hash => p.stringLiterals.lookup hash }

def activateStagedRuntime : RuntimeM Unit := do
  bindStorage [] p.storageLanes
  modify p.seedMaxLengthHeaders
  modify p.replaceStringLiterals

end Program

end Stasis.Runtime
