import Stasis.Runtime.Registry

namespace Stasis.Runtime

inductive ScalarType
  | i32 | f32 | f64 | bool | u8 | u16 | u32
deriving DecidableEq, Repr

namespace ScalarType

def name : ScalarType → String
  | i32 => "i32"
  | f32 => "f32"
  | f64 => "f64"
  | bool => "bool"
  | u8 => "u8"
  | u16 => "u16"
  | u32 => "u32"

def debugName : ScalarType → String
  | i32 => "I32"
  | f32 => "F32"
  | f64 => "F64"
  | bool => "Bool"
  | u8 => "U8"
  | u16 => "U16"
  | u32 => "U32"

def storageKind : ScalarType → JitStorageKind
  | i32 | bool | u32 => .i32
  | f32 => .f32
  | f64 => .f64
  | u8 => .u8
  | u16 => .u16

def byteWidth : ScalarType → ℕ
  | bool | u8 => 1
  | u16 => 2
  | i32 | u32 | f32 => 4
  | f64 => 8

end ScalarType

inductive JitScalarValue
  | i32 (value : BitVec 32)
  | f32 (bits : BitVec 32)
  | f64 (bits : BitVec 64)
  | bool (value : Bool)
  | u8 (value : BitVec 8)
  | u16 (value : BitVec 16)
  | u32 (value : BitVec 32)
deriving DecidableEq, Repr

namespace JitScalarValue

def type : JitScalarValue → ScalarType
  | i32 _ => .i32
  | f32 _ => .f32
  | f64 _ => .f64
  | bool _ => .bool
  | u8 _ => .u8
  | u16 _ => .u16
  | u32 _ => .u32

def toBits : JitScalarValue → ℕ
  | i32 v | f32 v | f64 v | u8 v | u16 v | u32 v => v.toNat
  | bool b => b.toNat

def ofBits : ScalarType → ℕ → JitScalarValue
  | .i32, n => i32 (.ofNat 32 n)
  | .f32, n => f32 (.ofNat 32 n)
  | .f64, n => f64 (.ofNat 64 n)
  | .bool, n => bool (n != 0)
  | .u8, n => u8 (.ofNat 8 n)
  | .u16, n => u16 (.ofNat 16 n)
  | .u32, n => u32 (.ofNat 32 n)

@[simp] lemma type_ofBits (t : ScalarType) (n : ℕ) : (ofBits t n).type = t := by
  cases t <;> rfl

lemma ofBits_toBits (v : JitScalarValue) : ofBits v.type v.toBits = v := by
  cases v with
  | bool b => cases b <;> rfl
  | _ v => simp [type, toBits, ofBits]

lemma toBits_lt (v : JitScalarValue) : v.toBits < 2 ^ v.type.storageKind.bits := by
  cases v with
  | bool b => cases b <;> decide
  | _ v => exact v.isLt

end JitScalarValue

inductive TypeKey
  | scalar (t : ScalarType)
  | named (name : String)
  /-- A compiler-owned collection such as `queue<i32, 8>`. -/
  | typedCollection (name : String)
  | arrayFixed (element : TypeKey) (maxLen : ℕ)
  | arrayView (element : TypeKey)
  | asciiFixed (maxLen : ℕ)
  | asciiView
  | utf8Fixed (maxLen : ℕ)
  | utf8View
deriving DecidableEq, Repr

namespace TypeKey

def name : TypeKey → String
  | scalar t => t.name
  | named n | typedCollection n => n
  | arrayFixed element n => element.name ++ "[" ++ toString n ++ "]"
  | arrayView element => element.name ++ "[]"
  | asciiFixed n => "ascii[" ++ toString n ++ "]"
  | asciiView => "ascii[]"
  | utf8Fixed n => "utf8[" ++ toString n ++ "]"
  | utf8View => "utf8[]"

def fixedArrayLane : TypeKey → Option (TypeKey × ℕ)
  | arrayFixed element n => some (element, n)
  | _ => none

/-- Element type and length of the lane that holds `len` values of a type; a
fixed array inside an element is flattened into its lane. -/
def laneTypeAndLen (type : TypeKey) (len : ℕ) : TypeKey × ℕ :=
  match type.fixedArrayLane with
  | some (element, innerLen) => (element, len * innerLen)
  | none => (type, len)

def fixedText : TypeKey → Option ℕ
  | asciiFixed n | utf8Fixed n => some n
  | _ => none

def isTypedCollection : TypeKey → Bool
  | typedCollection _ => true
  | _ => false

def isNamed : TypeKey → Bool
  | named _ | typedCollection _ => true
  | _ => false

/-- `scalar_storage_type_name`: named types are stored as `i32`. -/
def scalarStorageType : TypeKey → Option ScalarType
  | scalar t => some t
  | named _ | typedCollection _ => some .i32
  | _ => none

/-- `array_storage_kind`: everything passed as an `i32` is stored as one. -/
def arrayStorageKind : TypeKey → Option JitStorageKind
  | scalar t => some t.storageKind
  | typedCollection _ => none
  | _ => some .i32

end TypeKey

structure ForeachCollectionInfo where
  len : ℕ
  elementType : Option TypeKey
  fieldTypes : List (Path × TypeKey)
  elementShape : String
  fullyMigratable : Bool
deriving DecidableEq

structure TypedLane where
  name : String
  type : ScalarType
  elementCount : ℕ
deriving DecidableEq

structure TypedCollectionDescriptor where
  capacity : ℕ
  elementType : Option TypeKey
  /-- The layout metadata spelling of the descriptor. -/
  shape : String
  lanes : List TypedLane
deriving DecidableEq

/-- `typed_metadata_lane`: lanes of a typed collection that are single scalars. -/
def typedMetadataLane (name : String) : Bool :=
  name = "count" ∨ name = "head" ∨ name = "next_order"

structure TypedScalarDefault where
  storageKind : ScalarType
  bits : UInt64
deriving DecidableEq

structure StateInitializationPlan where
  scalarDefaults : List (Path × TypedScalarDefault)
  collectionLaneDefaults : List ((Path × Path) × TypedScalarDefault)
deriving DecidableEq

structure ProgramMetadata where
  globalPathTypes : List (Path × TypeKey)
  collectionInfos : List (Path × ForeachCollectionInfo)
  typedCollectionDescriptors : List (Path × TypedCollectionDescriptor)
  /-- Names in `named_struct_field_types`. -/
  structNames : List String
  initialization : StateInitializationPlan
  stringLiterals : List (UInt32 × List UInt8)
deriving DecidableEq

namespace ProgramMetadata

variable (p : ProgramMetadata)

def globalFixedTextCapacity (path : Path) : Option ℕ :=
  (p.globalPathTypes.lookup path).bind TypeKey.fixedText

def below (root path : Path) : Option Path :=
  if root <+: path ∧ root.length < path.length then some (path.drop root.length) else none

def isNestedFixedArrayCollectionPath (path : Path) : Bool :=
  p.collectionInfos.any fun entry =>
    ((below entry.1 path).bind fun suffix => entry.2.fieldTypes.lookup suffix).any
      fun type => type.fixedArrayLane.isSome

/-- A named type counts as a scalar when nothing lies below its path. -/
def isNamedScalarStatePath (path : Path) : TypeKey → Bool
  | .named _ => p.globalPathTypes.all fun entry => (below path entry.1).isNone
  | _ => false

/-- The `max_length` headers of the fixed arrays and texts among the globals. -/
def maxLengthHeaders : List (Path × ℕ) :=
  p.globalPathTypes.filterMap fun entry =>
    match entry.2 with
    | .arrayFixed _ n | .asciiFixed n | .utf8Fixed n => some (entry.1 ++ ["max_length"], n)
    | _ => none

/-- What the analysis guarantees of the maps it builds: they are maps, a fixed
text is also a collection of its bytes, no collection path is a scalar, every
fixed array or text has its `max_length` header, and typed collections are kept
apart from the others. -/
structure WellFormed : Prop where
  globals_nodup : (p.globalPathTypes.map Prod.fst).Nodup
  globals_nonempty : ∀ entry ∈ p.globalPathTypes, entry.1 ≠ []
  collections_nodup : (p.collectionInfos.map Prod.fst).Nodup
  fields_nodup : ∀ entry ∈ p.collectionInfos, (entry.2.fieldTypes.map Prod.fst).Nodup
  fields_nonempty : ∀ entry ∈ p.collectionInfos, ∀ field ∈ entry.2.fieldTypes, field.1 ≠ []
  typed_nodup : (p.typedCollectionDescriptors.map Prod.fst).Nodup
  typed_lanes_nodup : ∀ entry ∈ p.typedCollectionDescriptors,
    (entry.2.lanes.map TypedLane.name).Nodup
  typed_apart : ∀ entry ∈ p.typedCollectionDescriptors,
    p.isNestedFixedArrayCollectionPath entry.1 = false ∧ p.collectionInfos.lookup entry.1 = none ∧
      (p.globalPathTypes.lookup entry.1).any TypeKey.isTypedCollection = true
  text_collection : ∀ entry ∈ p.globalPathTypes, ∀ n ∈ entry.2.fixedText,
    p.isNestedFixedArrayCollectionPath entry.1 = false ∧
      ∃ info ∈ p.collectionInfos.lookup entry.1,
        info.elementType = some (.scalar .u8) ∧ info.len = n
  collection_not_scalar : ∀ entry ∈ p.collectionInfos, ∀ type ∈ p.globalPathTypes.lookup entry.1,
    type.fixedArrayLane.isSome ∨ type.fixedText.isSome
  max_length_global : ∀ header ∈ p.maxLengthHeaders,
    p.globalPathTypes.lookup header.1 = some (.scalar .i32)

end ProgramMetadata

structure Program extends ProgramMetadata where
  wellFormed : toProgramMetadata.WellFormed

end Stasis.Runtime
