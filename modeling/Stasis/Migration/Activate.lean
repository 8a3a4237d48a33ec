import Stasis.Lib.Assoc
import Stasis.Migration.Plan

namespace Stasis.Migration

open Stasis.Runtime

def maxStateSnapshotBytes : ℕ := 8 * 1024 * 1024

def jitScalarValueSize : ℕ := 16

structure CapturedState where
  scalars : List (Path × JitScalarValue)
  collections : List ((Path × Path) × List JitScalarValue)
deriving DecidableEq

/-- A program's scalars, each with the program it is read through. -/
def scalarSources (p : Program) : List (Path × Program) :=
  p.stateLayout.scalars.map fun scalar => (scalar.path, p)

/-- A program's lanes, each with the program it is read through and its length. -/
def laneSources (p : Program) : List ((Path × Path) × Program × ℕ) :=
  p.stateLayout.collections.flatMap fun collection =>
    collection.fields.map fun field =>
      ((collection.path, field.field), p, collection.fieldElementCount field)

def readLane (p : Program) (path field : Path) (capacity : ℕ) (reg : Registry) :
    Except String (List JitScalarValue) :=
  (List.range capacity).mapM fun (index : ℕ) =>
    p.readGlobalCollectionScalar path field index reg

def captureRuntimeState (active candidate : Program) (maxBytes : ℕ) (reg : Registry) :
    Except String CapturedState := do
  let scalars := firstPerKey [] (scalarSources active ++ scalarSources candidate)
  let lanes := firstPerKey [] (laneSources active ++ laneSources candidate)
  let requiredBytes :=
    (scalars.length + (lanes.map fun lane => lane.2.2).sum) * jitScalarValueSize
  if maxBytes < requiredBytes then
    throw ("live runtime snapshot requires " ++ toString requiredBytes ++ " bytes; limit is " ++
      toString maxBytes ++ " bytes")
  let scalarValues ← scalars.mapM fun (path, source) =>
    (source.readGlobalScalar path reg).map fun value => (path, value)
  let laneValues ← lanes.mapM fun ((path, field), source, capacity) =>
    (readLane source path field capacity reg).map fun values => ((path, field), values)
  return { scalars := scalarValues, collections := laneValues }

def writeLane (p : Program) (path field : Path) (start : ℕ) (values : List JitScalarValue) :
    RuntimeM Unit :=
  (values.zipIdx start).forM fun (value, index) =>
    p.writeGlobalCollectionScalar path field index value

def restoreRuntimeState (active candidate : Program) (snapshot : CapturedState) :
    RuntimeM Unit := do
  snapshot.scalars.forM fun (path, value) =>
    (if active.hasGlobalPath path then active else candidate).writeGlobalScalar path value
  snapshot.collections.forM fun ((path, field), values) =>
    writeLane (if active.hasGlobalCollectionField path field then active else candidate) path field
      0 values

def rollbackRuntime (active : Option Program) (candidate : Program)
    (snapshot : Option CapturedState) : RuntimeM Unit := do
  if let some active := active then
    tryCatch active.activateStagedRuntime fun error =>
      throw ("failed restoring active JIT runtime after rejected candidate: " ++ error)
  if let some snapshot := snapshot then
    match active with
    | some active => restoreRuntimeState active candidate snapshot
    | none => throw "cannot restore runtime state without an active JIT generation"

def migrationTypeBytes : ScalarType → ℕ
  | .u8 => 1
  | .u16 => 2
  | .u32 | .i32 | .f32 | .bool => 4
  | .f64 => 8

/-- The kind `collection_capacity_operation` provisions; a text is grown as an
`i32` lane. -/
def capacityKind (p : Program) (path field : Path) (type : TypeKey) : Option JitStorageKind :=
  if field = [] ∧ (p.globalFixedTextCapacity path).isSome then some .i32
  else (p.laneScalarType path field type).map ScalarType.storageKind

def collectionCapacityKind (p : Program) (path field : Path) : Except String JitStorageKind :=
  match p.globalCollectionValueType path field with
  | .error e => .error e
  | .ok (type, _) =>
    match capacityKind p path field type with
    | some kind => .ok kind
    | none => .error ("global collection path '" ++ showPath path ++ "' field '" ++
        showPath field ++ "' is not resizable")

def ensureGlobalCollectionCapacity (p : Program) (path field : Path) (capacity : ℕ) :
    RuntimeM Unit := fun reg =>
  match collectionCapacityKind p path field with
  | .error e => .error e reg
  | .ok kind => .ok () (reg.provisionLane kind (Program.laneKey path field) capacity 0)

def growthFailure (path field : Path) (error : String) : String :=
  "failed preparing collection growth for '" ++ displayCollectionPath path field ++ "': " ++ error

/-- The lanes a plan grows, each with the size of one element. -/
def growingLanes (preview : StateMigrationPreview) : List ((Path × Path × ℕ) × ℕ) :=
  firstPerKey [] (preview.migrationSteps.filterMap fun step =>
    match step.field, step.fromCapacity, step.toCapacity with
    | some field, some fromCapacity, some toCapacity =>
      if toCapacity ≤ fromCapacity then none
      else some ((step.path, field, toCapacity), migrationTypeBytes step.typeName)
    | _, _, _ => none)

/-- Sum up the bytes of the grown lanes until the limit is passed. -/
def checkGrowthBytes : ℕ → List ((Path × Path × ℕ) × ℕ) → Except String Unit
  | _, [] => .ok ()
  | total, ((_, _, capacity), bytes) :: rest =>
    let total := total + capacity * bytes
    if maxStateSnapshotBytes < total then
      .error ("collection growth requires " ++ toString total ++ " bytes, exceeding the " ++
        toString maxStateSnapshotBytes ++ "-byte live limit")
    else checkGrowthBytes total rest

def preflightCollectionGrowth (candidate : Program) (preview : StateMigrationPreview) :
    Except String (List (Path × Path × ℕ)) := do
  checkGrowthBytes 0 (growingLanes preview)
  (growingLanes preview).mapM fun ((path, field, capacity), _) =>
    match collectionCapacityKind candidate path field with
    | .error e => .error (growthFailure path field e)
    | .ok _ => .ok (path, field, capacity)

def prepareCollectionGrowth (candidate : Program) (preview : StateMigrationPreview) :
    RuntimeM Unit := do
  match preflightCollectionGrowth candidate preview with
  | .error e => throw e
  | .ok lanes =>
    lanes.forM fun (path, field, capacity) =>
      tryCatch (ensureGlobalCollectionCapacity candidate path field capacity) fun error =>
        throw (growthFailure path field error)

def captureMigrationState (active : Program) (preview : StateMigrationPreview) (maxBytes : ℕ)
    (reg : Registry) : Except String CapturedState := do
  let copies := preview.migrationSteps.filter fun step => step.kind = .copy
  let requiredBytes := (copies.map StateMigrationStep.elements).sum * jitScalarValueSize
  if maxBytes < requiredBytes then
    throw ("state migration requires " ++ toString requiredBytes ++ " bytes, exceeding the " ++
      toString maxBytes ++ "-byte live limit")
  let scalars ← (copies.filter fun step => step.field = none).mapM fun step =>
    (active.readGlobalScalar step.path reg).map fun value => (step.path, value)
  let collections ← (copies.filterMap fun step => step.field.map fun field => (step, field)).mapM
    fun (step, field) =>
      ((List.range' step.startIndex step.elements).mapM fun (index : ℕ) =>
        active.readGlobalCollectionScalar step.path field index reg).map
        fun values => ((step.path, field), values)
  return { scalars, collections }

def jitScalarFromTypedDefault (default : TypedScalarDefault) : Except String JitScalarValue :=
  if 2 ^ (8 * default.storageKind.byteWidth) ≤ default.bits.toNat then
    .error ("state initialization default has invalid " ++
      toString default.storageKind.byteWidth ++ "-byte value bits")
  else if default.storageKind = .bool ∧ 1 < default.bits then
    .error "state initialization default has a noncanonical bool value"
  else .ok (.ofBits default.storageKind default.bits.toNat)

def defaultScalarValue (type : ScalarType) : JitScalarValue := .ofBits type 0

def migrationDefaultValue (incoming : Program) (path : Path) (lane : Option Path)
    (storageType : ScalarType) : Except String JitScalarValue :=
  let default := match lane with
    | some lane => incoming.initialization.collectionLaneDefaults.lookup (path, lane)
    | none => incoming.initialization.scalarDefaults.lookup path
  match default with
  | some default => jitScalarFromTypedDefault default
  | none => .ok (defaultScalarValue storageType)

def notCaptured (path : String) : String :=
  "migration copy source '" ++ path ++ "' was not captured"

def writeCopiedLane (incoming : Program) (path field : Path) (start elements : ℕ)
    (values : List JitScalarValue) : RuntimeM Unit :=
  if values.length ≠ elements then
    throw ("migration copy source '" ++ displayCollectionPath path field ++ "' expected " ++
      toString elements ++ " elements, captured " ++ toString values.length)
  else writeLane incoming path field start values

def applyStep (incoming : Program) (captured : CapturedState) (step : StateMigrationStep) :
    RuntimeM Unit :=
  match step.kind, step.field with
  | .copy, none =>
    match captured.scalars.lookup step.path with
    | none => throw (notCaptured (showPath step.path))
    | some value => incoming.writeGlobalScalar step.path value
  | .init, none =>
    match migrationDefaultValue incoming step.path none step.typeName with
    | .error e => throw e
    | .ok value => incoming.writeGlobalScalar step.path value
  | .copy, some field =>
    match captured.collections.lookup (step.path, field) with
    | none => throw (notCaptured (displayCollectionPath step.path field))
    | some values =>
      writeCopiedLane incoming step.path field step.startIndex step.elements values
  | .init, some field =>
    match migrationDefaultValue incoming step.path (some field) step.typeName with
    | .error e => throw e
    | .ok value =>
      writeLane incoming step.path field step.startIndex (List.replicate step.elements value)
  | .remove, _ => pure ()

def readI32Header (incoming : Program) (path : Path) (suffix : String) (reg : Registry) :
    Except String (Option ℤ) :=
  let header := path ++ [suffix]
  if incoming.globalPathTypes.lookup header ≠ some (.scalar .i32) then .ok none
  else match incoming.readGlobalScalar header reg with
  | .error e => .error e
  | .ok (.i32 value) => .ok (some value.toInt)
  | .ok _ => .error ("collection length path '" ++ showPath header ++ "' is not i32")

def writeI32Header (incoming : Program) (path : Path) (suffix : String) (value : ℤ) :
    RuntimeM Unit :=
  let header := path ++ [suffix]
  if incoming.globalPathTypes.lookup header = some (.scalar .i32) then
    incoming.writeGlobalScalar header (.i32 (.ofInt 32 value))
  else pure ()

def clampLength (capacity : ℕ) (length : ℤ) : ℤ := max 0 (min length capacity)

def clampHeader (incoming : Program) (path : Path) (capacity : ℕ) (suffix : String) :
    RuntimeM Unit := fun reg =>
  match readI32Header incoming path suffix reg with
  | .error e => .error e reg
  | .ok none => .ok () reg
  | .ok (some length) => writeI32Header incoming path suffix (clampLength capacity length) reg

def utf8Continuation (low high : UInt8) : List UInt8 → Bool
  | [] => false
  | byte :: _ => low ≤ byte ∧ byte ≤ high

/-- Length of the first character, if the bytes start with a complete one. -/
def utf8CharLen : List UInt8 → Option ℕ
  | [] => none
  | byte :: rest =>
    let tail := utf8Continuation 0x80 0xBF
    if byte < 0x80 then some 1
    else if 0xC2 ≤ byte ∧ byte ≤ 0xDF then if tail rest then some 2 else none
    else if 0xE0 ≤ byte ∧ byte ≤ 0xEF then
      let low := if byte = 0xE0 then 0xA0 else 0x80
      let high := if byte = 0xED then 0x9F else 0xBF
      if utf8Continuation low high rest ∧ tail (rest.drop 1) then some 3 else none
    else if 0xF0 ≤ byte ∧ byte ≤ 0xF4 then
      let low := if byte = 0xF0 then 0x90 else 0x80
      let high := if byte = 0xF4 then 0x8F else 0xBF
      if utf8Continuation low high rest ∧ tail (rest.drop 1) ∧ tail (rest.drop 2) then some 4
      else none
    else none

/-- Bytes and characters of the longest valid prefix, as `from_utf8` reports it;
the first argument bounds the number of characters. -/
def utf8ValidPrefix : ℕ → List UInt8 → ℕ × ℕ
  | 0, _ => (0, 0)
  | fuel + 1, bytes =>
    match utf8CharLen bytes with
    | none => (0, 0)
    | some len =>
      let (rest, chars) := utf8ValidPrefix fuel (bytes.drop len)
      (len + rest, chars + 1)

def readTextBytes (incoming : Program) (path : Path) (length : ℕ) (reg : Registry) :
    Except String (List UInt8) :=
  (List.range length).mapM fun (index : ℕ) =>
    match incoming.readGlobalCollectionScalar path [] index reg with
    | .error e => .error e
    | .ok (.u8 value) => .ok (UInt8.ofBitVec value)
    | .ok _ => .error ("UTF-8 collection '" ++ showPath path ++ "' payload is not u8")

def normalizeUtf8 (incoming : Program) (path : Path) (capacity : ℕ) : RuntimeM Unit := do
  let reg ← get
  let length ← ofExcept (readI32Header incoming path "length" reg)
  let byteLength ← ofExcept (readI32Header incoming path "byte_length" reg)
  let byteLength := clampLength capacity ((length.or byteLength).getD 0)
  let bytes ← ofExcept (readTextBytes incoming path byteLength.toNat reg)
  let (validBytes, charLength) := utf8ValidPrefix bytes.length bytes
  writeLane incoming path [] validBytes (List.replicate (bytes.length - validBytes) (.u8 0))
  writeI32Header incoming path "length" validBytes
  writeI32Header incoming path "byte_length" validBytes
  writeI32Header incoming path "char_length" charLength
where
  ofExcept {α : Type} : Except String α → RuntimeM α
    | .ok a => pure a
    | .error e => throw e

def isUtf8Fixed (incoming : Program) (path : Path) : Bool :=
  match incoming.globalPathTypes.lookup path with
  | some (.utf8Fixed _) => true
  | _ => false

def lengthSuffixes : List String := ["length", "byte_length", "char_length"]

def normalizeCollectionLengths (incoming : Program) (path : Path) (capacity : ℕ) :
    RuntimeM Unit :=
  if isUtf8Fixed incoming path then normalizeUtf8 incoming path capacity
  else lengthSuffixes.forM fun suffix => clampHeader incoming path capacity suffix

/-- The collections some lane of which loses elements, with the lane's new length. -/
def shrunken (preview : StateMigrationPreview) : List (Path × ℕ) :=
  (preview.migrationSteps.filterMap fun step =>
    match step.fromCapacity, step.toCapacity with
    | some fromCapacity, some toCapacity =>
      if toCapacity < fromCapacity then some (step.path, toCapacity) else none
    | _, _ => none).dedup

def applyMigrationState (incoming : Program) (preview : StateMigrationPreview)
    (captured : CapturedState) : RuntimeM Unit := do
  preview.migrationSteps.forM (applyStep incoming captured)
  (shrunken preview).forM fun (path, capacity) =>
    normalizeCollectionLengths incoming path capacity

def transaction {T : Type} (candidate : Program) (preview : StateMigrationPreview)
    (migrationState : Option CapturedState) (apply : Registry → T × Registry) : RuntimeM T := do
  if preview.layoutChanged then
    prepareCollectionGrowth candidate preview
  candidate.activateStagedRuntime
  if let some captured := migrationState then
    applyMigrationState candidate preview captured
  fun reg => .ok (apply reg).1 (apply reg).2

def captureSnapshot (active : Option Program) (candidate : Program) (needed : Bool)
    (reg : Registry) : Except String (Option CapturedState) :=
  match active with
  | some active =>
    if needed then (captureRuntimeState active candidate maxStateSnapshotBytes reg).map some
    else .ok none
  | none => .ok none

def captureForMigration (active : Option Program) (preview : StateMigrationPreview)
    (reg : Registry) : Except String (Option CapturedState) :=
  if preview.layoutChanged then
    match active with
    | some active => (captureMigrationState active preview maxStateSnapshotBytes reg).map some
    | none => .error "layout migration requires an active JIT candidate at the safe point"
  else .ok none

/-- `activate_candidate_transactionally`: `apply` is the commit hook, `accepted`
tells whether its result commits. -/
def activateCandidateTransactionally {T : Type} (active : Option Program) (candidate : Program)
    (preview : StateMigrationPreview) (hookMayMutateState : Bool)
    (apply : Registry → T × Registry) (accepted : T → Bool) : RuntimeM T := fun reg =>
  if preview.stateLayoutCompatible = false then .error preview.rejection reg
  else match preflightCollectionGrowth candidate preview with
  | .error e => .error e reg
  | .ok _ =>
    match captureSnapshot active candidate (preview.layoutChanged || hookMayMutateState) reg with
    | .error e => .error e reg
    | .ok runtimeState =>
      match captureForMigration active preview reg with
      | .error e => .error e reg
      | .ok migrationState =>
        match transaction candidate preview migrationState apply reg with
        | .ok result reg' =>
          if accepted result then .ok result reg'
          else match rollbackRuntime active candidate runtimeState reg' with
          | .ok _ reg'' => .ok result reg''
          | .error e reg'' => .error e reg''
        | .error e reg' =>
          match rollbackRuntime active candidate runtimeState reg' with
          | .ok _ reg'' => .error e reg''
          | .error e' reg'' => .error e' reg''

end Stasis.Migration
