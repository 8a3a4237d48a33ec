import Stasis.Runtime.State

namespace Stasis.Migration

open Stasis.Runtime

inductive StateMigrationStepKind
  | copy | init | remove
deriving DecidableEq, Repr

structure StateMigrationStep where
  kind : StateMigrationStepKind
  path : Path
  field : Option Path
  typeName : ScalarType
  elements : ℕ
  startIndex : ℕ
  fromCapacity : Option ℕ
  toCapacity : Option ℕ
deriving DecidableEq

structure StateMigrationPreview where
  layoutChanged : Bool
  migrationSteps : List StateMigrationStep
  rejections : List String
deriving DecidableEq

namespace StateMigrationPreview

def stateLayoutCompatible (preview : StateMigrationPreview) : Bool :=
  preview.rejections = []

def rejection (preview : StateMigrationPreview) : String :=
  "hot reload rejected: " ++ "; ".intercalate preview.rejections ++
    ". Old code and state remain active."

end StateMigrationPreview

def scalarStep (kind : StateMigrationStepKind) (path : Path) (type : ScalarType) :
    StateMigrationStep where
  kind := kind
  path := path
  field := none
  typeName := type
  elements := 1
  startIndex := 0
  fromCapacity := none
  toCapacity := none

def collectionStep (kind : StateMigrationStepKind) (path field : Path) (type : ScalarType)
    (startIndex elements fromCapacity toCapacity : ℕ) : StateMigrationStep where
  kind := kind
  path := path
  field := some field
  typeName := type
  elements := elements
  startIndex := startIndex
  fromCapacity := some fromCapacity
  toCapacity := some toCapacity

structure CollectionFieldLayout where
  typeName : TypeKey
  storageType : ScalarType
  capacity : ℕ
deriving DecidableEq

/-- `collection_field_layouts`: one entry per lane, keyed by path and field. -/
def collectionFieldLayouts (layout : StateLayout) : List ((Path × Path) × CollectionFieldLayout) :=
  layout.collections.flatMap fun collection =>
    collection.fields.map fun field =>
      ((collection.path, field.field),
        ⟨field.typeName, field.storageType, collection.fieldElementCount field⟩)

def scalarTypes (layout : StateLayout) : List (Path × TypeKey × ScalarType) :=
  layout.scalars.map fun entry => (entry.path, entry.typeName, entry.storageType)

def displayCollectionPath (path field : Path) : String :=
  if field = [] then showPath path ++ "[]" else showPath path ++ "[]." ++ showPath field

def isMaxLengthHeader (path : Path) : Bool :=
  2 ≤ path.length ∧ path.getLast? = some "max_length"

def findCollection (layout : StateLayout) (path : Path) : Option StateCollectionLayout :=
  layout.collections.find? fun collection => collection.path = path

def nonMigratableDetail (incoming : StateCollectionLayout) :
    Option StateCollectionLayout → String
  | none => "new shape '" ++ incoming.elementShape ++ "'"
  | some active =>
    if active.elementShape = incoming.elementShape ∧ active.capacity = incoming.capacity then
      "shape '" ++ incoming.elementShape ++ "'"
    else "shape '" ++ active.elementShape ++ "' capacity " ++ toString active.capacity ++
      " -> shape '" ++ incoming.elementShape ++ "' capacity " ++ toString incoming.capacity

def incomingCollectionRejections (active incoming : StateLayout) : List String :=
  incoming.collections.filterMap fun collection =>
    let previous := findCollection active collection.path
    if collection.fullyMigratable ∧ previous.all StateCollectionLayout.fullyMigratable then none
    else some ("collection state path '" ++ showPath collection.path ++ "' has non-migratable " ++
      nonMigratableDetail collection previous)

def removedCollectionRejections (active incoming : StateLayout) : List String :=
  active.collections.filterMap fun collection =>
    if (findCollection incoming collection.path).isSome ∨ collection.fullyMigratable then none
    else some ("removed collection state path '" ++ showPath collection.path ++
      "' has non-migratable shape '" ++ collection.elementShape ++ "'")

def opaqueRejections (active incoming : StateLayout) : List String :=
  (incoming.opaqueEntries.filterMap fun (path, type) =>
      match active.opaqueEntries.lookup path with
      | some activeType =>
        if activeType = type then none
        else some ("state path '" ++ showPath path ++ "' changed non-migratable type '" ++
          activeType.name ++ "' -> '" ++ type.name ++ "'")
      | none => some ("new state path '" ++ showPath path ++ "' uses non-migratable type '" ++
          type.name ++ "'")) ++
    active.opaqueEntries.filterMap fun (path, type) =>
      if (incoming.opaqueEntries.lookup path).isSome then none
      else some ("removed state path '" ++ showPath path ++ "' uses non-migratable type '" ++
        type.name ++ "'")

/-- What happens to one incoming scalar: a step, or a rejection. -/
def incomingScalar (active : StateLayout) (entry : StateScalarLayout) :
    List StateMigrationStep × List String :=
  if isMaxLengthHeader entry.path then ([], [])
  else match (scalarTypes active).lookup entry.path with
  | some (type, storageType) =>
    if type = entry.typeName ∧ storageType = entry.storageType then
      ([scalarStep .copy entry.path entry.storageType], [])
    else ([], ["state path '" ++ showPath entry.path ++ "' changed type '" ++ type.name ++
      "' -> '" ++ entry.typeName.name ++ "'"])
  | none => ([scalarStep .init entry.path entry.storageType], [])

def removedScalarSteps (active incoming : StateLayout) : List StateMigrationStep :=
  active.scalars.filterMap fun entry =>
    if isMaxLengthHeader entry.path ∨ ((scalarTypes incoming).lookup entry.path).isSome then none
    else some (scalarStep .remove entry.path entry.storageType)

def incomingLane (active : StateLayout) (entry : (Path × Path) × CollectionFieldLayout) :
    List StateMigrationStep × List String :=
  let ((path, field), incoming) := entry
  match (collectionFieldLayouts active).lookup (path, field) with
  | some previous =>
    if previous.typeName = incoming.typeName ∧ previous.storageType = incoming.storageType then
      (collectionStep .copy path field incoming.storageType 0
          (min previous.capacity incoming.capacity) previous.capacity incoming.capacity ::
        if previous.capacity < incoming.capacity then
          [collectionStep .init path field incoming.storageType previous.capacity
            (incoming.capacity - previous.capacity) previous.capacity incoming.capacity]
        else [], [])
    else ([], ["collection state path '" ++ displayCollectionPath path field ++
      "' changed type '" ++ previous.typeName.name ++ "' -> '" ++ incoming.typeName.name ++ "'"])
  | none =>
    ([collectionStep .init path field incoming.storageType 0 incoming.capacity 0
      incoming.capacity], [])

def removedLaneSteps (active incoming : StateLayout) : List StateMigrationStep :=
  (collectionFieldLayouts active).filterMap fun ((path, field), previous) =>
    if ((collectionFieldLayouts incoming).lookup (path, field)).isSome then none
    else some (collectionStep .remove path field previous.storageType 0 previous.capacity
      previous.capacity 0)

def changedLayoutPlan (active incoming : StateLayout) (abiRejection : Option String) :
    StateMigrationPreview :=
  let scalars := incoming.scalars.map (incomingScalar active)
  let lanes := (collectionFieldLayouts incoming).map (incomingLane active)
  { layoutChanged := true
    migrationSteps := scalars.flatMap Prod.fst ++ removedScalarSteps active incoming ++
      lanes.flatMap Prod.fst ++ removedLaneSteps active incoming
    rejections := incomingCollectionRejections active incoming ++
      removedCollectionRejections active incoming ++ scalars.flatMap Prod.snd ++
      lanes.flatMap Prod.snd ++ opaqueRejections active incoming ++ abiRejection.toList }

/-- `plan_state_migration` for layouts with one entry per path, as the compiler
builds them; `abiRejection` is an extra reason to reject. -/
def planStateMigration (active incoming : StateLayout) (abiRejection : Option String) :
    StateMigrationPreview :=
  if active = incoming then
    { layoutChanged := false, migrationSteps := [], rejections := abiRejection.toList }
  else changedLayoutPlan active incoming abiRejection

end Stasis.Migration
