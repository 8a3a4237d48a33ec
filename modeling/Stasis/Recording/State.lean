import Stasis.Jit.SourcePath
import Stasis.Recording.Document
import Stasis.Runtime.State

namespace Stasis.Recording

open Stasis.Runtime

def startsWith (text start : String) : Bool := start.toList.isPrefixOf text.toList

def containsText (text part : String) : Bool := decide (part.toList <:+: text.toList)

def stripSuffix (text suffix : String) : Option String :=
  if suffix.toList.isSuffixOf text.toList then
    some (String.ofList (text.toList.take (text.length - suffix.length)))
  else none

def trimCurrentDirectory : List Char → List Char
  | '.' :: '/' :: rest => trimCurrentDirectory rest
  | path => path

def isCommandBufferPath (path : String) : Bool :=
  startsWith path "gfx_frame_construction_" || startsWith path "gfx_sprite_writer_" ||
    startsWith path "gfx_cmd_" || startsWith path "render_cmd_" ||
    startsWith path "audio_cmd_" || startsWith path "cmd_" ||
    containsText path ".gfx_cmd_" || containsText path ".render_cmd_" ||
    containsText path ".audio_cmd_" || containsText path ".cmd_"

def isRecognizedGraphicsImplementationPath (path : String) : Bool :=
  let path := String.ofList (trimCurrentDirectory path.toList)
  let isGraphicsFile := fun root : String =>
    path == root ++ "/graphics.stasis" || path == root ++ "/asset_tasks.stasis" ||
      path == root ++ "/internal/gfx_cmd.stasis"
  isGraphicsFile "src/stdlib" || isGraphicsFile ".stasis_cache/toolchain/src/stdlib" ||
    ["vendor/stasis/stdlib", "vendor/stasis/src/stdlib"].any fun root =>
      isGraphicsFile root ||
        (((stripSuffix path "/graphics.stasis").or (stripSuffix path "/asset_tasks.stasis")).or
          (stripSuffix path "/internal/gfx_cmd.stasis")).any fun parent =>
            parent == root || ("/" ++ root).toList.isSuffixOf parent.toList

structure SourceTypeOrigin where
  name : String
  path : String

def isCanonicalHostOrPresentationOrigin (origin : SourceTypeOrigin) : Bool :=
  match origin.name with
  | "HostFrame" =>
    let normalized := String.ofList (Jit.SourcePath.replaceBackslash origin.path.toList)
    match stripSuffix normalized "host_frame.stasis" with
    | none => false
    | some parent => isRecognizedGraphicsImplementationPath (parent ++ "graphics.stasis")
  | "SpriteRunWriter" => isRecognizedGraphicsImplementationPath origin.path
  | _ => false

/-- A compiled program with the origins of its types, by type name. -/
structure ProgramSnapshot where
  program : Program
  sourceTypeOrigins : List (String × SourceTypeOrigin)

namespace ProgramSnapshot

variable (snapshot : ProgramSnapshot)

def hasHostOrPresentationType (path : Path) : Bool :=
  ((snapshot.program.globalPathTypes.lookup path).bind fun type =>
    snapshot.sourceTypeOrigins.lookup type.name).any isCanonicalHostOrPresentationOrigin

def isReplayHostOrPresentationPath (path : Path) : Bool :=
  let text := showPath path
  text == "host_i32" || text == "host_f32" || startsWith text "host_i32." ||
    startsWith text "host_f32." || startsWith text "host_req_" || isCommandBufferPath text ||
    -- the types of the path and of everything it lies below
    path.inits.tail.any snapshot.hasHostOrPresentationType

def layout : StateLayout := snapshot.program.stateLayout

def replayExcludedPaths : List Path :=
  (snapshot.layout.scalars.map (·.path) ++ snapshot.layout.collections.map (·.path) ++
    snapshot.layout.opaqueEntries.map Prod.fst).filter snapshot.isReplayHostOrPresentationPath

def isExcluded (path : Path) : Bool := snapshot.replayExcludedPaths.contains path

def validateSupportedState : Except String Unit :=
  let unsupported := (snapshot.layout.opaqueEntries.map Prod.fst).filter
    fun path => !snapshot.isExcluded path
  check (!unsupported.isEmpty)
    ("replay does not support opaque simulation state: " ++
      ", ".intercalate (unsupported.map showPath))

end ProgramSnapshot

def isDefault (value : JitScalarValue) : Bool := value.toBits == 0

def defaultValue (value : JitScalarValue) : JitScalarValue := .ofBits value.type 0

/-- The number of hexadecimal digits a scalar is written with. -/
def hexWidth : ScalarType → ℕ
  | .i32 | .f32 | .u32 => 8
  | .f64 => 16
  | .bool | .u8 => 2
  | .u16 => 4

def hexDigit (n : ℕ) : Char :=
  if n < 10 then Char.ofNat ('0'.toNat + n) else Char.ofNat ('a'.toNat + (n - 10))

def hexDigits : ℕ → ℕ → List Char
  | 0, _ => []
  | width + 1, n => hexDigits width (n / 16) ++ [hexDigit (n % 16)]

def encodeScalar (value : JitScalarValue) : EncodedScalar where
  typeName := value.type.name
  bits := String.ofList (hexDigits (hexWidth value.type) value.toBits)

def hexDigitValue (c : Char) : Option ℕ :=
  if '0' ≤ c ∧ c ≤ '9' then some (c.toNat - '0'.toNat)
  else if 'a' ≤ c ∧ c ≤ 'f' then some (c.toNat - 'a'.toNat + 10)
  else if 'A' ≤ c ∧ c ≤ 'F' then some (c.toNat - 'A'.toNat + 10)
  else none

def parseHexDigits (total : ℕ) : List Char → Except String ℕ
  | [] => .ok total
  | c :: rest =>
    match hexDigitValue c with
    | none => .error "invalid digit found in string"
    | some digit =>
      if 2 ^ 64 ≤ total * 16 + digit then .error "number too large to fit in target type"
      else parseHexDigits (total * 16 + digit) rest

def fromStrRadix16 (text : String) : Except String ℕ :=
  match text.toList with
  | [] => .error "cannot parse integer from empty string"
  | '+' :: c :: rest => parseHexDigits 0 (c :: rest)
  | digits => parseHexDigits 0 digits

def decodeScalar (value : EncodedScalar) (target : JitScalarValue) :
    Except String JitScalarValue :=
  if value.typeName ≠ target.type.name then
    .error ("replay state type mismatch: recorded " ++ value.typeName ++ ", active " ++
      target.type.name)
  else match fromStrRadix16 value.bits with
  | .error error => .error ("invalid replay scalar bits '" ++ value.bits ++ "': " ++ error)
  | .ok bits =>
    -- a `bool` has one bit, all others the width of their encoding
    if (if target.type = .bool then 2 else 16 ^ hexWidth target.type) ≤ bits then
      .error ("replay " ++ target.type.name ++ " bits are out of range")
    else .ok (.ofBits target.type bits)

/-- `to_le_bytes` of a number of the given number of bytes. -/
def leBytes : ℕ → ℕ → List UInt8
  | 0, _ => []
  | width + 1, n => UInt8.ofNat (n % 256) :: leBytes width (n / 256)

def hashTag : ScalarType → UInt8
  | .i32 => 1
  | .f32 => 2
  | .f64 => 3
  | .bool => 4
  | .u8 => 5
  | .u16 => 6
  | .u32 => 7

def hashValue (path : String) (value : JitScalarValue) : List UInt8 :=
  leBytes 8 path.utf8ByteSize ++ path.toUTF8.data.toList ++
    hashTag value.type :: leBytes value.type.byteWidth value.toBits

inductive StateCell
  | scalar (path : Path)
  | element (path field : Path) (index : ℕ)
  deriving DecidableEq

namespace StateCell

def path : StateCell → Path
  | scalar path | element path .. => path

def location : StateCell → StateLocation
  | scalar path => .scalar (showPath path)
  | element path field index => .collection (showPath path) (showPath field) index

def label : StateCell → String
  | scalar path => showPath path
  | element path field index => showPath path ++ "[" ++ toString index ++ "]." ++ showPath field

def read (program : Program) : StateCell → Registry → Except String JitScalarValue
  | scalar path => program.readGlobalScalar path
  | element path field index => program.readGlobalCollectionScalar path field index

def write (program : Program) : StateCell → JitScalarValue → RuntimeM Unit
  | scalar path => program.writeGlobalScalar path
  | element path field index => program.writeGlobalCollectionScalar path field index

end StateCell

def replayFieldElementCount (collection : StateCollectionLayout)
    (field : StateCollectionFieldLayout) : Except String ℕ :=
  if collection.fieldElementCount field < 2 ^ 31 then pure (collection.fieldElementCount field)
  else throw ("replay collection lane '" ++ showPath collection.path ++ "." ++
    showPath field.field ++ "' exceeds the supported element count")

namespace ProgramSnapshot

variable (snapshot : ProgramSnapshot)

def sortedScalars : List StateScalarLayout :=
  (snapshot.layout.scalars.insertionSort fun a b => showPath a.path ≤ showPath b.path).filter
    fun scalar => !snapshot.isExcluded scalar.path

def sortedCollections : List StateCollectionLayout :=
  (snapshot.layout.collections.insertionSort fun a b => showPath a.path ≤ showPath b.path).filter
    fun collection => !snapshot.isExcluded collection.path

def sortedFields (collection : StateCollectionLayout) : List StateCollectionFieldLayout :=
  collection.fields.insertionSort fun a b => showPath a.field ≤ showPath b.field

/-- The loops `capture_initial_state` and `simulation_state_hash` share. -/
def walkState {α : Type} (visit : StateCell → Except String (List α)) : Except String (List α) := do
  let scalars ← collect (fun scalar => visit (.scalar scalar.path)) snapshot.sortedScalars
  let elements ← collect (fun collection =>
    collect (fun field => do
      let elementCount ← replayFieldElementCount collection field
      collect (fun index => visit (.element collection.path field.field index))
        (List.range elementCount)) (sortedFields collection)) snapshot.sortedCollections
  pure (scalars ++ elements)

/-- Everything `simulation_state_hash` feeds to its hasher. -/
def simulationStateInput (reg : Registry) : Except String (List UInt8) := do
  snapshot.validateSupportedState
  let values ← snapshot.walkState fun cell =>
    (cell.read snapshot.program reg).map fun value => hashValue cell.label value
  pure ("stasis.simulation-state.v1\x00".toUTF8.data.toList ++ values)

def simulationStateHash (digest : List UInt8 → String) (reg : Registry) : Except String String :=
  (snapshot.simulationStateInput reg).map digest

def captureCell (reg : Registry) (cell : StateCell) : Except String (List StateEntry) :=
  (cell.read snapshot.program reg).map fun value =>
    if isDefault value then [] else [⟨cell.location, encodeScalar value⟩]

def captureInitialState (digest : List UInt8 → String) (reg : Registry) :
    Except String InitialState := do
  snapshot.validateSupportedState
  let values ← snapshot.walkState (snapshot.captureCell reg)
  let stateSha256 ← snapshot.simulationStateHash digest reg
  pure ⟨values, stateSha256⟩

/-- The value a recorded location stands for.  Paths are compared as they are written. -/
def resolveLocation : StateLocation → Except String StateCell
  | .scalar path =>
    match snapshot.layout.scalars.find? fun scalar =>
      showPath scalar.path = path ∧ snapshot.isExcluded scalar.path = false with
    | none => throw ("replay initial state has unknown scalar path '" ++ path ++ "'")
    | some scalar => pure (.scalar scalar.path)
  | .collection path field index => do
    let some collection := snapshot.layout.collections.find? fun collection =>
        showPath collection.path = path ∧ snapshot.isExcluded collection.path = false
      | throw ("replay initial state has unknown collection path '" ++ path ++ "'")
    let some lane := collection.fields.find? fun lane => showPath lane.field = field
      | throw ("replay initial state has unknown collection lane '" ++ path ++ "." ++ field ++ "'")
    let elementCount ← replayFieldElementCount collection lane
    if index < 0 ∨ (elementCount : ℤ) ≤ index then
      throw ("replay initial state collection index " ++ toString index ++ " is outside '" ++
        path ++ "." ++ field ++ "' count " ++ toString elementCount)
    else pure (.element collection.path lane.field index.toNat)

def decodeEntry (reg : Registry) (entry : StateEntry) :
    Except String (StateCell × JitScalarValue) := do
  let cell ← snapshot.resolveLocation entry.location
  let target ← cell.read snapshot.program reg
  let value ← decodeScalar entry.value target
  pure (cell, value)

def resetCell (cell : StateCell) : RuntimeM Unit := fun reg =>
  match cell.read snapshot.program reg with
  | .error e => .error e reg
  | .ok current => cell.write snapshot.program (defaultValue current) reg

def resetScalar (scalar : StateScalarLayout) : RuntimeM Unit :=
  if snapshot.isExcluded scalar.path then pure () else snapshot.resetCell (.scalar scalar.path)

def resetLane (collection : StateCollectionLayout) (field : StateCollectionFieldLayout) :
    RuntimeM Unit :=
  match replayFieldElementCount collection field with
  | .error e => throw e
  | .ok elementCount => (List.range elementCount).forM fun index =>
      snapshot.resetCell (.element collection.path field.field index)

def resetCollection (collection : StateCollectionLayout) : RuntimeM Unit :=
  if snapshot.isExcluded collection.path then pure ()
  else collection.fields.forM (snapshot.resetLane collection)

def restoreInitialState (state : InitialState) : RuntimeM Unit := fun reg =>
  match snapshot.validateSupportedState with
  | .error e => .error e reg
  | .ok _ =>
    match state.values.mapM (snapshot.decodeEntry reg) with
    | .error e => .error e reg
    | .ok decoded =>
      (do
        snapshot.layout.scalars.forM snapshot.resetScalar
        snapshot.layout.collections.forM snapshot.resetCollection
        decoded.forM fun entry => entry.1.write snapshot.program entry.2 : RuntimeM Unit) reg

end ProgramSnapshot
end Stasis.Recording
