import Stasis.DataFlow.Loops
import Stasis.Lib.Metered

namespace Stasis.Native.Lane

open Stasis.Runtime

def type : Lane → TypeKey
  | bool => .scalar .bool
  | i32 => .scalar .i32
  | u8 => .scalar .u8
  | u16 => .scalar .u16
  | u32 => .scalar .u32

@[simp] lemma ofType_type (lane : Lane) : ofType lane.type = some lane := by
  cases lane <;> rfl

lemma type_of_ofType (h : ofType key = some lane) : lane.type = key := by
  unfold ofType at h
  split at h <;> cases h <;> rfl

end Stasis.Native.Lane

namespace Stasis.DataFlow

open Stasis.Lang
open Stasis.Runtime (Path TypeKey showPath)
open Stasis.Native (Lane)

structure Value where
  type : TypeKey
  bits : BitVec 64
deriving DecidableEq

namespace Value

def lane (value : Value) : Option Lane := Lane.ofType value.type

def word (value : Value) : Word := value.bits.setWidth 32

def ofLane (lane : Lane) (word : Word) : Value := ⟨lane.type, word.setWidth 64⟩

@[simp] lemma lane_ofLane (lane : Lane) (word : Word) : (ofLane lane word).lane = some lane :=
  lane.ofType_type

@[simp] lemma word_ofLane (lane : Lane) (word : Word) : (ofLane lane word).word = word := by
  simp [ofLane, Value.word]

end Value

inductive Place
  | path (path : Path)
  | element (collection : Path) (index : Value) (suffix : Path) (nested : Option Value)

inductive Primitive
  | unary (op : ExprUnaryOp)
  | binary (op : ExprBinaryOp)
  | comparison (op : ComparisonOp)
  | convert (kind : ConversionKind)

abbrev Locals := String → Value

structure Machine (W : Type) where
  /-- What a variable holds before it is defined. -/
  undefined : Locals
  /-- Floats, texts and default values, in the type their context expects. -/
  literal : Option TypeKey → SimpleExpr → Value
  /-- A value as one of another type that has no integer lane. -/
  coerceBits : TypeKey → Value → BitVec 64
  primitive : Primitive → List Value → Option Value
  load : W → Locals → Place → Option Value
  store : W → Locals → Place → Value → Option W
  /-- Host functions, operations of typed collections and numeric intrinsics. -/
  call : Path → List Value → W → Option (Option Value × W)

structure LinkedProgram extends AnalysisContext where
  globalPathTypes : List (Path × TypeKey) := []
  elementTypes : List ((Path × Path) × TypeKey) := []
  constantValues : List (String × Value) := []
  collectionLens : List (Path × ℕ) := []
  /-- The parameters of host functions, typed operations and intrinsics. -/
  externalParams : List (Path × List TypeKey) := []

instance : Coe LinkedProgram AnalysisContext := ⟨LinkedProgram.toAnalysisContext⟩

inductive Stop
  | trap | fuel
deriving DecidableEq

/-- A call of a host function, or the start of a round of a loop with the bound that
the analysis gives the loop; rounds count from one. -/
inductive Event
  | host (name : String)
  | iteration (bound : Option ℕ) (round : ℕ)
deriving DecidableEq

/-- The frame of the running function, the storage and what happened so far, the last
event first. -/
structure State (W : Type) where
  locals : Locals
  world : W
  log : List Event

abbrev Run (W α : Type) := EStateM Stop (State W) α

inductive Signal
  | next
  | continue_
  | return_ (value : Option Value)

/-- The interpreter below: evaluation of expressions in the type their context
expects, of conditions, statements of a function and calls. -/
structure Interpreter (W : Type) where
  fuel : ℕ
  eval : Scope → Option TypeKey → SimpleExpr → Run W Value
  condition : Scope → SimpleCondition → Run W Bool
  exec : FnId → Scope → SimpleStmt → Run W Signal
  invoke : FnId → List Value → Run W (Option Value)

section Primitives

variable {W α : Type}

def record (event : Event) : Run W Unit := modify fun s => { s with log := event :: s.log }

def setLocal (name : String) (value : Value) : Run W Unit :=
  modify fun s => { s with locals := Function.update s.locals name value }

def orTrap : Option α → Run W α
  | some a => return a
  | none => throw .trap

end Primitives

section Operators

variable {W : Type} (machine : Machine W)

/-- A value in a type: integers are narrowed to their lane. -/
def coerce (type : TypeKey) (value : Value) : Value :=
  match Lane.ofType type with
  | some lane => .ofLane lane (lane.normalize value.word)
  | none => ⟨type, machine.coerceBits type value⟩

/-- A value in the type that is declared for it, where there is one. -/
def coerceTo : Option TypeKey → Value → Value
  | some type, value => coerce machine type value
  | none, value => value

/-- The lane that an integer literal takes from its context. -/
def integerContext (expected : Option TypeKey) : Option Lane :=
  (expected.bind Lane.ofType).filter Lane.isInteger

def intLiteral (expected : Option TypeKey) (value : ℤ) : Value :=
  .ofLane ((integerContext expected).getD .i32) (BitVec.ofInt 32 value)

def bitwiseValue (op : ExprBinaryOp) (lane : Lane) (a b : Word) : Word :=
  let count := if op.isShift then b &&& BitVec.ofNat 32 (lane.integerWidthBits.getD 32 - 1) else b
  lane.normalize (Native.bitwise op lane.isUnsigned a count)

def binaryValue (expected : Option TypeKey) (op : ExprBinaryOp) (a b : Value) : Option Value :=
  match a.lane, b.lane with
  | some l, some r =>
    if op.requiresIntegerOperands then some (.ofLane l (bitwiseValue op l a.word b.word))
    else
      let lane := Native.integerBinaryResultType (expected.bind Lane.ofType) l r
      (Native.arithmetic op lane.isUnsigned a.word b.word).map fun word =>
        .ofLane lane (lane.normalize word)
  | _, _ => machine.primitive (.binary op) [a, b]

def unaryValue (op : ExprUnaryOp) (a : Value) : Option Value :=
  match a.lane with
  | some lane =>
    some (.ofLane lane (lane.normalize (match op with
      | .negate => -a.word
      | .bitwiseNot => ~~~ a.word)))
  | none => machine.primitive (.unary op) [a]

def comparisonValue (op : ComparisonOp) (a b : Value) : Option Bool :=
  match a.lane, b.lane with
  | some l, some r => some (Native.compare op (l.isUnsigned || r.isUnsigned) a.word b.word)
  | _, _ => (machine.primitive (.comparison op) [a, b]).map fun value => value.word != 0

def assignedValue (op : AssignOp) (old value : Value) : Option Value :=
  match Native.assignOperator op with
  | none => some value
  | some op => binaryValue machine (some old.type) op old value

end Operators

/-- Which operand is evaluated first, the type it is expected in, and that of the other
from the lane of the first. -/
structure OperandPlan where
  rightFirst : Bool
  first : Option Lane
  second : Option Lane → Option Lane

/-- A literal on the left takes the lane of the operand on the right. -/
def arithmeticPlan (expected : Option TypeKey) (lhs : SimpleExpr) : OperandPlan :=
  let child := integerContext expected
  if child.isNone && lhs.isInt then ⟨true, none, fun r => r.bind Native.unsignedContext⟩
  else ⟨false, child, fun l => child <|> l.bind Native.unsignedContext⟩

def bitwisePlan (expected : Option TypeKey) (lhs : SimpleExpr) (op : ExprBinaryOp)
    (rhs : SimpleExpr) : OperandPlan :=
  let contextual := (integerContext expected).getD .i32
  let leftContextual := lhs.isContextualIntegerExpression
  let rightContextual := rhs.isContextualIntegerExpression
  if op.isShift then
    ⟨false, if leftContextual then some contextual else none,
      fun _ => if rightContextual then some .i32 else none⟩
  else if leftContextual && rightContextual then ⟨false, some contextual, fun _ => some contextual⟩
  else if leftContextual then ⟨true, none, fun r => r.filter Lane.isInteger⟩
  else ⟨false, none, fun l => if rightContextual then l.filter Lane.isInteger else none⟩

def operandPlan (expected : Option TypeKey) (lhs : SimpleExpr) (op : ExprBinaryOp)
    (rhs : SimpleExpr) : OperandPlan :=
  if op.requiresIntegerOperands then bitwisePlan expected lhs op rhs
  else arithmeticPlan expected lhs

def unaryContext (expected : Option TypeKey) (op : ExprUnaryOp) (operand : SimpleExpr) :
    Option TypeKey :=
  if operand.isContextualIntegerExpression then
    some ((integerContext expected).getD .i32).type
  else match op with
  | .negate => (integerContext expected).map Lane.type
  | .bitwiseNot => none

inductive Callee
  | function (id : FnId)
  | host (name : String)
  /-- An operation of a typed collection or a numeric intrinsic. -/
  | operation
  /-- No signature: such a call is not compiled. -/
  | missing

def callee (ctx : AnalysisContext) (call : CallExpr) : Callee :=
  let name := showPath call.target
  if ctx.isTypedCollectionOperation call.target call.args then .operation
  else match call.resolvedTarget with
  | some (.function id) => .function id
  | some (.external _) => if name ∈ ctx.externFunctions then .host name else .missing
  | none =>
    if builtinHostEffect call.target then .host name
    else if isPureIntrinsic call.target then .operation
    else .missing

def Scope.local? (scope : Scope) : Path → Option String
  | [name] => if name ∈ scope.values then some name else none
  | _ => none

section Level

variable {W : Type} (p : LinkedProgram) (machine : Machine W) (below : Interpreter W)

def paramTypes (call : CallExpr) : List TypeKey :=
  match callee p.toAnalysisContext call with
  | .function id => (p.functions[id]?.map fun function => function.params.map Prod.snd).getD []
  | _ => (p.externalParams.lookup call.target).getD []

def evalArgs (scope : Scope) : List TypeKey → List SimpleExpr → Run W (List Value)
  | _, [] => return []
  | types, arg :: args => do
    let value ← below.eval scope types.head? arg
    let values ← evalArgs scope types.tail args
    return value :: values

def callMachine (target : Path) (values : List Value) : Run W (Option Value) := do
  let s ← get
  let (value, world) ← orTrap (machine.call target values s.world)
  set { s with world }
  return value

def evalCall (scope : Scope) (call : CallExpr) : Run W (Option Value) := do
  let values ← evalArgs below scope (paramTypes p call) call.args
  match callee p.toAnalysisContext call with
  | .function id => below.invoke id values
  | .host name =>
    record (.host name)
    callMachine machine call.target values
  | .operation => callMachine machine call.target values
  | .missing => throw .trap

def loadPath (scope : Scope) (path : Path) : Run W Value := do
  let s ← get
  match scope.local? path with
  | some name => return s.locals name
  | none =>
    if path.headD "" ∈ scope.locals then orTrap (machine.load s.world s.locals (.path path))
    else match p.constantValues.lookup (showPath path) with
    | some value => return value
    | none => orTrap (machine.load s.world s.locals (.path path))

def evalOperands (scope : Scope) (plan : OperandPlan) (lhs rhs : SimpleExpr) :
    Run W (Value × Value) := do
  if plan.rightFirst then
    let b ← below.eval scope (plan.first.map Lane.type) rhs
    let a ← below.eval scope ((plan.second b.lane).map Lane.type) lhs
    return (a, b)
  else
    let a ← below.eval scope (plan.first.map Lane.type) lhs
    let b ← below.eval scope ((plan.second a.lane).map Lane.type) rhs
    return (a, b)

def evalIndex (scope : Scope) (index : SimpleExpr) : Run W Value :=
  below.eval scope (some (.scalar .i32)) index

def evalNestedIndex (scope : Scope) : Option SimpleExpr → Run W (Option Value)
  | some index => some <$> evalIndex below scope index
  | none => return none

def evalExpr (scope : Scope) (expected : Option TypeKey) (e : SimpleExpr) : Run W Value :=
  match e with
  | .int value => return intLiteral expected value
  | .bool value => return .ofLane .bool (Word.ofBool value)
  | .resolvedConstant _ type (.scalar bits _) =>
    match Lane.ofType type with
    | some lane => return .ofLane lane (lane.normalize (bits.setWidth 32))
    | none => return machine.literal expected e
  | .resolvedConstant _ _ (.string _) | .defaultValue _ | .float _ | .stringLiteral _ =>
    return machine.literal expected e
  | .condition condition => do
    return .ofLane .bool (Word.ofBool (← below.condition scope condition))
  | .identifier path => loadPath p machine scope path
  | .indexedPath collectionPath index suffix nestedIndex => do
    let i ← evalIndex below scope index
    let j ← evalNestedIndex below scope nestedIndex
    let s ← get
    orTrap (machine.load s.world s.locals (.element collectionPath i suffix j))
  | .call target args resolvedTarget => do
    orTrap (← evalCall p machine below scope ⟨target, args, resolvedTarget⟩)
  | .unary op operand => do
    orTrap (unaryValue machine op (← below.eval scope (unaryContext expected op operand) operand))
  | .binary lhs op rhs => do
    let (a, b) ← evalOperands below scope (operandPlan expected lhs op rhs) lhs rhs
    orTrap (binaryValue machine expected op a b)

def evalCondition (scope : Scope) : SimpleCondition → Run W Bool
  | .comparison lhs op rhs => do
    let (a, b) ← evalOperands below scope (arithmeticPlan none lhs) lhs rhs
    orTrap (comparisonValue machine op a b)
  | .expr expression => do
    return (← below.eval scope (some (.scalar .bool)) expression).word != 0
  | .and lhs rhs => do
    if ← below.condition scope lhs then below.condition scope rhs else return false
  | .or lhs rhs => do if ← below.condition scope lhs then return true else below.condition scope rhs
  | .not inner => do return !(← below.condition scope inner)

def targetType (scope : Scope) (locals : Locals) : AssignTarget → Option TypeKey
  | .local name =>
    if name ∈ scope.values then some (locals name).type else p.globalPathTypes.lookup [name]
  | .globalPath path => p.globalPathTypes.lookup path
  | .indexedPath collectionPath _ suffix _ => p.elementTypes.lookup (collectionPath, suffix)

/-- A compound assignment reads its target after the right-hand side has run. -/
def assignPlace (op : AssignOp) (value : Value) (place : Place) : Run W Unit := do
  let s ← get
  let old ← match op with
    | .set => pure value
    | _ => orTrap (machine.load s.world s.locals place)
  let new ← orTrap (assignedValue machine op old value)
  let world ← orTrap (machine.store s.world s.locals place new)
  set { s with world }

def assignTo (scope : Scope) (op : AssignOp) (value : Value) : AssignTarget → Run W Unit
  | .local name => do
    if name ∈ scope.values then
      let old := (← get).locals name
      let new ← orTrap (assignedValue machine op old value)
      setLocal name (coerce machine old.type new)
    else assignPlace machine op value (.path [name])
  | .globalPath path => assignPlace machine op value (.path path)
  | .indexedPath collectionPath index suffix nestedIndex => do
    let i ← evalIndex below scope index
    let j ← evalNestedIndex below scope nestedIndex
    assignPlace machine op value (.element collectionPath i suffix j)

/-- Statements in sequence; nothing after a `continue` or a `return` runs. -/
def execAll (functionId : FnId) (scope : Scope) : List SimpleStmt → Run W Signal
  | [] => return .next
  | statement :: rest => do
    match ← below.exec functionId scope statement with
    | .next => execAll functionId (scope.after statement) rest
    | signal => return signal

/-- One round of a loop, and how the loop ends where it does. -/
def loopRound (bound : Option ℕ) (condition : Run W Bool) (body : Run W Signal) (step : Run W Unit)
    (round : ℕ) : Run W (Option Signal) := do
  if ← condition then
    record (.iteration bound (round + 1))
    match ← body with
    | .return_ value => return some (.return_ value)
    | _ =>
      -- a `continue` goes on with the step
      step
      return none
  else return some .next

/-- The length of a collection: that of the type of a local, or the one it was laid
out with. -/
def foreachLen (scope : Scope) (typeOf : String → TypeKey) (collectionPath : Path) : Option ℕ :=
  match scope.local? collectionPath with
  | some name => fixedCollectionLen (typeOf name)
  | none => (p.collectionLens.lookup collectionPath).filter (· < 2 ^ 31)

def scopeAfterAll (scope : Scope) (statements : List SimpleStmt) : Scope :=
  statements.foldl Scope.after scope

def controlStatement (functionId : FnId) (scope : Scope) (statement : SimpleStmt) : Run W Unit := do
  if Native.isForControlStatement statement then
    let _ ← below.exec functionId scope statement
  else throw .trap

def execFor (functionId : FnId) (scope : Scope) (init : SimpleStmt) (condition : SimpleCondition)
    (step : SimpleStmt) (body : List SimpleStmt) : Run W Signal := do
  controlStatement below functionId scope init
  let loopScope := scope.after init
  repeatRounds .fuel
    (loopRound (staticForMaxIterations p.toAnalysisContext init condition step body)
      (below.condition loopScope condition)
      (execAll below functionId loopScope body)
      -- the step sees the locals of the body
      (controlStatement below functionId (scopeAfterAll loopScope body) step))
    below.fuel 0

def execForeach (functionId : FnId) (scope : Scope) (itemName : String) (indexName : Option String)
    (collectionPath : Path) (body : List SimpleStmt) : Run W Signal := do
  let index := Native.foreachIndexVar itemName indexName
  let locals := (← get).locals
  let len ← orTrap (foreachLen p scope (fun name => (locals name).type) collectionPath)
  setLocal index (.ofLane .i32 0)
  repeatRounds .fuel
    (loopRound (foreachMaxIterations p.toAnalysisContext functionId scope collectionPath)
      (do return Word.less false ((← get).locals index).word (BitVec.ofNat 32 len))
      (execAll below functionId
        (foreachScope p.toAnalysisContext scope itemName indexName collectionPath) body)
      (do setLocal index (.ofLane .i32 (((← get).locals index).word + 1))))
    below.fuel 0

def execStatement (functionId : FnId) (scope : Scope) : SimpleStmt → Run W Signal
  | .noop => return .next
  | .let_ name type expression => do
    let value ← below.eval scope type expression
    setLocal name (coerceTo machine type value)
    return .next
  | .assign target op expression => do
    let value ← below.eval scope (targetType p scope (← get).locals target) expression
    assignTo machine below scope op value target
    return .next
  | .convert target kind source => do
    let value ← below.eval scope none source
    let converted ← orTrap (machine.primitive (.convert kind) [value])
    assignTo machine below scope .set converted target
    return .next
  | .if_ condition thenStatements elseStatements => do
    if ← below.condition scope condition then execAll below functionId scope thenStatements
    else match elseStatements with
    | some statements => execAll below functionId scope statements
    | none => return .next
  | .for_ init condition step body => execFor p below functionId scope init condition step body
  | .foreach itemName indexName collectionPath body =>
    execForeach p below functionId scope itemName indexName collectionPath body
  | .expr (.call target args resolvedTarget) => do
    let _ ← evalCall p machine below scope ⟨target, args, resolvedTarget⟩
    return .next
  | .expr expression => do
    let _ ← below.eval scope none expression
    return .next
  | .continue_ => return .continue_
  | .return_ expression => do
    let result := (p.functions[functionId]?).bind FunctionMeta.result
    let value ← below.eval scope result expression
    return .return_ (some (coerceTo machine result value))
  | .returnVoid => return .return_ none

def enterParams : List (String × TypeKey) → List Value → Locals → Locals
  | (name, type) :: params, value :: values, locals =>
    enterParams params values (Function.update locals name (coerce machine type value))
  | _, _, locals => locals

def invokeFunction (id : FnId) (values : List Value) : Run W (Option Value) := do
  match p.functions[id]? with
  | none => throw .trap
  | some function =>
    if values.length ≠ function.params.length then throw .trap
    let caller := (← get).locals
    modify fun s => { s with
      locals := enterParams machine function.params values machine.undefined }
    let signal ← execAll below id function.scope function.statements
    modify fun s => { s with locals := caller }
    match signal with
    | .return_ value => return value
    | _ => return none

def Interpreter.next : Interpreter W where
  fuel := below.fuel + 1
  eval := evalExpr p machine below
  condition := evalCondition machine below
  exec := execStatement p machine below
  invoke := invokeFunction p machine below

end Level

def interpreter {W : Type} (p : LinkedProgram) (machine : Machine W) : ℕ → Interpreter W
  | 0 =>
    { fuel := 0
      eval := fun _ _ _ => throw .fuel
      condition := fun _ _ => throw .fuel
      exec := fun _ _ _ => throw .fuel
      invoke := fun _ _ => throw .fuel }
  | fuel + 1 => (interpreter p machine fuel).next p machine

def invocationLog {W : Type} (p : LinkedProgram) (machine : Machine W) (fuel : ℕ) (id : FnId)
    (values : List Value) (world : W) : List Event :=
  match (interpreter p machine fuel).invoke id values ⟨machine.undefined, world, []⟩ with
  | .ok _ s | .error _ s => s.log

end Stasis.DataFlow
