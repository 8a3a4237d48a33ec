import Stasis.DataFlow.Aggregate
import Stasis.Native.Code

namespace Stasis.DataFlow

open Stasis.Lang Stasis.Runtime

structure FunctionMeta where
  params : List (String × TypeKey)
  result : Option TypeKey
  statements : List SimpleStmt

structure AnalysisContext where
  functions : List FunctionMeta
  globals : List String := []
  constants : List (String × ℤ) := []
  externFunctions : List String := []
  internalFunctionTargets : List (String × List FnId) := []
  collectionCapacities : List (String × ℕ) := []
  /-- Whether a call is an operation of a typed collection. -/
  isTypedCollectionOperation : Path → List SimpleExpr → Bool := fun _ _ => false

/-- The locals, the items of the foreach loops around, and the state paths that
view parameters and items stand for. -/
structure Scope where
  values : List String
  items : List String := []
  aliases : List (String × EffectPath) := []

namespace Scope

def locals (scope : Scope) : List String := scope.values ++ scope.items

def insert (scope : Scope) (name : String) : Scope :=
  { scope with values := name :: scope.values }

end Scope

def isViewType : TypeKey → Bool
  | .scalar _ => false
  | _ => true

def fixedCollectionLen : TypeKey → Option ℕ
  | .arrayFixed _ n | .asciiFixed n | .utf8Fixed n => if n < 2 ^ 31 then some n else none
  | _ => none

def FunctionMeta.scope (function : FunctionMeta) : Scope where
  values := function.params.map Prod.fst
  aliases := function.params.zipIdx.filterMap fun (param, index) =>
    if isViewType param.2 then some (param.1, .parameter ⟨index, ""⟩) else none

def Scope.after (scope : Scope) : SimpleStmt → Scope
  | .let_ name _ _ => scope.insert name
  | _ => scope

def normalizeStatePath (ctx : AnalysisContext) (scope : Scope) : Path → Option EffectPath
  | [] => none
  | root :: fields =>
    match scope.aliases.lookup root with
    | some base => some (base.append (String.join (fields.map ("." ++ ·))))
    | none =>
      if root ∈ scope.locals ∨ (ctx.constants.lookup root).isSome then none
      else if root ∈ ctx.globals then some (.global (showPath (root :: fields)))
      else none

def indexedStatePath (path : EffectPath) (suffix : Path) : EffectPath :=
  path.append ("[*]" ++ String.join (suffix.map ("." ++ ·)))

def expressionEffectPath (ctx : AnalysisContext) (scope : Scope) : SimpleExpr → Option EffectPath
  | .identifier path => normalizeStatePath ctx scope path
  | .indexedPath collectionPath _ suffix _ =>
    (normalizeStatePath ctx scope collectionPath).map (indexedStatePath · suffix)
  | _ => none

def evalInteger (ctx : AnalysisContext) : SimpleExpr → Option ℤ
  | .identifier path => ctx.constants.lookup (showPath path)
  | expression => expression.evalConstI64

def statementsWriteLocal (statements : List SimpleStmt) (name : String) : Bool :=
  Native.statementsAssignLocal name statements

/-- A `for` that counts: its variable, where it starts, the comparison that keeps
it going and what a round adds. -/
structure ForHeader where
  counter : String
  start : SimpleExpr
  op : ComparisonOp
  stop : SimpleExpr
  increment : SimpleExpr

def forStart : SimpleStmt → Option (String × SimpleExpr)
  | .let_ name _ expression => some (name, expression)
  | .assign (.local name) .set expression => some (name, expression)
  | _ => none

def forEnd (counter : String) : SimpleCondition → Option (ComparisonOp × SimpleExpr)
  | .comparison (.identifier [name]) op rhs => if name = counter then some (op, rhs) else none
  | _ => none

def forIncrement (counter : String) : SimpleStmt → Option SimpleExpr
  | .assign (.local name) .add expression => if name = counter then some expression else none
  | .assign (.local name) .set (.binary (.identifier [value]) .add rhs) =>
    if name = counter ∧ value = counter then some rhs else none
  | _ => none

def forHeader (init : SimpleStmt) (condition : SimpleCondition) (step : SimpleStmt) :
    Option ForHeader := do
  let (counter, start) ← forStart init
  let (op, stop) ← forEnd counter condition
  let increment ← forIncrement counter step
  return { counter, start, op, stop, increment }

def saturatingI64 (value : ℤ) : ℤ := max (-(2 ^ 63)) (min value (2 ^ 63 - 1))

/-- The number of rounds from the 64-bit values of start, end and increment. -/
def roundsBetween (op : ComparisonOp) (start stop increment : ℤ) : Option ℕ :=
  if increment ≤ 0 then none
  else
    let distance := match op with
      | .lt => some (saturatingI64 (stop - start))
      | .le => some (saturatingI64 (saturatingI64 (stop - start) + 1))
      | _ => none
    distance.map fun distance =>
      if distance ≤ 0 then 0
      else (distance.toNat + increment.toNat - 1) / increment.toNat

def staticForMaxIterations (ctx : AnalysisContext) (init : SimpleStmt)
    (condition : SimpleCondition) (step : SimpleStmt) (body : List SimpleStmt) : Option ℕ := do
  let header ← forHeader init condition step
  let start ← evalInteger ctx header.start
  if statementsWriteLocal body header.counter then none
  let stop ← evalInteger ctx header.stop
  let increment ← evalInteger ctx header.increment
  roundsBetween header.op start stop increment

/-- The capacity of the collection that a foreach runs over. -/
def foreachMaxIterations (ctx : AnalysisContext) (functionId : FnId) (scope : Scope)
    (collectionPath : Path) : Option ℕ :=
  match (normalizeStatePath ctx scope collectionPath).getD (.global (showPath collectionPath)) with
  | .global normalized => ctx.collectionCapacities.lookup normalized
  | .parameter symbolic => do
    let function ← ctx.functions[functionId]?
    let param ← function.params[symbolic.index]?
    fixedCollectionLen param.2

def foreachScope (ctx : AnalysisContext) (scope : Scope) (itemName : String)
    (indexName : Option String) (collectionPath : Path) : Scope :=
  { values := Native.foreachIndexVar itemName indexName :: scope.values
    items := itemName :: scope.items
    aliases :=
      match normalizeStatePath ctx scope collectionPath with
      | some normalized => (itemName, indexedStatePath normalized []) :: scope.aliases
      | none => scope.aliases }

structure CallExpr where
  target : Path
  args : List SimpleExpr
  resolvedTarget : Option ResolvedCallTarget

mutual

/-- The calls in an expression, a call before those in its arguments. -/
def callsInExpr : SimpleExpr → List CallExpr
  | .defaultValue _ | .int _ | .float _ | .bool _ | .stringLiteral _ | .resolvedConstant _ _ _
  | .identifier _ => []
  | .condition condition => callsInCondition condition
  | .indexedPath _ index _ nestedIndex => callsInExpr index ++ callsInNestedIndex nestedIndex
  | .call target args resolvedTarget => ⟨target, args, resolvedTarget⟩ :: callsInArgs args
  | .unary _ operand => callsInExpr operand
  | .binary lhs _ rhs => callsInExpr lhs ++ callsInExpr rhs

def callsInNestedIndex : Option SimpleExpr → List CallExpr
  | some index => callsInExpr index
  | none => []

def callsInArgs : List SimpleExpr → List CallExpr
  | [] => []
  | arg :: args => callsInExpr arg ++ callsInArgs args

def callsInCondition : SimpleCondition → List CallExpr
  | .comparison lhs _ rhs => callsInExpr lhs ++ callsInExpr rhs
  | .expr expression => callsInExpr expression
  | .and lhs rhs | .or lhs rhs => callsInCondition lhs ++ callsInCondition rhs
  | .not inner => callsInCondition inner

end

def callsInTarget : AssignTarget → List CallExpr
  | .local _ | .globalPath _ => []
  | .indexedPath _ index _ nestedIndex => callsInExpr index ++ callsInNestedIndex nestedIndex

def builtinHostEffect (target : Path) : Bool :=
  target ∈ [["print_i32"], ["print_int"], ["print_char"], ["print_string"]]

def isPureIntrinsic (target : Path) : Bool :=
  target ∈ [["fixed32_from_i32"], ["fixed32_to_i32"], ["fixed32_mul"], ["fixed32_div"],
    ["fixed32_from_ratio"], ["i32_to_f32"], ["f32_to_i32"], ["f32_sqrt"], ["f32_to_bits"],
    ["sin_fast"], ["cos_fast"]]

/-- What the analysis records for a call: a function of the program, a host
function, or both. -/
structure CallTargets where
  internal : Option FnId
  host : Option String
deriving DecidableEq

def callTargets (ctx : AnalysisContext) (call : CallExpr) : CallTargets :=
  let name := showPath call.target
  if ctx.isTypedCollectionOperation call.target call.args then ⟨none, none⟩
  else match call.resolvedTarget with
  | some (.function id) => ⟨some id, none⟩
  | _ =>
    let sole := match ctx.internalFunctionTargets.lookup name with
      | some [id] => some id
      | _ => none
    let declared := builtinHostEffect call.target || decide (name ∈ ctx.externFunctions)
    ⟨sole, if declared || (sole.isNone && !isPureIntrinsic call.target) then some name else none⟩

/-- A call of a function body with the bounds of the loops around it, outermost first. -/
structure BoundedCall where
  call : CallExpr
  scope : Scope
  bounds : List (Option ℕ)

namespace BoundedCall

def inLoop (bound : Option ℕ) (call : BoundedCall) : BoundedCall :=
  { call with bounds := bound :: call.bounds }

/-- The product of the bounds, where all are known and it does not overflow. -/
def maxInvocations (call : BoundedCall) : Option ℕ :=
  call.bounds.foldl (fun parent current => do checkedMul (← parent) (← current)) (some 1)

def outerNestingDepth (call : BoundedCall) : ℕ := min call.bounds.length (2 ^ 32 - 1)

end BoundedCall

def unlooped (scope : Scope) (calls : List CallExpr) : List BoundedCall :=
  calls.map fun call => ⟨call, scope, []⟩

mutual

def callsInStatement (ctx : AnalysisContext) (functionId : FnId) (scope : Scope) :
    SimpleStmt → List BoundedCall
  | .noop | .continue_ | .returnVoid => []
  | .let_ _ _ expression | .expr expression | .return_ expression =>
    unlooped scope (callsInExpr expression)
  | .assign target _ expression | .convert target _ expression =>
    unlooped scope (callsInExpr expression ++ callsInTarget target)
  | .if_ condition thenStatements elseStatements =>
    unlooped scope (callsInCondition condition) ++
      (callsInStatements ctx functionId scope thenStatements ++
        callsInElse ctx functionId scope elseStatements)
  | .for_ init condition step body =>
    let loopScope := scope.after init
    callsInStatement ctx functionId scope init ++
      (unlooped loopScope (callsInCondition condition) ++
        (callsInStatements ctx functionId loopScope body ++
          callsInStatement ctx functionId loopScope step)).map
        (BoundedCall.inLoop (staticForMaxIterations ctx init condition step body))
  | .foreach itemName indexName collectionPath body =>
    (callsInStatements ctx functionId
        (foreachScope ctx scope itemName indexName collectionPath) body).map
      (BoundedCall.inLoop (foreachMaxIterations ctx functionId scope collectionPath))

def callsInElse (ctx : AnalysisContext) (functionId : FnId) (scope : Scope) :
    Option (List SimpleStmt) → List BoundedCall
  | some statements => callsInStatements ctx functionId scope statements
  | none => []

def callsInStatements (ctx : AnalysisContext) (functionId : FnId) (scope : Scope) :
    List SimpleStmt → List BoundedCall
  | [] => []
  | statement :: rest =>
    callsInStatement ctx functionId scope statement ++
      callsInStatements ctx functionId (scope.after statement) rest

end

def callsInFunction (ctx : AnalysisContext) (functionId : FnId) : List BoundedCall :=
  match ctx.functions[functionId]? with
  | some function => callsInStatements ctx functionId function.scope function.statements
  | none => []

def directHostCallCosts (ctx : AnalysisContext) (calls : List BoundedCall) :
    Π₀ _ : String, HostCost :=
  (calls.map fun call =>
    match (callTargets ctx call.call).host with
    | some name => DFinsupp.single name (HostCost.entry call.maxInvocations)
    | none => 0).sum

/-- `record_call_site`: equal call sites are one with the sum of their invocations. -/
def recordCallSite (site : CallSite) : List CallSite → List CallSite
  | [] => [site]
  | existing :: rest =>
    if existing.targetId = site.targetId ∧ existing.arguments = site.arguments ∧
        existing.outerNestingDepth = site.outerNestingDepth then
      { existing with
        maxInvocations := HostCost.mergeHostCallCost existing.maxInvocations
          site.maxInvocations } :: rest
    else existing :: recordCallSite site rest

def callSiteOf (ctx : AnalysisContext) (call : BoundedCall) : Option CallSite :=
  (callTargets ctx call.call).internal.map fun targetId =>
    { targetId
      arguments := call.call.args.map (expressionEffectPath ctx call.scope)
      maxInvocations := call.maxInvocations
      outerNestingDepth := call.outerNestingDepth }

def directCallSites (ctx : AnalysisContext) (calls : List BoundedCall) : List CallSite :=
  (calls.filterMap (callSiteOf ctx)).foldl (fun sites site => recordCallSite site sites) []

/-- The direct effects of a function; `sets` are what the analysis finds besides costs
and call sites. -/
def directEffectsOf (ctx : AnalysisContext) (sets : FnId → EffectSets) (functionId : FnId) :
    DirectEffects :=
  let calls := callsInFunction ctx functionId
  { effects := { sets functionId with hostCallCosts := directHostCallCosts ctx calls }
    callSites := directCallSites ctx calls }

def directEffects (ctx : AnalysisContext) (sets : FnId → EffectSets) : List DirectEffects :=
  (List.range ctx.functions.length).map (directEffectsOf ctx sets)

end Stasis.DataFlow
