import Stasis.Lib.Assoc
import Stasis.Lib.Components
import Stasis.Lib.Effects

namespace Stasis.Patch

structure FunctionKey where
  symbolId : String
  name : String
deriving DecidableEq, Repr

namespace FunctionKey

def displayName (key : FunctionKey) : String := key.symbolId

def le (a b : FunctionKey) : Prop :=
  a.symbolId < b.symbolId ∨ a.symbolId = b.symbolId ∧ a.name ≤ b.name

instance : DecidableRel FunctionKey.le := fun a b =>
  inferInstanceAs (Decidable (a.symbolId < b.symbolId ∨ a.symbolId = b.symbolId ∧ a.name ≤ b.name))

end FunctionKey

def keySet (keys : List FunctionKey) : List FunctionKey := keys.dedup.insertionSort FunctionKey.le

@[simp] lemma mem_keySet : key ∈ keySet keys ↔ key ∈ keys := by
  rw [keySet, List.mem_insertionSort, List.mem_dedup]

lemma nodup_keySet (keys : List FunctionKey) : (keySet keys).Nodup :=
  (List.perm_insertionSort ..).nodup_iff.mpr (List.nodup_dedup _)

structure FunctionMeta where
  id : ℕ
  symbolId : String
  name : String
  fileId : ℕ
  bodyHash : UInt64
  params : List ℕ
  returnType : ℕ
  hostExport : Option String
  requiresContract : Option (List String)
  dependencies : List ℕ
deriving DecidableEq, Repr

def FunctionKey.fromFunction (function : FunctionMeta) : FunctionKey :=
  ⟨function.symbolId, function.name⟩

def typeIdVoid : ℕ := 0

def defaultRoots : List String :=
  ["tick", "main", "render", "on_code_swap", "gfx_cmd_construction_reset",
    "gfx_cmd_construction_finish"]

def lifecycleRoots : List String := ["main", "tick", "render", "on_code_swap"]

def matchesRoot (function : FunctionMeta) (rootName : String) : Bool :=
  function.name = rootName ∧
    if rootName = "tick" then function.params = []
    else if rootName = "on_code_swap" then
      function.params = [] ∧ function.returnType = typeIdVoid
    else True

inductive ReachabilityPolicy
  | development
  | release
deriving DecidableEq, Repr

def emitRoots (functions : List FunctionMeta) (requiredEmitRoots : List String)
    (policy : ReachabilityPolicy) : List ℕ :=
  let named := fun rootName : String =>
    if policy = .release ∧ rootName = "on_code_swap" then []
    else (functions.filter fun function =>
      function.requiresContract.isNone ∧ matchesRoot function rootName).map FunctionMeta.id
  (functions.filter fun function => function.hostExport.isSome).map FunctionMeta.id ++
    defaultRoots.flatMap named ++ requiredEmitRoots.flatMap named

def findFunction (functions : List FunctionMeta) (id : ℕ) : Option FunctionMeta :=
  functions.find? fun function => function.id = id

/-- The dependencies that are emitted with a function: all but the templates. -/
def emittedDependencies (functions : List FunctionMeta) (id : ℕ) : List ℕ :=
  match findFunction functions id with
  | none => []
  | some function => function.dependencies.filter fun dependency =>
    match findFunction functions dependency with
    | none => true
    | some candidate => candidate.requiresContract.isNone

def visitFunction (functions : List FunctionMeta) (id : ℕ) : Except Unit (Unit × List ℕ) :=
  .ok ((), (emittedDependencies functions id).reverse)

def knownIds (functions : List FunctionMeta) (roots : List ℕ) : List ℕ :=
  roots ++ functions.flatMap FunctionMeta.dependencies

def computeReachableFunctionIdsWithPolicy (functions : List FunctionMeta)
    (requiredEmitRoots : List String) (policy : ReachabilityPolicy) : List ℕ :=
  let roots := emitRoots functions requiredEmitRoots policy
  if roots = [] ∧ policy = .development then
    (functions.filter fun function => function.requiresContract.isNone).map FunctionMeta.id
  else
    -- the last root is taken first
    match closureLoop (visitFunction functions) ()
        (workLeft (visitFunction functions) (knownIds functions roots) roots.reverse [])
        roots.reverse [] with
    | .ok visited => visited.map Prod.fst
    | .error () => []

def computeReachableFunctionIds (functions : List FunctionMeta)
    (requiredEmitRoots : List String) : List ℕ :=
  computeReachableFunctionIdsWithPolicy functions requiredEmitRoots .development

structure CurrentFunction where
  id : ℕ
  bodyHash : UInt64
  dependencies : List FunctionKey
  compileTimeOnly : Bool
deriving DecidableEq, Repr

/-- The graph: the functions in the order they were put into the map, and the keys
of those that are reachable and of those the host calls. -/
structure CurrentGraph where
  inserted : List (FunctionKey × CurrentFunction)
  reachable : List FunctionKey
  hostEntries : List FunctionKey
deriving DecidableEq, Repr

def keyById (functions : List FunctionMeta) (id : ℕ) : Option FunctionKey :=
  (functions.reverse.find? fun function => function.id = id).map FunctionKey.fromFunction

def isHostEntry (requiredRoots : List String) (function : FunctionMeta) : Bool :=
  function.requiresContract.isNone ∧ function.name ∈ lifecycleRoots ++ requiredRoots ∧
    (lifecycleRoots ++ requiredRoots).any fun root => matchesRoot function root

def currentFunction (functions : List FunctionMeta) (function : FunctionMeta) :
    CurrentFunction where
  id := function.id
  bodyHash := function.bodyHash
  dependencies := keySet (function.dependencies.filterMap (keyById functions))
  compileTimeOnly := function.requiresContract.isSome

def checkSourceFile (fileCount : ℕ) (function : FunctionMeta) : Except String Unit :=
  if function.fileId < fileCount then .ok ()
  else .error s!"function '{function.name}' references missing source file"

def insertFunction (functions : List FunctionMeta) (function : FunctionMeta) :
    Except String (FunctionKey × CurrentFunction) :=
  match keyById functions function.id with
  | some key => .ok (key, currentFunction functions function)
  | none => .error s!"function '{function.name}' has no stable key"

namespace CurrentGraph

def build (functions : List FunctionMeta) (fileCount : ℕ) (requiredRoots : List String) :
    Except String CurrentGraph := do
  functions.forM (checkSourceFile fileCount)
  let inserted ← functions.mapM (insertFunction functions)
  return {
    inserted
    reachable := keySet
      ((computeReachableFunctionIds functions requiredRoots).filterMap (keyById functions))
    hostEntries := keySet ((functions.filter (isHostEntry requiredRoots)).filterMap fun function =>
      keyById functions function.id) }

variable (graph : CurrentGraph)

def byKey (key : FunctionKey) : Option CurrentFunction := graph.inserted.reverse.lookup key

def reverse (callee : FunctionKey) : List FunctionKey :=
  keySet ((graph.inserted.filter fun entry => callee ∈ entry.2.dependencies).map Prod.fst)

def callees (key : FunctionKey) : List FunctionKey :=
  match graph.byKey key with
  | none => []
  | some function => function.dependencies.filter fun dependency => dependency ∈ graph.reachable

def callers (callee : FunctionKey) : List FunctionKey :=
  if callee ∈ graph.reachable then
    graph.reachable.filter fun caller => callee ∈ graph.callees caller
  else []

def sccs : List (List FunctionKey) :=
  (Graph.components graph.callers graph.reachable
    (Graph.finishOrder graph.callees graph.reachable)).map keySet

def sccIndexByKey : List (FunctionKey × ℕ) :=
  (graph.sccs.zipIdx.flatMap fun (component, index) =>
    component.map fun key => (key, index)).reverse

end CurrentGraph

structure AcceptedFunction where
  bodyHash : UInt64
  dependencies : List FunctionKey
deriving DecidableEq, Repr

structure AcceptedProgram where
  functions : List (FunctionKey × AcceptedFunction)
  reachable : List FunctionKey
deriving DecidableEq, Repr

def captureAcceptedProgram (functions : List FunctionMeta) (fileCount : ℕ)
    (requiredRoots : List String) : Except String AcceptedProgram := do
  let graph ← CurrentGraph.build functions fileCount requiredRoots
  return {
    functions := graph.inserted.reverse.map fun entry =>
      (entry.1, ⟨entry.2.bodyHash, entry.2.dependencies⟩)
    reachable := graph.reachable }

inductive PatchReason
  | coldStart
  | bodyChanged
  | addedOrSignatureChanged
  | becameReachable
  | loweredContractChanged
  | sccPeer (changed : FunctionKey)
  | directCaller (callee : FunctionKey)
deriving DecidableEq, Repr

structure PatchReasonChain where
  function : FunctionKey
  reason : PatchReason
  pathFromChange : List FunctionKey
deriving DecidableEq, Repr

structure PatchPlan where
  coldStart : Bool
  changed : List FunctionKey
  reJitIds : List ℕ
  reJit : List FunctionKey
  reused : List FunctionKey
  retainedDependencies : List FunctionKey
  affectedHostEntries : List FunctionKey
  removed : List FunctionKey
  reasons : List PatchReasonChain
deriving DecidableEq, Repr

/-- The reasons found so far, the functions whose callers are still to be looked
at, and the components whose members were taken. -/
structure Affected where
  reasons : List PatchReasonChain := []
  queue : List FunctionKey := []
  expandedComponents : List ℕ := []
deriving DecidableEq, Repr

namespace Affected

variable (a : Affected)

def keys : List FunctionKey := a.reasons.map PatchReasonChain.function

def insert (chain : PatchReasonChain) : Affected :=
  { a with reasons := a.reasons ++ [chain], queue := a.queue ++ [chain.function] }

def insertSeed (key : FunctionKey) (reason : PatchReason) : Affected :=
  if key ∈ a.keys then a else a.insert ⟨key, reason, [key]⟩

def pathTo (key : FunctionKey) : List FunctionKey :=
  match a.reasons.find? fun chain => chain.function = key with
  | some chain => chain.pathFromChange
  | none => [key]

def prependPath (key first : FunctionKey) : Affected :=
  { a with reasons := a.reasons.map fun chain =>
      if chain.function = key then { chain with pathFromChange := first :: chain.pathFromChange }
      else chain }

end Affected

section Seeds

variable (graph : CurrentGraph) (accepted : AcceptedProgram)

def seedReason (loweredContractChanges : List FunctionKey) (key : FunctionKey)
    (current : CurrentFunction) : Option PatchReason :=
  match accepted.functions.lookup key with
  | none => some .addedOrSignatureChanged
  | some previous =>
    if key ∉ accepted.reachable then some .becameReachable
    else if previous.bodyHash ≠ current.bodyHash then some .bodyChanged
    else if key ∈ loweredContractChanges then some .loweredContractChanged
    else none

def seedChange (loweredContractChanges : List FunctionKey) (a : Affected) (key : FunctionKey) :
    Except String Affected :=
  match graph.byKey key with
  | none => .error s!"reachable function '{key.displayName}' is missing"
  | some current =>
    match seedReason accepted loweredContractChanges key current with
    | some reason => .ok (a.insertSeed key reason)
    | none => .ok a

def isChangedTemplate (dependency : FunctionKey) : Bool :=
  match graph.byKey dependency with
  | none => false
  | some current => current.compileTimeOnly &&
    match accepted.functions.lookup dependency with
    | none => true
    | some previous => previous.bodyHash != current.bodyHash

def seedTemplateCaller (a : Affected) (caller : FunctionKey) : Affected :=
  if caller ∈ a.keys then a
  else match graph.byKey caller with
    | none => a
    | some current =>
      match current.dependencies.find? (isChangedTemplate graph accepted) with
      | some callee => a.insertSeed caller (.directCaller callee)
      | none => a

def removedFunctions : List FunctionKey :=
  (keySet (accepted.functions.map Prod.fst)).filter fun key => (graph.byKey key).isNone

def isRemovedReachable (key : FunctionKey) : Bool :=
  key ∈ removedFunctions graph accepted ∧ key ∈ accepted.reachable

def seedRemovedCaller (a : Affected) (caller : FunctionKey) : Affected :=
  match (accepted.functions.lookup caller).bind fun function =>
      function.dependencies.find? (isRemovedReachable graph accepted) with
  | none => a
  | some removedCallee =>
    if caller ∈ a.keys then a
    else (a.insertSeed caller (.directCaller removedCallee)).prependPath caller removedCallee

/-- The functions that are stale by themselves, with the reasons. -/
def seeds (loweredContractChanges : List FunctionKey) : Except String Affected := do
  let a ← graph.reachable.foldlM (seedChange graph accepted loweredContractChanges) {}
  let a := graph.reachable.foldl (seedTemplateCaller graph accepted) a
  return graph.reachable.foldl (seedRemovedCaller graph accepted) a

end Seeds

section Expansion

variable (graph : CurrentGraph)

def addPeer (callee : FunctionKey) (basePath : List FunctionKey) (a : Affected)
    (peer : FunctionKey) : Affected :=
  if peer ∈ a.keys then a else a.insert ⟨peer, .sccPeer callee, basePath ++ [peer]⟩

def addCaller (callee : FunctionKey) (a : Affected) (caller : FunctionKey) : Affected :=
  if caller ∉ graph.reachable ∨ caller ∈ a.keys then a
  else a.insert ⟨caller, .directCaller callee, a.pathTo callee ++ [caller]⟩

/-- The members of the component of a function, once for every component. -/
def expandComponent (callee : FunctionKey) (a : Affected) : Affected :=
  match graph.sccIndexByKey.lookup callee with
  | none => a
  | some componentIndex =>
    if componentIndex ∈ a.expandedComponents then a
    else
      let a := { a with expandedComponents := componentIndex :: a.expandedComponents }
      match graph.sccs[componentIndex]? with
      | none => a
      | some component => component.foldl (addPeer callee (a.pathTo callee)) a

def expandStep (a : Affected) : Option Affected :=
  match a.queue with
  | [] => none
  | callee :: queue =>
    some ((graph.reverse callee).foldl (addCaller graph callee)
      (expandComponent graph callee { a with queue }))

def expandAffectedClosure (a : Affected) : Affected :=
  runUntil (expandStep graph) graph.reachable.length a

end Expansion

def chainLe (a b : PatchReasonChain) : Prop := FunctionKey.le a.function b.function

instance : DecidableRel chainLe := fun a b =>
  inferInstanceAs (Decidable (FunctionKey.le a.function b.function))

def initialSeeds (graph : CurrentGraph) (accepted : Option AcceptedProgram)
    (loweredContractChanges : List FunctionKey) : Except String Affected :=
  match accepted with
  | some accepted => seeds graph accepted loweredContractChanges
  | none => .ok (graph.reachable.foldl (fun a key => a.insertSeed key .coldStart) {})

def planPatch (functions : List FunctionMeta) (fileCount : ℕ) (requiredRoots : List String)
    (accepted : Option AcceptedProgram) (loweredContractChanges : List FunctionKey) :
    Except String PatchPlan := do
  let graph ← CurrentGraph.build functions fileCount requiredRoots
  let seeded ← initialSeeds graph accepted loweredContractChanges
  let affected := if accepted.isSome then expandAffectedClosure graph seeded else seeded
  let reJit := keySet affected.keys
  return {
    coldStart := accepted.isNone
    changed := keySet seeded.keys
    reJitIds := reJit.filterMap fun key => (graph.byKey key).map CurrentFunction.id
    reJit
    reused := graph.reachable.filter fun key => key ∉ reJit
    retainedDependencies := keySet ((reJit.flatMap fun key =>
      ((graph.byKey key).map CurrentFunction.dependencies).getD []).filter fun dependency =>
        dependency ∈ graph.reachable ∧ dependency ∉ reJit)
    affectedHostEntries := reJit.filter fun key => key ∈ graph.hostEntries
    removed := (accepted.map (removedFunctions graph)).getD []
    reasons := affected.reasons.insertionSort chainLe }

end Stasis.Patch
