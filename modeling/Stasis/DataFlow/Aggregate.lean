import Mathlib.Data.List.Sort
import Stasis.DataFlow.Sets
import Stasis.Lib.Components

namespace Stasis.DataFlow

structure CallSite where
  targetId : ℕ
  arguments : List (Option EffectPath)
  maxInvocations : Option ℕ
  outerNestingDepth : ℕ
deriving DecidableEq, Repr

def CallSite.substitutions (callSite : CallSite) : Substitutions := fun index =>
  callSite.arguments[index]?.join

/-- The effects that the body of a function has by itself, and the calls it makes. -/
structure DirectEffects where
  effects : EffectSets := {}
  callSites : List CallSite := []
deriving DecidableEq

variable (directById : List DirectEffects)

def callSitesOf (functionId : ℕ) : List CallSite := (directById.getD functionId {}).callSites

def functionIds : List ℕ := List.range directById.length

/-- The functions a function calls; a target outside the program is passed over. -/
def callees (functionId : ℕ) : List ℕ :=
  ((callSitesOf directById functionId).map CallSite.targetId).filter (· < directById.length)

def callers (functionId : ℕ) : List ℕ :=
  (functionIds directById).filter fun caller => functionId ∈ callees directById caller

def stronglyConnectedComponents : List (List ℕ) :=
  (Graph.components (callers directById) (functionIds directById)
    (Graph.edgeFinishOrder (callees directById) (functionIds directById))).map
      (List.insertionSort (· ≤ ·))

def componentByFunction (components : List (List ℕ)) (functionId : ℕ) : ℕ :=
  components.findIdx fun component => functionId ∈ component

/-- The other components that the functions of a component call. -/
def componentEdges (components : List (List ℕ)) (componentId : ℕ) : List ℕ :=
  ((((functionIds directById).filter fun functionId =>
    componentByFunction components functionId = componentId).flatMap fun functionId =>
      (callees directById functionId).map (componentByFunction components)).filter
        (· ≠ componentId)).dedup.insertionSort (· ≤ ·)

def componentOrder (components : List (List ℕ)) : List ℕ :=
  Graph.finishOrder (componentEdges directById components) (List.range components.length)

def isCyclic (component : List ℕ) : Bool :=
  component.length > 1 || (callSitesOf directById (component.headD 0)).any fun callSite =>
    callSite.targetId = component.headD 0

section Rounds

variable (component : List ℕ) (cyclic : Bool)

def isRecursiveEdge (callSite : CallSite) : Bool := cyclic && callSite.targetId ∈ component

/-- What a call site adds, given what is known of the callee. -/
def mergeCallSite (aggregateById : List EffectSets) (aggregate : EffectSets)
    (callSite : CallSite) : EffectSets :=
  match aggregateById[callSite.targetId]? with
  | none => aggregate
  | some child =>
    let recursiveEdge := isRecursiveEdge component cyclic callSite
    mergeSubstitutedEffects callSite.substitutions false child
      (if recursiveEdge then none else callSite.maxInvocations)
      (if recursiveEdge then 0 else callSite.outerNestingDepth) aggregate

def nextAggregate (aggregateById : List EffectSets) (functionId : ℕ) : EffectSets :=
  (callSitesOf directById functionId).foldl (mergeCallSite component cyclic aggregateById)
    (mergeSubstitutedEffects (fun _ => none) true (directById.getD functionId {}).effects (some 1) 0
      {})

/-- One round over the component; the aggregates are stored when all are computed. -/
def nextRound (aggregateById : List EffectSets) : List EffectSets :=
  (component.zip (component.map (nextAggregate directById component cyclic aggregateById))).foldl
    (fun aggregates entry => aggregates.set entry.1 entry.2) aggregateById

/-- The rounds of one component, until one of them changes nothing. -/
def settle : ℕ → List EffectSets → Option (List EffectSets)
  | 0, _ => none
  | rounds + 1, aggregateById =>
    if component.all fun functionId => aggregateById[functionId]? =
        some (nextAggregate directById component cyclic aggregateById functionId) then
      some aggregateById
    else if cyclic then
      settle rounds (nextRound directById component cyclic aggregateById)
    else some (nextRound directById component cyclic aggregateById)

end Rounds

def aggregateComponent (aggregateById : List EffectSets) (component : List ℕ) :
    Except String (List EffectSets) :=
  match settle directById component (isCyclic directById component) (component.length + 2)
      aggregateById with
  | some aggregates => .ok aggregates
  | none =>
    .error s!"function data-flow cycle did not converge for function ids {component}"

def buildAggregateEffects : Except String (List EffectSets) :=
  let components := stronglyConnectedComponents directById
  (componentOrder directById components).foldlM
    (fun aggregateById componentId =>
      aggregateComponent directById aggregateById (components.getD componentId []))
    (List.replicate directById.length {})

/-- Three parameters that a recursive call passes on in a circle. -/
def rotatingParameters : List DirectEffects :=
  let argument := fun index => some (EffectPath.parameter ⟨index, ""⟩)
  [{ effects := { parameterWrites := {⟨0, "[*]"⟩} }
     callSites := [⟨0, [argument 1, argument 2, argument 0], some 1, 0⟩] }]

theorem rotatingParameters_do_not_converge : buildAggregateEffects rotatingParameters =
    .error "function data-flow cycle did not converge for function ids [0]" := by
  decide +kernel

end Stasis.DataFlow
