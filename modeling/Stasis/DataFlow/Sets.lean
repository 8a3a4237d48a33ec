import Mathlib.Data.DFinsupp.Defs
import Mathlib.Data.Finset.Union
import Mathlib.Data.Finset.Option
import Mathlib.Algebra.BigOperators.Group.List.Basic

namespace Stasis.DataFlow

open Option

/-- `$index` followed by the fields and elements that are reached from the parameter. -/
structure ParameterPath where
  index : ℕ
  suffix : String
deriving DecidableEq, Repr

/-- A path of the program's storage, or one that starts at a parameter. -/
inductive EffectPath
  | global (path : String)
  | parameter (path : ParameterPath)
deriving DecidableEq, Repr

namespace EffectPath

def append (base : EffectPath) (suffix : String) : EffectPath :=
  match base with
  | .global path => .global (path ++ suffix)
  | .parameter path => .parameter { path with suffix := path.suffix ++ suffix }

def global? : EffectPath → Option String
  | .global path => some path
  | .parameter _ => none

def parameter? : EffectPath → Option ParameterPath
  | .global _ => none
  | .parameter path => some path

end EffectPath

open EffectPath

abbrev Substitutions := ℕ → Option EffectPath

def substitutePath (path : EffectPath) (substitutions : Substitutions) (retainUnmapped : Bool) :
    Option EffectPath :=
  match path with
  | .global _ => some path
  | .parameter symbolic =>
    match substitutions symbolic.index with
    | some base => some (base.append symbolic.suffix)
    | none => if retainUnmapped then some path else none

def checkedAdd (a b : ℕ) : Option ℕ := if a + b < 2 ^ 64 then some (a + b) else none

def checkedMul (a b : ℕ) : Option ℕ := if a * b < 2 ^ 64 then some (a * b) else none

/-- An entry of the cost table: none, a number of calls, or no known bound. -/
inductive HostCost
  | absent
  | entry (count : Option ℕ)
deriving DecidableEq, Repr

namespace HostCost

def mergeHostCallCost (target value : Option ℕ) : Option ℕ := do
  checkedAdd (← target) (← value)

instance : Zero HostCost := ⟨.absent⟩

instance : Add HostCost where
  add
    | .absent, b => b
    | a, .absent => a
    | .entry a, .entry b => .entry (mergeHostCallCost a b)

@[simp] lemma absent_eq_zero : HostCost.absent = 0 := rfl

@[simp] lemma entry_add_entry (a b : Option ℕ) :
    entry a + entry b = .entry (mergeHostCallCost a b) := rfl

lemma mergeHostCallCost_comm (a b : Option ℕ) : mergeHostCallCost a b = mergeHostCallCost b a := by
  cases a with
  | none => cases b <;> rfl
  | some a =>
    cases b with
    | none => rfl
    | some b => simp [mergeHostCallCost, checkedAdd, Nat.add_comm]

lemma mergeHostCallCost_assoc (a b c : Option ℕ) :
    mergeHostCallCost (mergeHostCallCost a b) c = mergeHostCallCost a (mergeHostCallCost b c) := by
  rcases a with _ | a
  · cases b <;> cases c <;> rfl
  cases b with
  | none => cases c <;> rfl
  | some b =>
    cases c with
    | none => simp [mergeHostCallCost]
    | some c =>
      -- a partial sum overflows only when the whole sum does
      simp only [mergeHostCallCost, checkedAdd, bind_eq_bind, bind_some]
      split_ifs <;> simp only [bind_some, bind_none] <;> split_ifs <;>
        first | omega | simp [Nat.add_assoc]

instance : AddCommMonoid HostCost where
  zero_add a := by cases a <;> rfl
  add_zero a := by cases a <;> rfl
  add_comm a b := by
    cases a with
    | absent => cases b <;> rfl
    | entry a =>
      cases b with
      | absent => rfl
      | entry b => simp [mergeHostCallCost_comm]
  add_assoc a b c := by
    cases a with
    | absent => cases b <;> cases c <;> rfl
    | entry a =>
      cases b with
      | absent => cases c <;> rfl
      | entry b =>
        cases c with
        | absent => rfl
        | entry c => simp [mergeHostCallCost_assoc]
  nsmul := nsmulRec

def scale (multiplier : Option ℕ) : HostCost → HostCost
  | .absent => .absent
  | .entry count => .entry do checkedMul (← multiplier) (← count)

@[simp] lemma scale_zero (multiplier : Option ℕ) : scale multiplier 0 = 0 := rfl

@[simp] lemma scale_none_entry (count : Option ℕ) : scale none (.entry count) = .entry none := rfl

lemma scale_none_add (a b : HostCost) : scale none (a + b) = scale none a + scale none b := by
  cases a with
  | absent => simp
  | entry a =>
    cases b with
    | absent => simp
    | entry b => simp [mergeHostCallCost]

lemma scale_none_idem (a : HostCost) : scale none a + scale none a = scale none a := by
  cases a with
  | absent => simp
  | entry a => simp [mergeHostCallCost]

lemma scale_none_scale_none (a : HostCost) : scale none (scale none a) = scale none a := by
  cases a <;> rfl

end HostCost

open HostCost

structure FunctionHostEffect where
  function : String
  capability : String
deriving DecidableEq, Repr

structure FunctionBoundedIteration where
  function : String
  kind : String
  bound : EffectPath
  maxIterations : Option ℕ
  nestingDepth : ℕ
  maxIterationProduct : Option ℕ
  sourceOrder : ℕ
  reads : List EffectPath
  scannedPaths : List EffectPath
deriving DecidableEq, Repr

@[ext]
structure EffectSets where
  reads : Finset String := ∅
  writes : Finset String := ∅
  parameterReads : Finset ParameterPath := ∅
  parameterWrites : Finset ParameterPath := ∅
  calls : Finset String := ∅
  hostCalls : Finset String := ∅
  hostEffects : Finset FunctionHostEffect := ∅
  hostCallCosts : Π₀ _ : String, HostCost := 0
  boundedIterations : Finset FunctionBoundedIteration := ∅
deriving DecidableEq

namespace EffectSets

instance : Zero EffectSets := ⟨{}⟩

instance : Add EffectSets where
  add a b :=
    { reads := a.reads ∪ b.reads
      writes := a.writes ∪ b.writes
      parameterReads := a.parameterReads ∪ b.parameterReads
      parameterWrites := a.parameterWrites ∪ b.parameterWrites
      calls := a.calls ∪ b.calls
      hostCalls := a.hostCalls ∪ b.hostCalls
      hostEffects := a.hostEffects ∪ b.hostEffects
      hostCallCosts := a.hostCallCosts + b.hostCallCosts
      boundedIterations := a.boundedIterations ∪ b.boundedIterations }

section Fields

variable (a b : EffectSets)

@[simp] lemma reads_add : (a + b).reads = a.reads ∪ b.reads := rfl
@[simp] lemma writes_add : (a + b).writes = a.writes ∪ b.writes := rfl
@[simp] lemma parameterReads_add :
    (a + b).parameterReads = a.parameterReads ∪ b.parameterReads := rfl
@[simp] lemma parameterWrites_add :
    (a + b).parameterWrites = a.parameterWrites ∪ b.parameterWrites := rfl
@[simp] lemma calls_add : (a + b).calls = a.calls ∪ b.calls := rfl
@[simp] lemma hostCalls_add : (a + b).hostCalls = a.hostCalls ∪ b.hostCalls := rfl
@[simp] lemma hostEffects_add : (a + b).hostEffects = a.hostEffects ∪ b.hostEffects := rfl
@[simp] lemma hostCallCosts_add : (a + b).hostCallCosts = a.hostCallCosts + b.hostCallCosts := rfl
@[simp] lemma boundedIterations_add :
    (a + b).boundedIterations = a.boundedIterations ∪ b.boundedIterations := rfl

@[simp] lemma reads_zero : (0 : EffectSets).reads = ∅ := rfl
@[simp] lemma writes_zero : (0 : EffectSets).writes = ∅ := rfl
@[simp] lemma parameterReads_zero : (0 : EffectSets).parameterReads = ∅ := rfl
@[simp] lemma parameterWrites_zero : (0 : EffectSets).parameterWrites = ∅ := rfl
@[simp] lemma calls_zero : (0 : EffectSets).calls = ∅ := rfl
@[simp] lemma hostCalls_zero : (0 : EffectSets).hostCalls = ∅ := rfl
@[simp] lemma hostEffects_zero : (0 : EffectSets).hostEffects = ∅ := rfl
@[simp] lemma hostCallCosts_zero : (0 : EffectSets).hostCallCosts = 0 := rfl
@[simp] lemma boundedIterations_zero : (0 : EffectSets).boundedIterations = ∅ := rfl

end Fields

instance : AddCommMonoid EffectSets where
  zero_add a := by ext1 <;> simp
  add_zero a := by ext1 <;> simp
  add_comm a b := by ext1 <;> simp [Finset.union_comm, add_comm]
  add_assoc a b c := by ext1 <;> simp [Finset.union_assoc, add_assoc]
  nsmul := nsmulRec

end EffectSets

section Substitution

variable (substitutions : Substitutions) (retainUnmapped : Bool)

/-- The parts of the substituted paths that satisfy a test. -/
def substitutedParts {β : Type} [DecidableEq β] (part : EffectPath → Option β)
    (paths : Finset ParameterPath) : Finset β :=
  paths.biUnion fun path =>
    ((substitutePath (.parameter path) substitutions retainUnmapped).bind part).toFinset

def substituteIteration (multiplier : Option ℕ) (outerNestingDepth : ℕ)
    (iteration : FunctionBoundedIteration) : FunctionBoundedIteration :=
  { iteration with
    maxIterationProduct := do checkedMul (← multiplier) (← iteration.maxIterationProduct)
    nestingDepth := min (iteration.nestingDepth + outerNestingDepth) (2 ^ 32 - 1)
    bound := (substitutePath iteration.bound substitutions retainUnmapped).getD iteration.bound
    reads := iteration.reads.filterMap fun path => substitutePath path substitutions retainUnmapped
    scannedPaths := iteration.scannedPaths.filterMap fun path =>
      substitutePath path substitutions retainUnmapped }

def substituteEffects (multiplier : Option ℕ) (outerNestingDepth : ℕ) (direct : EffectSets) :
    EffectSets where
  reads := direct.reads ∪
    substitutedParts substitutions retainUnmapped EffectPath.global? direct.parameterReads
  writes := direct.writes ∪
    substitutedParts substitutions retainUnmapped EffectPath.global? direct.parameterWrites
  parameterReads :=
    substitutedParts substitutions retainUnmapped EffectPath.parameter? direct.parameterReads
  parameterWrites :=
    substitutedParts substitutions retainUnmapped EffectPath.parameter? direct.parameterWrites
  calls := direct.calls
  hostCalls := direct.hostCalls
  hostEffects := direct.hostEffects
  hostCallCosts := direct.hostCallCosts.mapRange (fun _ => HostCost.scale multiplier) fun _ => rfl
  boundedIterations := direct.boundedIterations.image
    (substituteIteration substitutions retainUnmapped multiplier outerNestingDepth)

def mergeSubstitutedEffects (direct : EffectSets) (hostCallMultiplier : Option ℕ)
    (outerNestingDepth : ℕ) (aggregate : EffectSets) : EffectSets :=
  aggregate + substituteEffects substitutions retainUnmapped hostCallMultiplier outerNestingDepth
    direct

end Substitution

end Stasis.DataFlow
