import Stasis.DataFlow.Iterations

namespace Stasis.DataFlow

open Metered
open Function
open List
open Stasis.Lang
open Stasis.Runtime (Path TypeKey)
open Stasis.Native (foreachIndexVar isForControlStatement statementAssignsLocal
  statementsAssignLocal)

/-- A bound as a number of times; without a bound it is infinite. -/
def ofBound : Option ℕ → ℕ∞
  | some n => n
  | none => ⊤

section Costs

variable (ctx : AnalysisContext) (host : String) (weight : FnId → ℕ∞)

/-- The calls of `host` that one call makes, if an invocation of a function makes
`weight` many. -/
def callCost (call : CallExpr) : ℕ∞ :=
  (match (callTargets ctx call).internal with
    | some id => weight id
    | none => 0) +
  if (callTargets ctx call).host = some host then 1 else 0

def callsCost (calls : List CallExpr) : ℕ∞ := (calls.map (callCost ctx host weight)).sum

def BoundedCall.times (call : BoundedCall) : ℕ∞ := (call.bounds.map ofBound).prod

def boundedCost (calls : List BoundedCall) : ℕ∞ :=
  (calls.map fun call => call.times * callCost ctx host weight call.call).sum

variable {ctx host weight}

@[simp] lemma callsCost_cons (call : CallExpr) (calls : List CallExpr) :
    callsCost ctx host weight (call :: calls) =
      callCost ctx host weight call + callsCost ctx host weight calls := rfl

@[simp] lemma callsCost_append (a b : List CallExpr) :
    callsCost ctx host weight (a ++ b) =
      callsCost ctx host weight a + callsCost ctx host weight b := by
  simp [callsCost]

@[simp] lemma boundedCost_append (a b : List BoundedCall) :
    boundedCost ctx host weight (a ++ b) =
      boundedCost ctx host weight a + boundedCost ctx host weight b := by
  simp [boundedCost]

@[simp] lemma boundedCost_unlooped (scope : Scope) (calls : List CallExpr) :
    boundedCost ctx host weight (unlooped scope calls) = callsCost ctx host weight calls := by
  simp [boundedCost, unlooped, callsCost, BoundedCall.times, comp_def]

@[simp] lemma boundedCost_inLoop (bound : Option ℕ) (calls : List BoundedCall) :
    boundedCost ctx host weight (calls.map (BoundedCall.inLoop bound)) =
      ofBound bound * boundedCost ctx host weight calls := by
  unfold boundedCost
  rw [map_map, ← sum_map_mul_left]
  simp [comp_def, BoundedCall.times, BoundedCall.inLoop, mul_assoc]

end Costs

lemma callTargets_callee (ctx : AnalysisContext) (call : CallExpr) : match callee ctx call with
    | .function id => (callTargets ctx call).internal = some id
    | .host name => (callTargets ctx call).host = some name
    | _ => True := by
  unfold callee callTargets
  cases ctx.isTypedCollectionOperation call.target call.args with
  | true => trivial
  | false =>
    match call.resolvedTarget with
    | some (.function id) => rfl
    | some (.external name) =>
      by_cases hext : Runtime.showPath call.target ∈ ctx.externFunctions <;> simp [hext]
    | none =>
      cases builtinHostEffect call.target <;> cases isPureIntrinsic call.target <;> simp

section Accounting

variable {W α β : Type}

def hostCalls (host : String) (s : State W) : ℕ∞ := (s.log.count (.host host) : ℕ)

/-- Loops stay bounded and the calls of `host` within the budget; a run that returns
leaves a frame with `post`. -/
abbrev Costs (host : String) (m : Run W α) (s : State W) (budget : ℕ∞)
    (post : α → Locals → Prop) : Prop :=
  Metered LoopsBounded (hostCalls host) m s budget fun a s' => post a s'.locals

variable {host : String} {s : State W} {locals : Locals}

variable (hs : LoopsBounded s)
include hs

lemma costs_orTrap (hl : s.locals = locals) :
    Costs host (orTrap o) s budget fun _ l => l = locals := by
  cases o with
  | none => exact metered_throw hs
  | some a => exact metered_pure hs hl

omit hs in
lemma costs_orTrap_bind (post : β → Locals → Prop) (hs : LoopsBounded s)
    (hf : ∀ a, o = some a → Costs host (f a) s budget post) :
    Costs host (orTrap o >>= f) s budget post := by
  cases o with
  | none => exact metered_throw hs
  | some a => exact hf a rfl

variable {name : String}

lemma costs_record_host :
    Costs host (record (.host name)) s (if name = host then 1 else 0)
      fun _ l => l = s.locals := by
  refine metered_modify ?_ ?_ rfl
  · intro n k hmem
    exact hs n k (by simpa using hmem)
  · unfold hostCalls
    dsimp only
    by_cases hname : name = host
    · subst hname
      simp
    · simp [hname]

lemma costs_record_iteration (hk : ∀ n, bound = some n → k ≤ n) :
    Costs host (record (.iteration bound k)) s 0 fun _ l => l = s.locals := by
  refine metered_modify ?_ ?_ rfl
  · intro n j hmem
    rcases mem_cons.mp hmem with heq | hmem
    · cases heq
      exact hk n rfl
    · exact hs n j hmem
  · unfold hostCalls
    simp

lemma costs_setLocal :
    Costs host (setLocal name value) s 0 fun _ l => l = update s.locals name value :=
  metered_modify hs le_self_add rfl

/-- What each level of the tower accounts for: the calls in what it evaluates, and
`weight` many for each function that is invoked. -/
structure Accounts (p : LinkedProgram) (machine : Machine W) (host : String) (weight : FnId → ℕ∞)
    (I : Interpreter W) : Prop where
  eval : ∀ {locals} scope expected e s, LoopsBounded s → s.locals = locals →
    Costs host (I.eval scope expected e) s
      (callsCost p.toAnalysisContext host weight (callsInExpr e)) fun _ l => l = locals
  condition : ∀ {locals} scope c s, LoopsBounded s → s.locals = locals →
    Costs host (I.condition scope c) s
      (callsCost p.toAnalysisContext host weight (callsInCondition c)) fun _ l => l = locals
  exec : ∀ {functionId scope types statement types'} s,
    Exact p machine functionId scope types statement types' → LoopsBounded s →
    Respects scope types s.locals →
    Costs host (I.exec functionId scope statement) s
      (boundedCost p.toAnalysisContext host weight
        (callsInStatement p.toAnalysisContext functionId scope statement))
      fun _ l =>
        KeepsLocals scope (fun name => statementAssignsLocal name statement) s.locals l ∧
          Respects (scope.after statement) types' l
  invoke : ∀ {locals} id values s, LoopsBounded s → s.locals = locals →
    Costs host (I.invoke id values) s (weight id) fun _ l => l = locals

end Accounting

section Expressions

variable {W : Type} {p : LinkedProgram} {machine : Machine W} {host : String}
  {weight : FnId → ℕ∞} {below : Interpreter W} (h : Accounts p machine host weight below)
  {s : State W} {locals : Locals} (hs : LoopsBounded s) (hl : s.locals = locals)
include h hs hl

variable (scope : Scope)

lemma costs_evalArgs (types : List TypeKey) (args : List SimpleExpr) :
    Costs host (evalArgs below scope types args) s
      (callsCost p host weight (callsInArgs args)) fun _ l => l = locals := by
  induction args generalizing types s with
  | nil => exact metered_pure hs hl
  | cons arg args ih =>
    rw [callsInArgs, callsCost_append]
    refine (h.eval scope types.head? arg s hs hl).bind fun value s₁ hs₁ hl₁ => ?_
    exact (ih hs₁ hl₁ types.tail).bind_free fun values s₂ hs₂ hl₂ => metered_pure hs₂ hl₂

omit h in
lemma costs_callMachine (target : Path) (values : List Value) :
    Costs host (callMachine machine target values) s 0 fun _ l => l = locals := by
  refine metered_get_bind ?_
  refine costs_orTrap_bind (fun _ l => l = locals) hs fun result _ => ?_
  have hset : Costs host (set { s with world := result.2 }) s 0 fun _ l => l = locals :=
    metered_set hs le_self_add hl
  exact hset.bind_free fun _ s₁ hs₁ hl₁ => metered_pure hs₁ hl₁

lemma costs_evalCall (call : CallExpr) :
    Costs host (evalCall p machine below scope call) s
      (callsCost p host weight (call :: callsInArgs call.args))
      fun _ l => l = locals := by
  rw [callsCost_cons, add_comm]
  refine (costs_evalArgs h hs hl scope _ call.args).bind fun values s₁ hs₁ hl₁ => ?_
  unfold callCost
  have htar := callTargets_callee p.toAnalysisContext call
  cases hcal : callee p call with
  | function id =>
    rw [hcal] at htar
    rw [htar]
    exact (h.invoke id values s₁ hs₁ hl₁).mono le_self_add fun _ _ hpost => hpost
  | host name =>
    rw [hcal] at htar
    rw [htar]
    refine mono (b := if name = host then 1 else 0) ?_ (by simp) fun _ _ hpost => hpost
    refine (costs_record_host hs₁).bind_free fun _ s₂ hs₂ hl₂ => ?_
    exact costs_callMachine hs₂ (hl₂.trans hl₁) call.target values
  | operation =>
    exact (costs_callMachine hs₁ hl₁ call.target values).mono zero_le fun _ _ hpost => hpost
  | missing => exact metered_throw hs₁

omit h in
lemma costs_loadPath (path : Path) :
    Costs host (loadPath p machine scope path) s 0 fun _ l => l = locals := by
  refine metered_get_bind ?_
  split
  · exact metered_pure hs hl
  · split_ifs
    · exact costs_orTrap hs hl
    · split
      · exact metered_pure hs hl
      · exact costs_orTrap hs hl

lemma costs_evalOperands (plan : OperandPlan) (lhs rhs : SimpleExpr) :
    Costs host (evalOperands below scope plan lhs rhs) s
      (callsCost p host weight (callsInExpr lhs ++ callsInExpr rhs))
      fun _ l => l = locals := by
  rw [callsCost_append]
  unfold evalOperands
  split_ifs
  · rw [add_comm]
    refine (h.eval scope _ rhs s hs hl).bind fun b s₁ hs₁ hl₁ => ?_
    exact (h.eval scope _ lhs s₁ hs₁ hl₁).bind_free fun a s₂ hs₂ hl₂ => metered_pure hs₂ hl₂
  · refine (h.eval scope _ lhs s hs hl).bind fun a s₁ hs₁ hl₁ => ?_
    exact (h.eval scope _ rhs s₁ hs₁ hl₁).bind_free fun b s₂ hs₂ hl₂ => metered_pure hs₂ hl₂

lemma costs_evalNestedIndex (nestedIndex : Option SimpleExpr) :
    Costs host (evalNestedIndex below scope nestedIndex) s
      (callsCost p host weight (callsInNestedIndex nestedIndex))
      fun _ l => l = locals := by
  cases nestedIndex with
  | none => exact metered_pure hs hl
  | some index =>
    exact (h.eval scope _ index s hs hl).bind_free fun a s₁ hs₁ hl₁ => metered_pure hs₁ hl₁

lemma costs_evalExpr (expected : Option TypeKey) (e : SimpleExpr) :
    Costs host (evalExpr p machine below scope expected e) s
      (callsCost p host weight (callsInExpr e)) fun _ l => l = locals := by
  cases e with
  | int value | bool value | defaultValue type | float bits | stringLiteral value =>
    exact metered_pure hs hl
  | resolvedConstant id type value =>
    cases value with
    | string value => exact metered_pure hs hl
    | scalar bits nominal =>
      simp only [evalExpr]
      split <;> exact metered_pure hs hl
  | condition c =>
    exact (h.condition scope c s hs hl).bind_free fun a s₁ hs₁ hl₁ => metered_pure hs₁ hl₁
  | identifier path => exact costs_loadPath hs hl scope path
  | indexedPath collectionPath index suffix nestedIndex =>
    rw [callsInExpr, callsCost_append]
    refine (h.eval scope _ index s hs hl).bind fun i s₁ hs₁ hl₁ => ?_
    refine (costs_evalNestedIndex h hs₁ hl₁ scope nestedIndex).bind_free fun j s₂ hs₂ hl₂ => ?_
    exact metered_get_bind (costs_orTrap hs₂ hl₂)
  | call target args resolvedTarget =>
    refine (costs_evalCall h hs hl scope ⟨target, args, resolvedTarget⟩).bind_free
      fun value s₁ hs₁ hl₁ => ?_
    exact costs_orTrap hs₁ hl₁
  | unary op operand =>
    refine (h.eval scope _ operand s hs hl).bind_free fun a s₁ hs₁ hl₁ => ?_
    exact costs_orTrap hs₁ hl₁
  | binary lhs op rhs =>
    refine (costs_evalOperands h hs hl scope _ lhs rhs).bind_free fun operands s₁ hs₁ hl₁ => ?_
    exact costs_orTrap hs₁ hl₁

lemma costs_evalCondition (c : SimpleCondition) :
    Costs host (evalCondition machine below scope c) s
      (callsCost p host weight (callsInCondition c)) fun _ l => l = locals := by
  cases c with
  | comparison lhs op rhs =>
    refine (costs_evalOperands h hs hl scope _ lhs rhs).bind_free fun operands s₁ hs₁ hl₁ => ?_
    exact costs_orTrap hs₁ hl₁
  | expr expression =>
    exact (h.eval scope _ expression s hs hl).bind_free fun a s₁ hs₁ hl₁ => metered_pure hs₁ hl₁
  | and lhs rhs =>
    rw [callsInCondition, callsCost_append]
    refine (h.condition scope lhs s hs hl).bind fun test s₁ hs₁ hl₁ => ?_
    cases test with
    | true => exact h.condition scope rhs s₁ hs₁ hl₁
    | false => exact metered_pure hs₁ hl₁
  | or lhs rhs =>
    rw [callsInCondition, callsCost_append]
    refine (h.condition scope lhs s hs hl).bind fun test s₁ hs₁ hl₁ => ?_
    cases test with
    | true => exact metered_pure hs₁ hl₁
    | false => exact h.condition scope rhs s₁ hs₁ hl₁
  | not inner =>
    exact (h.condition scope inner s hs hl).bind_free fun a s₁ hs₁ hl₁ => metered_pure hs₁ hl₁

end Expressions

section Statements

variable {W : Type} {p : LinkedProgram} {machine : Machine W} {host : String}
  {weight : FnId → ℕ∞} {below : Interpreter W} {functionId : FnId} {scope : Scope}
  {types : Types} {s : State W} {fuel : ℕ}

lemma type_coerce (type : TypeKey) (value : Value) : (coerce machine type value).type = type := by
  unfold coerce
  split
  · rename_i lane hlane
    exact Native.Lane.type_of_ofType hlane
  · rfl

lemma costs_assignPlace (op : AssignOp) (value : Value) (place : Place) (hs : LoopsBounded s) :
    Costs host (assignPlace machine op value place) s 0 fun _ l => l = s.locals := by
  refine metered_get_bind ?_
  have hstore : ∀ old, Costs host (do
      let new ← orTrap (assignedValue machine op old value)
      let world ← orTrap (machine.store s.world s.locals place new)
      set { s with world } : Run W Unit) s 0 fun _ l => l = s.locals := by
    intro old
    refine costs_orTrap_bind (fun _ l => l = s.locals) hs fun new _ => ?_
    refine costs_orTrap_bind (fun _ l => l = s.locals) hs fun world _ => ?_
    exact metered_set hs le_self_add rfl
  cases op with
  | set => exact hstore value
  | _ => exact costs_orTrap_bind (fun _ l => l = s.locals) hs fun old _ => hstore old

/-- Whether an assignment to the target is one to the local. -/
def assignsLocal (target : AssignTarget) (name : String) : Bool :=
  match target with
  | .local local_ => local_ = name
  | _ => false

lemma costs_assignTo (h : Accounts p machine host weight below) (op : AssignOp) (value : Value)
    (target : AssignTarget) (hs : LoopsBounded s) :
    Costs host (assignTo machine below scope op value target) s
      (callsCost p host weight (callsInTarget target))
      fun _ l => KeepsLocals scope (assignsLocal target) s.locals l := by
  match target with
  | .local name =>
    simp only [assignTo]
    split_ifs with hname
    · refine metered_get_bind ?_
      refine costs_orTrap_bind (fun _ l =>
        KeepsLocals scope (assignsLocal (.local name)) s.locals l)
        hs fun new _ => ?_
      refine (costs_setLocal hs).mono (by simp) fun _ s₁ hl₁ => ?_
      rw [hl₁]
      intro other hother
      by_cases heq : other = name
      · subst heq
        rw [update_self, type_coerce]
        exact ⟨rfl, fun hass => by simp [assignsLocal] at hass⟩
      · rw [update_of_ne heq]
        exact ⟨rfl, fun _ => rfl⟩
    · refine (costs_assignPlace op value _ hs).mono (by simp) fun _ s₁ hl₁ => ?_
      rw [hl₁]
      exact .refl
  | .globalPath path =>
    refine (costs_assignPlace op value _ hs).mono (by simp) fun _ s₁ hl₁ => ?_
    rw [hl₁]
    exact .refl
  | .indexedPath collectionPath index suffix nestedIndex =>
    rw [callsInTarget, callsCost_append]
    refine (h.eval scope _ index s hs rfl).bind fun i s₁ hs₁ hl₁ => ?_
    refine (costs_evalNestedIndex h hs₁ hl₁ scope nestedIndex).bind_free fun j s₂ hs₂ hl₂ => ?_
    refine (costs_assignPlace op value _ hs₂).mono le_rfl fun _ s₃ hl₃ => ?_
    rw [hl₃, hl₂]
    exact .refl

lemma costs_execAll (h : Accounts p machine host weight below)
    (hexact : ExactAll p machine functionId scope types statements types') (hs : LoopsBounded s)
    (hresp : Respects scope types s.locals) :
    Costs host (execAll below functionId scope statements) s
      (boundedCost p host weight (callsInStatements p functionId scope statements))
      fun _ l => KeepsLocals scope (fun name => statementsAssignLocal name statements)
        s.locals l := by
  induction statements generalizing scope types s with
  | nil => exact metered_pure hs .refl
  | cons statement rest ih =>
    obtain _ | ⟨hstmt, hrest⟩ := hexact
    rw [callsInStatements, boundedCost_append]
    refine (h.exec s hstmt hs hresp).bind ?_
    rintro signal s₁ hs₁ ⟨hkeeps, hresp₁⟩
    have hkeeps' : KeepsLocals scope
        (fun name => statementsAssignLocal name (statement :: rest)) s.locals s₁.locals :=
      hkeeps.mono (List.Subset.refl _) fun name hname => by
        simp only [statementsAssignLocal, Bool.or_eq_false_iff] at hname
        exact hname.1
    cases signal with
    | next =>
      refine (ih hrest hs₁ hresp₁).mono le_rfl fun _ s₂ hresKe => hkeeps'.trans ?_
      exact hresKe.mono (subset_after scope statement) fun name hname => by
        simp only [statementsAssignLocal, Bool.or_eq_false_iff] at hname
        exact hname.2
    | continue_ | return_ value => exact metered_pure hs₁ hkeeps'

/-- A loop in which `before k` holds before the test of round `k`, and `running k` while
the round runs. -/
lemma costs_rounds (before running : ℕ → Locals → Prop) (post : Locals → Prop)
    (conditionCost stepCost : ℕ∞) (bodyCost left : ℕ → ℕ∞)
    (hleft : ∀ k, conditionCost + (bodyCost k + stepCost) + left (k + 1) ≤ left k)
    (hcond : ∀ k s, LoopsBounded s → before k s.locals → Costs host condition s conditionCost
      fun test l => post l ∧ (test = true → running k l))
    (hbound : ∀ k l, running k l → ∀ n, bound = some n → k < n)
    (hbody : ∀ k s, LoopsBounded s → running k s.locals → Costs host body s (bodyCost k)
      fun _ l => post l ∧ running k l)
    (hstep : ∀ k s, LoopsBounded s → running k s.locals → Costs host step s stepCost
      fun _ l => before (k + 1) l) (fuel k : ℕ) (hs : LoopsBounded s) (hbef : before k s.locals) :
    Costs host (repeatRounds .fuel (loopRound bound condition body step) fuel k) s (left k)
      fun _ l => post l := by
  refine metered_repeatRounds (fun k s => before k s.locals)
    (fun k => conditionCost + (bodyCost k + stepCost)) left hleft ?_ fuel k s hs hbef
  intro k s hs hbef
  refine (hcond k s hs hbef).bind ?_
  rintro test s₁ hs₁ ⟨hpost, hrun⟩
  rcases test with _ | _
  · exact metered_pure hs₁ ⟨fun _ _ => hpost, nofun⟩
  have hrun := hrun rfl
  have hrec : Costs host (record (.iteration bound (k + 1))) s₁ 0 fun _ l => l = s₁.locals :=
    costs_record_iteration hs₁ fun n hn => hbound k _ hrun n hn
  refine hrec.free_bind fun _ s₂ hs₂ hl₂ => ?_
  refine (hbody k s₂ hs₂ (hl₂ ▸ hrun)).bind ?_
  rintro signal s₃ hs₃ ⟨hpost, hrun⟩
  cases signal with
  | return_ value => exact metered_pure hs₃ ⟨fun _ _ => hpost, nofun⟩
  | _ =>
    refine (hstep k s₃ hs₃ hrun).bind_free fun _ s₄ hs₄ hbef => ?_
    exact metered_pure hs₄ ⟨nofun, fun _ => hbef⟩

lemma callsInExpr_of_evalConstI64 (h : e.evalConstI64 = some value) : callsInExpr e = [] := by
  fun_induction SimpleExpr.evalConstI64 e generalizing value with
  | case1 => rfl
  | case2 => rfl
  | case3 operand ih =>
    obtain ⟨_, hope, -⟩ := Option.bind_eq_some_iff.mp h
    exact ih hope
  | case4 operand ih =>
    obtain ⟨_, hope, -⟩ := Option.map_eq_some_iff.mp h
    exact ih hope
  | case5 lhs op rhs l r hr hl ihl ihr => rw [callsInExpr, ihl hl, ihr hr, append_nil]
  | case6 => cases h
  | case7 => cases h

lemma callsInExpr_of_evalInteger (h : evalInteger ctx e = some value) : callsInExpr e = [] := by
  cases e with
  | identifier path => rfl
  | _ => exact callsInExpr_of_evalConstI64 h

lemma callsInHeader (h : staticForMaxIterations ctx init condition step body = some n) :
    callsInCondition condition = [] ∧
      ∀ functionId scope, callsInStatement ctx functionId scope step = [] := by
  simp only [staticForMaxIterations, Option.bind_eq_bind, Option.bind_eq_some_iff] at h
  obtain ⟨header, hhead, start, -, h⟩ := h
  split_ifs at h
  · cases h
  obtain ⟨stop, hstop, h⟩ := Option.bind_eq_some_iff.mp h
  obtain ⟨increment, hincr, -⟩ := Option.bind_eq_some_iff.mp h
  obtain ⟨-, hend, hadd⟩ := forHeader_eq hhead
  constructor
  · unfold forEnd at hend
    split at hend
    · split_ifs at hend
      cases hend
      rw [callsInCondition, callsInExpr_of_evalInteger hstop]
      rfl
    · cases hend
  · intro functionId scope
    unfold forIncrement at hadd
    split at hadd
    · split_ifs at hadd
      cases hadd
      rw [callsInStatement, callsInExpr_of_evalInteger hincr]
      rfl
    · split_ifs at hadd
      cases hadd
      rw [callsInStatement, callsInExpr, callsInExpr_of_evalInteger hincr]
      rfl
    · cases hadd

lemma costs_controlStatement (h : Accounts p machine host weight below)
    (hexact : Exact p machine functionId scope types statement types')
    (hbud : isForControlStatement statement = true →
      boundedCost p host weight (callsInStatement p functionId scope statement) ≤ budget)
    (hs : LoopsBounded s) (hresp : Respects scope types s.locals) :
    Costs host (controlStatement below functionId scope statement) s budget
      fun _ l =>
        KeepsLocals scope (fun name => statementAssignsLocal name statement) s.locals l ∧
          Respects (scope.after statement) types' l := by
  unfold controlStatement
  split_ifs with hcon
  · refine mono ?_ (hbud hcon) fun _ _ hpost => hpost
    exact (h.exec s hexact hs hresp).bind_free fun _ s₁ hs₁ hpost => metered_pure hs₁ hpost
  · exact metered_throw hs

lemma controlStatement_returns
    (h : controlStatement (interpreter p machine fuel) functionId scope statement s = .ok () s') :
    ∃ lower signal, fuel = lower + 1 ∧
      execStatement p machine (interpreter p machine lower) functionId scope statement s =
        .ok signal s' := by
  unfold controlStatement at h
  split_ifs at h
  · obtain ⟨signal, s₁, hexec, hpure⟩ := bind_eq_ok h
    cases hpure
    cases fuel with
    | zero => cases hexec
    | succ lower => exact ⟨lower, signal, rfl, hexec⟩
  · cases h

lemma boundedCost_control (h : isForControlStatement statement = true) (scope scope' : Scope) :
    boundedCost ctx host weight (callsInStatement ctx functionId scope statement) =
      boundedCost ctx host weight (callsInStatement ctx functionId scope' statement) := by
  cases statement <;> simp [isForControlStatement] at h <;> simp [callsInStatement]

lemma add_top_mul (c : ℕ∞) : c + ⊤ * c = ⊤ * c := by
  rw [← one_add_mul, add_top]

lemma add_mul_sub (c : ℕ∞) (h : k < n) :
    c + ((n - (k + 1) : ℕ) : ℕ∞) * c = ((n - k : ℕ) : ℕ∞) * c := by
  rw [← one_add_mul, show n - k = 1 + (n - (k + 1)) by omega, Nat.cast_add, Nat.cast_one]

/-- What round `k` of a loop may cost, and what is left before it. -/
def roundCost (bound : Option ℕ) (cost : ℕ∞) (k : ℕ) : ℕ∞ :=
  match bound with
  | some n => if k < n then cost else 0
  | none => cost

def costLeft (bound : Option ℕ) (cost : ℕ∞) (k : ℕ) : ℕ∞ :=
  match bound with
  | some n => ((n - k : ℕ) : ℕ∞) * cost
  | none => ⊤ * cost

lemma roundCost_add_costLeft (bound : Option ℕ) (cost : ℕ∞) (k : ℕ) :
    roundCost bound cost k + costLeft bound cost (k + 1) ≤ costLeft bound cost k := by
  cases bound with
  | none => exact (add_top_mul cost).le
  | some n =>
    simp only [roundCost, costLeft]
    split_ifs with hk
    · exact (add_mul_sub cost hk).le
    · simp [show n - k = 0 by omega, show n - (k + 1) = 0 by omega]

lemma costLeft_zero (bound : Option ℕ) (cost : ℕ∞) :
    costLeft bound cost 0 = ofBound bound * cost := by
  cases bound <;> rfl

lemma add_roundCost_add_costLeft (h : ∀ n, bound = some n → a = 0 ∧ d = 0) (k : ℕ) :
    a + (roundCost bound b k + d) + costLeft bound (a + (b + d)) (k + 1) ≤
      costLeft bound (a + (b + d)) k := by
  cases bound with
  | none => exact roundCost_add_costLeft none _ k
  | some n =>
    obtain ⟨rfl, rfl⟩ := h n rfl
    simpa only [zero_add, add_zero] using roundCost_add_costLeft (some n) b k

lemma le_roundCost (h : ∀ n, bound = some n → k < n) : cost ≤ roundCost bound cost k := by
  cases bound with
  | none => exact le_rfl
  | some n =>
    simp only [roundCost]
    rw [if_pos (h n rfl)]

section For

variable {init : SimpleStmt} {condition : SimpleCondition} {step : SimpleStmt}
  {body : List SimpleStmt}

/-- While the loop has a bound, the counter has the value it has in round `k`. -/
def Counted {bound : Option ℕ}
    (c : ∀ n, bound = some n → ExactCount p machine scope types init condition step body n)
    (k : ℕ) (l : Locals) : Prop :=
  ∀ n (hn : bound = some n),
    l (c n hn).header.counter = .ofLane (c n hn).lane (BitVec.ofInt 32 ((c n hn).value k)) ∧ k ≤ n

variable (h : Accounts p machine host weight (interpreter p machine fuel))
  (hframe : ∀ lower, fuel = lower + 1 → EvalKeepsLocals (interpreter p machine lower))
  (hbody : ExactAll p machine functionId (scope.after init) loopTypes body bodyTypes)
  (hstep : Exact p machine functionId (scopeAfterAll (scope.after init) body) (fun _ => none) step
    stepTypes) (hs : LoopsBounded s)
include h hframe hbody hstep hs

lemma costs_forRounds
    (c : ∀ n, bound = some n → ExactCount p machine scope types init condition step body n)
    (hfree : ∀ n, bound = some n → callsInCondition condition = [] ∧
      ∀ functionId scope, callsInStatement p functionId scope step = [])
    (hresp : Respects (scope.after init) loopTypes s.locals) (hctr : Counted c 0 s.locals) :
    Costs host (repeatRounds .fuel (loopRound bound
        ((interpreter p machine fuel).condition (scope.after init) condition)
        (execAll (interpreter p machine fuel) functionId (scope.after init) body)
        (controlStatement (interpreter p machine fuel) functionId
          (scopeAfterAll (scope.after init) body) step))
      (interpreter p machine fuel).fuel 0) s
      (ofBound bound * (callsCost p host weight (callsInCondition condition) +
        (boundedCost p host weight (callsInStatements p functionId (scope.after init) body) +
          boundedCost p host weight (callsInStatement p functionId (scope.after init) step))))
      fun _ l => KeepsLocals (scope.after init) (fun name => statementAssignsLocal name step ||
        statementsAssignLocal name body) s.locals l := by
  let keeps := KeepsLocals (scope.after init) (fun name => statementAssignsLocal name step ||
    statementsAssignLocal name body) s.locals
  rw [← costLeft_zero]
  refine costs_rounds (fun k l => keeps l ∧ Counted c k l)
    (fun k l => (keeps l ∧ Counted c k l) ∧ ∀ n, bound = some n → k < n) keeps _ _
    (roundCost bound _) (costLeft bound _) (fun k => add_roundCost_add_costLeft (fun n hn => ?_) k)
    ?_ (fun k l hrun => hrun.2) ?_ ?_ _ 0 hs ⟨.refl, hctr⟩
  · rw [(hfree n hn).1, (hfree n hn).2]
    exact ⟨rfl, rfl⟩
  · rintro k s₁ hs₁ ⟨hkeeps, hctr⟩
    refine mono (and_ok (fun test _ => test = true → ∀ n, bound = some n → k < n)
      (h.condition _ condition s₁ hs₁ rfl) ?_) le_rfl ?_
    · rintro test s₂ hok rfl n hn
      exact (c n hn).lt_of_condition (hctr n hn).2 (hctr n hn).1 hok
    · rintro test s₂ ⟨hl, hk⟩
      rw [hl]
      exact ⟨hkeeps, fun htrue => ⟨⟨hkeeps, hctr⟩, hk htrue⟩⟩
  · rintro k s₁ hs₁ ⟨⟨hkeeps, hctr⟩, hk⟩
    refine (costs_execAll h hbody hs₁ (hkeeps.respects hresp)).mono (le_roundCost hk) ?_
    intro signal s₂ hbodKe
    have hkeeps₂ : keeps s₂.locals := hkeeps.trans
      (hbodKe.mono (List.Subset.refl _) fun name hname => (Bool.or_eq_false_iff.mp hname).2)
    refine ⟨hkeeps₂, ⟨hkeeps₂, fun n hn => ⟨?_, (hctr n hn).2⟩⟩, hk⟩
    exact ((hbodKe _ (c n hn).counter_local).2 (c n hn).counter_kept).trans (hctr n hn).1
  · rintro k s₁ hs₁ ⟨⟨hkeeps, hctr⟩, hk⟩
    have hcosts := costs_controlStatement h hstep (fun hcon =>
      (boundedCost_control hcon _ (scope.after init)).le) hs₁ fun _ _ _ hnone => nomatch hnone
    refine mono (and_ok (fun _ s' => Counted c (k + 1) s'.locals) hcosts ?_) le_rfl ?_
    · rintro ⟨⟩ s₂ hok n hn
      obtain ⟨lower, signal, hfuel, hexec⟩ := controlStatement_returns hok
      have hfits := (c n hn).value_fits (k := k + 1) (hk n hn)
      refine ⟨?_, hk n hn⟩
      rw [(c n hn).value_succ] at hfits ⊢
      exact (c n hn).step_returns (hframe lower hfuel) hs₁ (hctr n hn).1 hfits hexec
    · rintro _ s₂ ⟨⟨hsteKe, -⟩, hctr₂⟩
      refine ⟨hkeeps.trans (hsteKe.mono (subset_scopeAfterAll _ body) ?_), hctr₂⟩
      exact fun name hname => (Bool.or_eq_false_iff.mp hname).1

lemma costs_execFor (hinit : Exact p machine functionId scope types init loopTypes)
    (hcount : ∀ n, staticForMaxIterations p init condition step body = some n →
      Nonempty (ExactCount p machine scope types init condition step body n))
    (hresp : Respects scope types s.locals) :
    Costs host (execFor p (interpreter p machine fuel) functionId scope init condition step body) s
      (boundedCost p host weight (callsInStatement p functionId
        scope (.for_ init condition step body)))
      fun _ l => KeepsLocals scope (fun name =>
        statementAssignsLocal name (.for_ init condition step body)) s.locals l := by
  simp only [callsInStatement, boundedCost_append, boundedCost_inLoop, boundedCost_unlooped]
  let c := fun n hn => Classical.choice (hcount n hn)
  have hfirst := and_ok (fun _ s' => Counted c 0 s'.locals)
    (costs_controlStatement h hinit (fun _ => le_rfl) hs hresp) (by
      rintro ⟨⟩ s₁ hok n hn
      obtain ⟨lower, signal, hfuel, hexec⟩ := controlStatement_returns hok
      exact ⟨(c n hn).init_returns (hframe lower hfuel) hs hresp hexec, Nat.zero_le n⟩)
  refine hfirst.bind ?_
  rintro ⟨⟩ s₁ hs₁ ⟨⟨hkeeps, hresp₁⟩, hctr⟩
  refine (costs_forRounds h hframe hbody hstep hs₁ c (fun n => callsInHeader) hresp₁ hctr).mono
    le_rfl fun _ s₂ hloop => ?_
  refine (hkeeps.mono (List.Subset.refl _) fun name hname => ?_).trans
    (hloop.mono (subset_after scope init) fun name hname => ?_) <;>
    simp only [statementAssignsLocal, Bool.or_eq_false_iff] at hname
  · exact hname.1.1
  · exact Bool.or_eq_false_iff.mpr ⟨hname.1.2, hname.2⟩

end For

section Foreach

lemma foreachLen_lt (h : foreachLen p scope typeOf collectionPath = some len) : len < 2 ^ 31 := by
  unfold foreachLen at h
  split at h
  · rename_i name _
    cases htype : typeOf name <;> simp [htype, fixedCollectionLen] at h <;> omega
  · exact of_decide_eq_true (Option.filter_eq_some_iff.mp h).2

lemma respects_foreachScope (hresp : Respects scope types l)
    (hindex : (l (foreachIndexVar itemName indexName)).type = .scalar .i32) :
    Respects (foreachScope p scope itemName indexName collectionPath)
      (update types (foreachIndexVar itemName indexName) (some (.scalar .i32))) l := by
  intro name hname type htype
  by_cases heq : name = foreachIndexVar itemName indexName
  · subst heq
    rw [update_self] at htype
    cases htype
    exact hindex
  · rw [update_of_ne heq] at htype
    exact hresp name ((mem_cons.mp hname).resolve_left heq) type htype

lemma costs_execForeach (h : Accounts p machine host weight below)
    (hfresh : foreachIndexVar itemName indexName ∉ scope.values)
    (hbody : ExactAll p machine functionId (foreachScope p scope itemName indexName collectionPath)
      (update types (foreachIndexVar itemName indexName) (some (.scalar .i32)))
      body bodyTypes)
    (hexact : ∀ n, foreachMaxIterations p functionId scope collectionPath = some n →
      ExactForeach p scope types itemName indexName collectionPath body n)
    (hs : LoopsBounded s) (hresp : Respects scope types s.locals) :
    Costs host (execForeach p below functionId scope itemName indexName collectionPath body) s
      (boundedCost p host weight (callsInStatement p functionId
        scope (.foreach itemName indexName collectionPath body)))
      fun _ l => KeepsLocals scope (fun name => statementsAssignLocal name body)
        s.locals l := by
  set index := foreachIndexVar itemName indexName with hindex
  set bound := foreachMaxIterations p functionId scope collectionPath with hbound
  refine metered_get_bind ?_
  refine costs_orTrap_bind (fun _ l => KeepsLocals scope
    (fun name => statementsAssignLocal name body) s.locals l) hs fun len hlen => ?_
  have hsmall := foreachLen_lt hlen
  have hlen_le : ∀ n, bound = some n → len ≤ n := fun n hn => (hexact n hn).len_le _ hresp len hlen
  set cost := boundedCost p host weight (callsInStatements p
    functionId (foreachScope p scope itemName indexName collectionPath) body)
  rw [callsInStatement, boundedCost_inLoop, ← hbound, ← costLeft_zero]
  refine (costs_setLocal hs).free_bind fun _ s₁ hs₁ hl₁ => ?_
  -- while the loop has a bound, the index is the number of rounds
  let counter := fun (k : ℕ) (l : Locals) =>
    ∀ n, bound = some n → l index = .ofLane .i32 (BitVec.ofNat 32 k) ∧ k ≤ len
  let keeps := fun l : Locals =>
    KeepsLocals scope (fun name => statementsAssignLocal name body) s.locals l ∧
      (l index).type = .scalar .i32
  have hupd : ∀ {l : Locals} (word : Word),
      KeepsLocals scope (fun name => statementsAssignLocal name body) s.locals l →
        keeps (update l index (.ofLane .i32 word)) := by
    intro l word hl
    refine ⟨hl.trans (keepsLocals_update hfresh), ?_⟩
    rw [update_self]
    rfl
  refine mono (costs_rounds (fun k l => keeps l ∧ counter k l)
    (fun k l => (keeps l ∧ counter k l) ∧ ∀ n, bound = some n → k < len) keeps 0 0
    (roundCost bound cost) (costLeft bound cost) ?_ ?_ ?_ ?_ ?_ _ 0 hs₁ ?_) le_rfl
    fun _ s₂ hkeeps => hkeeps.1
  · intro k
    rw [zero_add, add_zero]
    exact roundCost_add_costLeft bound cost k
  · rintro k s₂ hs₂ ⟨hkeeps, hctr⟩
    refine metered_get_bind (metered_pure hs₂ ⟨hkeeps, fun htest => ⟨⟨hkeeps, hctr⟩, ?_⟩⟩)
    intro n hn
    obtain ⟨hvalue, hk⟩ := hctr n hn
    have hk' : k < 2 ^ 31 := hk.trans_lt hsmall
    rw [hvalue, Value.word_ofLane, Word.less, if_neg (by decide), Word.slt_of_lt
      (by rwa [Word.toNat_ofNat hk']) (by rwa [Word.toNat_ofNat hsmall]), Word.toNat_ofNat hk',
      Word.toNat_ofNat hsmall] at htest
    exact of_decide_eq_true htest
  · rintro k l ⟨-, hk⟩ n hn
    exact (hk n hn).trans_le (hlen_le n hn)
  · rintro k s₂ hs₂ ⟨⟨hkeeps, hctr⟩, hk⟩
    have hcosts := costs_execAll h hbody hs₂
      (respects_foreachScope (hkeeps.1.respects hresp) hkeeps.2)
    refine hcosts.mono (le_roundCost fun n hn => (hk n hn).trans_le (hlen_le n hn)) ?_
    intro signal s₃ hbodKe
    obtain ⟨htype, hvalue⟩ := hbodKe index mem_cons_self
    have hkeeps₃ : keeps s₃.locals := ⟨hkeeps.1.trans (hbodKe.mono
      (subset_cons_self _ _) fun _ hname => hname), htype.trans hkeeps.2⟩
    refine ⟨hkeeps₃, ⟨hkeeps₃, fun n hn => ?_⟩, hk⟩
    obtain ⟨hindVa, hle⟩ := hctr n hn
    exact ⟨(hvalue (hexact n hn).index_kept).trans hindVa, hle⟩
  · rintro k s₂ hs₂ ⟨⟨hkeeps, hctr⟩, hk⟩
    refine metered_get_bind ((costs_setLocal hs₂).mono le_rfl fun _ s₃ hl₃ => ?_)
    rw [hl₃]
    refine ⟨hupd _ hkeeps.1, fun n hn => ⟨?_, hk n hn⟩⟩
    rw [update_self, (hctr n hn).1, Value.word_ofLane, BitVec.ofNat_add]
    rfl
  · rw [hl₁]
    exact ⟨hupd 0 .refl, fun n _ => ⟨update_self _ _ _, Nat.zero_le len⟩⟩

end Foreach

lemma statementAssignsLocal_target (name : String) (target : AssignTarget) (e : SimpleExpr) :
    (∀ op, statementAssignsLocal name (.assign target op e) = assignsLocal target name) ∧
      ∀ kind, statementAssignsLocal name (.convert target kind e) = assignsLocal target name := by
  cases target <;> exact ⟨fun _ => rfl, fun _ => rfl⟩

lemma statementAssignsLocal_if
    (h : statementAssignsLocal name (.if_ condition thenStatements elseStatements) = false) :
    statementsAssignLocal name thenStatements = false ∧
      statementsAssignLocal name (elseStatements.getD []) = false := by
  cases elseStatements with
  | none => exact ⟨(Bool.or_eq_false_iff.mp h).1, rfl⟩
  | some statements => exact Bool.or_eq_false_iff.mp h

lemma costs_plain (h : Accounts p machine host weight below) (hplain : isPlain statement = true)
    (hs : LoopsBounded s) :
    Costs host (execStatement p machine below functionId scope statement) s
      (boundedCost p host weight (callsInStatement p functionId scope statement))
      fun _ l => KeepsLocals scope (fun name => statementAssignsLocal name statement)
        s.locals l := by
  have hkeeps : ∀ {assigns : String → Bool} {l : Locals}, l = s.locals →
      KeepsLocals scope assigns s.locals l := by
    rintro assigns l rfl
    exact .refl
  cases statement with
  | noop | continue_ | returnVoid => exact metered_pure hs .refl
  | assign target op e =>
    simp only [callsInStatement, boundedCost_unlooped, callsCost_append,
      statementAssignsLocal_target]
    refine metered_get_bind ((h.eval scope _ e s hs rfl).bind fun value s₁ hs₁ hl₁ => ?_)
    refine (costs_assignTo h op value target hs₁).bind_free fun _ s₂ hs₂ hkeeps₂ => ?_
    rw [hl₁] at hkeeps₂
    exact metered_pure hs₂ hkeeps₂
  | convert target kind e =>
    simp only [callsInStatement, boundedCost_unlooped, callsCost_append,
      statementAssignsLocal_target]
    refine (h.eval scope _ e s hs rfl).bind fun value s₁ hs₁ hl₁ => ?_
    refine costs_orTrap_bind (fun _ l => KeepsLocals scope (assignsLocal target) s.locals l) hs₁
      fun converted _ => ?_
    refine (costs_assignTo h .set converted target hs₁).bind_free fun _ s₂ hs₂ hkeeps₂ => ?_
    rw [hl₁] at hkeeps₂
    exact metered_pure hs₂ hkeeps₂
  | expr e =>
    simp only [callsInStatement, boundedCost_unlooped]
    have heval : Costs host (do let _ ← below.eval scope none e; return .next : Run W Signal) s
        (callsCost p host weight (callsInExpr e)) fun _ l => KeepsLocals scope
          (fun name => statementAssignsLocal name (.expr e)) s.locals l :=
      (h.eval scope none e s hs rfl).bind_free fun _ s₁ hs₁ hl₁ => metered_pure hs₁ (hkeeps hl₁)
    cases e with
    | call target args resolvedTarget =>
      exact (costs_evalCall h hs rfl scope ⟨target, args, resolvedTarget⟩).bind_free
        fun _ s₁ hs₁ hl₁ => metered_pure hs₁ (hkeeps hl₁)
    | _ => exact heval
  | return_ e =>
    simp only [callsInStatement, boundedCost_unlooped]
    exact (h.eval scope _ e s hs rfl).bind_free
      fun _ s₁ hs₁ hl₁ => metered_pure hs₁ (hkeeps hl₁)
  | _ => cases hplain

variable (h : Accounts p machine host weight (interpreter p machine fuel))
include h

lemma costs_let (hfresh : name ∉ scope.values) (hknown : ∀ type ∈ known, declared = some type ∨
      declared = none ∧ HasType p machine scope types e type) (hs : LoopsBounded s)
    (hresp : Respects scope types s.locals) :
    Costs host (execStatement p machine (interpreter p machine fuel) functionId scope
        (.let_ name declared e)) s
      (boundedCost p host weight (callsInStatement p functionId scope (.let_ name declared e)))
      fun _ l => KeepsLocals scope (fun _ => false) s.locals l ∧
        Respects (scope.insert name) (update types name known) l := by
  simp only [callsInStatement, boundedCost_unlooped]
  have heval := and_ok
    (fun value s' => (interpreter p machine fuel).eval scope declared e s = .ok value s')
    (h.eval scope declared e s hs rfl) fun _ _ hok => hok
  refine heval.bind_free ?_
  rintro value s₁ hs₁ ⟨hl₁, hok⟩
  refine (costs_setLocal hs₁).bind_free fun _ s₂ hs₂ hl₂ => metered_pure hs₂ ?_
  rw [hl₂, hl₁]
  refine ⟨keepsLocals_update hfresh, fun other hother type htype => ?_⟩
  by_cases heq : other = name
  · subst heq
    rw [update_self] at htype ⊢
    rcases hknown type htype with rfl | ⟨rfl, hhas⟩
    · exact type_coerce type value
    · exact hhas fuel s value s₁ hresp hok
  · rw [update_of_ne heq] at htype ⊢
    exact hresp other ((mem_cons.mp hother).resolve_left heq) type htype

lemma costs_execStatement
    (hframe : ∀ lower, fuel = lower + 1 → EvalKeepsLocals (interpreter p machine lower))
    (hexact : Exact p machine functionId scope types statement types') (hs : LoopsBounded s)
    (hresp : Respects scope types s.locals) :
    Costs host (execStatement p machine (interpreter p machine fuel) functionId scope statement) s
      (boundedCost p host weight (callsInStatement p functionId scope statement))
      fun _ l =>
        KeepsLocals scope (fun name => statementAssignsLocal name statement) s.locals l ∧
          Respects (scope.after statement) types' l := by
  cases hexact with
  | plain hplain =>
    refine (costs_plain h hplain hs).mono le_rfl fun _ s₁ hkeeps => ⟨hkeeps, ?_⟩
    have hscope : scope.after statement = scope := by
      cases statement <;> first | rfl | cases hplain
    rw [hscope]
    exact hkeeps.respects hresp
  | let_ known hfresh hknown =>
    refine (costs_let h hfresh hknown hs hresp).mono le_rfl fun _ s₁ hpost => ⟨?_, hpost.2⟩
    exact hpost.1.mono (List.Subset.refl _) fun _ _ => rfl
  | @if_ _ _ condition thenStatements elseStatements thenTypes elseTypes hthen helse =>
    suffices hsuffices : Costs host (execStatement p machine (interpreter p machine fuel) functionId
        scope (.if_ condition thenStatements elseStatements)) s
        (boundedCost p host weight (callsInStatement p functionId
          scope (.if_ condition thenStatements elseStatements)))
        fun _ l => KeepsLocals scope (fun name => statementAssignsLocal name
          (.if_ condition thenStatements elseStatements)) s.locals l from
      hsuffices.mono le_rfl fun _ s₁ hkeeps => ⟨hkeeps, hkeeps.respects hresp⟩
    simp only [callsInStatement, boundedCost_append, boundedCost_unlooped]
    refine (h.condition scope condition s hs rfl).bind fun test s₁ hs₁ hl₁ => ?_
    have hresp₁ : Respects scope types s₁.locals := hl₁ ▸ hresp
    cases test with
    | true =>
      refine (costs_execAll h hthen hs₁ hresp₁).mono le_self_add fun _ s₂ hkeeps => ?_
      rw [hl₁] at hkeeps
      exact hkeeps.mono (List.Subset.refl _) fun name hname => (statementAssignsLocal_if hname).1
    | false =>
      cases elseStatements with
      | none =>
        refine metered_pure hs₁ ?_
        rw [hl₁]
        exact .refl
      | some statements =>
        refine (costs_execAll h helse hs₁ hresp₁).mono le_add_self fun _ s₂ hkeeps => ?_
        rw [hl₁] at hkeeps
        exact hkeeps.mono (List.Subset.refl _) fun name hname => (statementAssignsLocal_if hname).2
  | for_ hinit hbody hstep hcount =>
    exact (costs_execFor h hframe hbody hstep hs hinit hcount hresp).mono le_rfl
      fun _ s₁ hkeeps => ⟨hkeeps, hkeeps.respects hresp⟩
  | foreach hfresh hbody hexact =>
    refine (costs_execForeach h hfresh hbody hexact hs hresp).mono le_rfl
      fun _ s₁ hkeeps => ⟨?_, hkeeps.respects hresp⟩
    exact hkeeps.mono (List.Subset.refl _) fun _ hname => hname

end Statements

section Functions

variable {W : Type} {p : LinkedProgram} {machine : Machine W} {host : String}
  {weight : FnId → ℕ∞}

variable (params : List (String × TypeKey))

lemma enterParams_of_notMem (values : List Value) (locals : Locals)
    (h : name ∉ params.map Prod.fst) :
    enterParams machine params values locals name = locals name := by
  induction params generalizing values locals with
  | nil => rfl
  | cons param params ih =>
    rw [map_cons, mem_cons, not_or] at h
    cases values with
    | nil => rfl
    | cons value values => rw [enterParams, ih values _ h.2, update_of_ne h.1]

lemma enterParams_type (values : List Value) (locals : Locals)
    (hnodup : (params.map Prod.fst).Nodup) (hlen : values.length = params.length)
    (h : params.lookup name = some type) :
    (enterParams machine params values locals name).type = type := by
  induction params generalizing values locals with
  | nil => cases h
  | cons param params ih =>
    rw [map_cons, nodup_cons] at hnodup
    cases values with
    | nil => cases hlen
    | cons value values =>
      rw [enterParams]
      rw [lookup_cons] at h
      split at h
      · rename_i hname
        obtain rfl : name = param.1 := by simpa using hname
        rw [enterParams_of_notMem _ _ _ hnodup.1, update_self, type_coerce]
        exact Option.some.inj h
      · exact ih values _ hnodup.2 (by simpa using hlen) h

def Covers (p : LinkedProgram) (host : String) (weight : FnId → ℕ∞) : Prop :=
  ∀ id, boundedCost p.toAnalysisContext host weight (callsInFunction p.toAnalysisContext id) ≤
    weight id

lemma costs_invokeFunction (h : Accounts p machine host weight below) (hcov : Covers p host weight)
    {id : FnId} (hexact : ExactFunction p machine id) (values : List Value) (hs : LoopsBounded s)
    (hl : s.locals = locals) :
    Costs host (invokeFunction p machine below id values) s (weight id) fun _ l => l = locals := by
  unfold invokeFunction
  split
  · exact metered_throw hs
  · rename_i function hfunc
    obtain ⟨hnodup, types, hall⟩ := hexact function hfunc
    by_cases hlen : values.length = function.params.length
    · rw [if_neg (not_not.mpr hlen)]
      refine metered_get_bind ?_
      have henter : Costs host (modify fun s : State W => { s with
          locals := enterParams machine function.params values machine.undefined }) s 0 fun _ l =>
            l = enterParams machine function.params values machine.undefined :=
        metered_modify hs le_self_add rfl
      refine henter.free_bind fun _ s₁ hs₁ hl₁ => ?_
      have hresp : Respects function.scope (fun name => function.params.lookup name)
          s₁.locals := by
        intro name _ type htype
        rw [hl₁]
        exact enterParams_type _ _ _ hnodup hlen htype
      have hcost : boundedCost p host weight (callsInStatements
          p id function.scope function.statements) ≤ weight id := by
        have := hcov id
        rwa [callsInFunction, hfunc] at this
      refine ((costs_execAll h hall hs₁ hresp).mono hcost fun _ _ hpost => hpost).bind_free
        fun signal s₂ hs₂ _ => ?_
      have hleave : Costs host (modify fun s' : State W => { s' with locals := s.locals }) s₂ 0
          fun _ l => l = locals := metered_modify hs₂ le_self_add hl
      refine hleave.free_bind fun _ s₃ hs₃ hl₃ => ?_
      cases signal <;> exact metered_pure hs₃ hl₃
    · rw [if_pos hlen]
      exact metered_throw hs

lemma accounts_zero : Accounts p machine host weight (interpreter p machine 0) where
  eval _ _ _ _ hs _ := metered_throw hs
  condition _ _ _ hs _ := metered_throw hs
  exec _ _ hs _ := metered_throw hs
  invoke _ _ _ hs _ := metered_throw hs

lemma Accounts.evalKeepsLocals (h : Accounts p machine host weight I) : EvalKeepsLocals I := by
  intro scope expected e s value s' hs heval
  exact (h.eval scope expected e s hs rfl).of_ok heval

lemma accounts_interpreter (hcov : Covers p host weight)
    (hexact : ∀ id, ExactFunction p machine id) (fuel : ℕ) :
    Accounts p machine host weight (interpreter p machine fuel) := by
  induction fuel using Nat.strong_induction_on with
  | _ fuel ih =>
    cases fuel with
    | zero => exact accounts_zero
    | succ fuel =>
      have h := ih fuel (Nat.lt_succ_self fuel)
      have hframe : ∀ lower, fuel = lower + 1 → EvalKeepsLocals (interpreter p machine lower) :=
        fun lower hlower => (ih lower (by omega)).evalKeepsLocals
      exact
        { eval := fun scope expected e s hs hl => costs_evalExpr h hs hl scope expected e
          condition := fun scope c s hs hl => costs_evalCondition h hs hl scope c
          exec := fun s hstmt hs hresp => costs_execStatement h hframe hstmt hs hresp
          invoke := fun id values s hs hl => costs_invokeFunction h hcov (hexact id) values hs hl }

end Functions

end Stasis.DataFlow
