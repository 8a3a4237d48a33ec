import Stasis.DataFlow.Accounting
import Stasis.DataFlow.Rounds

namespace Stasis.DataFlow

open List
open Stasis.Lang
open Stasis.Runtime (Path TypeKey)

lemma ofBound_add_le (a b : Option ℕ) :
    ofBound a + ofBound b ≤ ofBound (HostCost.mergeHostCallCost a b) := by
  cases a with
  | none => exact le_top
  | some a =>
    cases b with
    | none => exact le_top
    | some b =>
      simp only [HostCost.mergeHostCallCost, checkedAdd, Option.bind_eq_bind, Option.bind_some]
      split_ifs
      · exact (Nat.cast_add a b).ge
      · exact le_top

lemma ofBound_mul_le (a b : Option ℕ) :
    ofBound a * ofBound b ≤ ofBound (do checkedMul (← a) (← b)) := by
  cases a with
  | none => exact le_top
  | some a =>
    cases b with
    | none => exact le_top
    | some b =>
      simp only [checkedMul, Option.bind_eq_bind, Option.bind_some]
      split_ifs
      · exact (Nat.cast_mul a b).ge
      · exact le_top

lemma BoundedCall.times_le (call : BoundedCall) : call.times ≤ ofBound call.maxInvocations := by
  have hfold : ∀ (bounds : List (Option ℕ)) (acc : Option ℕ),
      ofBound acc * (bounds.map ofBound).prod ≤
        ofBound (bounds.foldl (fun parent current => do checkedMul (← parent) (← current)) acc)
          := by
    intro bounds
    induction bounds with
    | nil => simp
    | cons bound bounds ih =>
      intro acc
      rw [map_cons, prod_cons, ← mul_assoc, foldl_cons]
      exact (mul_le_mul_left (ofBound_mul_le acc bound) _).trans (ih _)
  have hone : ofBound (some 1) = 1 := Nat.cast_one
  have hpro := hfold call.bounds (some 1)
  rwa [hone, one_mul] at hpro

namespace HostCost

def times : HostCost → ℕ∞
  | .absent => 0
  | .entry count => ofBound count

lemma times_add_le (a b : HostCost) : a.times + b.times ≤ (a + b).times := by
  cases a with
  | absent => simp [times]
  | entry a =>
    cases b with
    | absent => simp [times]
    | entry b => exact ofBound_add_le a b

lemma sum_times_le (costs : List HostCost) : (costs.map times).sum ≤ costs.sum.times := by
  induction costs with
  | nil => exact le_rfl
  | cons cost costs ih =>
    rw [map_cons, sum_cons, sum_cons]
    exact (add_le_add_right ih _).trans (times_add_le _ _)

lemma mul_times_le_scale (multiplier : Option ℕ) (cost : HostCost) :
    ofBound multiplier * cost.times ≤ (cost.scale multiplier).times := by
  cases cost with
  | absent => simp [times, scale]
  | entry count => exact ofBound_mul_le multiplier count

end HostCost

open HostCost

section Direct

variable {weight : FnId → ℕ∞}

def siteCost (weight : FnId → ℕ∞) (site : CallSite) : ℕ∞ :=
  ofBound site.maxInvocations * weight site.targetId

lemma siteCost_recordCallSite (site : CallSite) (sites : List CallSite) :
    siteCost weight site + (sites.map (siteCost weight)).sum ≤
      ((recordCallSite site sites).map (siteCost weight)).sum := by
  induction sites with
  | nil => exact le_rfl
  | cons existing rest ih =>
    unfold recordCallSite
    split_ifs with hsame
    · have hmer : siteCost weight site + siteCost weight existing ≤ siteCost weight
          { existing with
            maxInvocations := mergeHostCallCost existing.maxInvocations
              site.maxInvocations } := by
        simp only [siteCost, ← hsame.1, ← add_mul]
        rw [add_comm]
        exact mul_le_mul_left (ofBound_add_le _ _) _
      rw [map_cons, map_cons, sum_cons, sum_cons, ← add_assoc]
      exact add_le_add_left hmer _
    · rw [map_cons, map_cons, sum_cons, sum_cons, add_left_comm]
      exact add_le_add_right ih _

variable (calls : List BoundedCall)

lemma siteCost_directCallSites :
    ((calls.filterMap (callSiteOf ctx)).map (siteCost weight)).sum ≤
      ((directCallSites ctx calls).map (siteCost weight)).sum := by
  have hfold : ∀ new sites : List CallSite,
      (new.map (siteCost weight)).sum + (sites.map (siteCost weight)).sum ≤
        ((new.foldl (fun sites site => recordCallSite site sites) sites).map
          (siteCost weight)).sum := by
    intro new
    induction new with
    | nil => simp
    | cons site new ih =>
      intro sites
      rw [map_cons, sum_cons, foldl_cons, add_assoc, add_left_comm]
      exact (add_le_add_right (siteCost_recordCallSite site sites) _).trans (ih _)
  simpa [directCallSites] using hfold (calls.filterMap (callSiteOf ctx)) []

lemma times_directHostCallCosts :
    (calls.map fun call => if (callTargets ctx call.call).host = some host then
        ofBound call.maxInvocations else 0).sum ≤ (directHostCallCosts ctx calls host).times := by
  induction calls with
  | nil => exact le_rfl
  | cons call calls ih =>
    simp only [directHostCallCosts, map_cons, sum_cons, DFinsupp.add_apply] at ih ⊢
    refine le_trans (add_le_add ?_ ih) (times_add_le _ _)
    cases hhost : (callTargets ctx call.call).host with
    | none => simp
    | some name =>
      by_cases hname : name = host
      · subst hname
        simp [times]
      · simp [hname]

lemma boundedCost_le :
    boundedCost ctx host weight calls ≤
      (directHostCallCosts ctx calls host).times +
        ((directCallSites ctx calls).map (siteCost weight)).sum := by
  refine le_trans ?_ (add_le_add (times_directHostCallCosts calls) (siteCost_directCallSites calls))
  induction calls with
  | nil => exact le_rfl
  | cons call calls ih =>
    have hfirst : call.times * callCost ctx host weight call.call ≤
        (if (callTargets ctx call.call).host = some host then ofBound call.maxInvocations else 0) +
          ((callSiteOf ctx call).map (siteCost weight)).getD 0 := by
      rw [callCost, mul_add, add_comm]
      refine add_le_add ?_ ?_
      · split_ifs
        · exact (mul_one call.times).le.trans call.times_le
        · exact (mul_zero call.times).le
      · unfold callSiteOf
        cases (callTargets ctx call.call).internal with
        | none => exact (mul_zero call.times).le
        | some id => exact mul_le_mul_left call.times_le (weight id)
    have hsites : (((call :: calls).filterMap (callSiteOf ctx)).map (siteCost weight)).sum =
        ((callSiteOf ctx call).map (siteCost weight)).getD 0 +
          ((calls.filterMap (callSiteOf ctx)).map (siteCost weight)).sum := by
      rw [filterMap_cons]
      cases callSiteOf ctx call with
      | none => exact (zero_add _).symm
      | some site => rfl
    rw [hsites, map_cons, sum_cons, add_add_add_comm]
    exact add_le_add hfirst ih

end Direct

/-- The calls of `host` that the aggregate effects allow an invocation. -/
def weightOf (aggregates : List EffectSets) (host : String) (id : FnId) : ℕ∞ :=
  ((aggregates.getD id {}).hostCallCosts host).times

lemma hostCallCosts_sum (sets : List EffectSets) (host : String) :
    sets.sum.hostCallCosts host = (sets.map fun set => set.hostCallCosts host).sum := by
  induction sets with
  | nil => rfl
  | cons set sets ih =>
    rw [sum_cons, map_cons, sum_cons, ← ih]
    rfl

lemma siteCost_le_callSiteEffects (component : List ℕ) (cyclic : Bool)
    (aggregates : List EffectSets) (host : String) (site : CallSite) :
    siteCost (weightOf aggregates host) site ≤
      ((callSiteEffects component cyclic aggregates site).hostCallCosts host).times := by
  unfold callSiteEffects mergeCallSite siteCost weightOf
  rcases hchild : aggregates[site.targetId]? with _ | child
  · simp [getD, hchild, times]
  have hget : aggregates.getD site.targetId {} = child := by simp [getD, hchild]
  have hsca : ∀ multiplier depth,
      ((mergeSubstitutedEffects site.substitutions false child multiplier depth 0).hostCallCosts
        host) = (child.hostCallCosts host).scale multiplier := by
    intro multiplier depth
    rw [mergeSubstitutedEffects, zero_add]
    rfl
  have hmul : ofBound site.maxInvocations ≤ ofBound
      (if isRecursiveEdge component cyclic site then none else site.maxInvocations) := by
    split_ifs
    · exact le_top
    · exact le_rfl
  rw [hget, hsca]
  exact (mul_le_mul_left hmul _).trans (mul_times_le_scale _ _)

lemma covers_of_aggregates {p : LinkedProgram}
    (h : buildAggregateEffects (directEffects p sets) = .ok aggregates) (host : String) :
    Covers p host (weightOf aggregates host) := by
  intro id
  set direct := directEffects p sets with hdir
  have hpar : Partition direct _ := stronglyConnectedComponents_partition
  have hagg := (buildAggregateEffects_spec direct).1 aggregates h
  have hlen : direct.length = p.functions.length := by simp [hdir, directEffects]
  by_cases hid : id < direct.length
  · obtain ⟨component, cyclic, hnext⟩ := hagg.closed hpar hid
      fun i hi => (hpar.componentOrder_spec.1 i).mpr hi
    have hget : direct.getD id {} = directEffectsOf p sets id := by
      have hrange : id < p.functions.length := hlen ▸ hid
      simp [hdir, directEffects, getD, hrange]
    have hown : (ownEffects direct id).hostCallCosts host = (directHostCallCosts
        p (callsInFunction p id) host).scale (some 1) := by
      rw [ownEffects, hget]
      rfl
    have hsites : callSitesOf direct id = directCallSites p (callsInFunction p id) := by
      rw [callSitesOf, hget]
      rfl
    have hone : ofBound (some 1) = 1 := Nat.cast_one
    rw [weightOf, hnext, nextAggregate_eq, EffectSets.hostCallCosts_add, DFinsupp.add_apply, hown,
      hostCallCosts_sum, map_map, hsites]
    refine (boundedCost_le _).trans (le_trans (add_le_add ?_ ?_) (times_add_le _ _))
    · have hscale := mul_times_le_scale (some 1) (directHostCallCosts p
        (callsInFunction p id) host)
      rwa [hone, one_mul] at hscale
    · refine le_trans (sum_le_sum fun site _ =>
        siteCost_le_callSiteEffects component cyclic aggregates host site) ?_
      exact (congrArg sum (map_map ..)).ge.trans (sum_times_le _)
  · have hnone : callsInFunction p id = [] := by
      rw [callsInFunction, getElem?_eq_none (hlen ▸ Nat.le_of_not_lt hid)]
    rw [hnone]
    exact zero_le

/-- In every run of a program whose loops run as analysed, a loop with a bound starts no
more rounds than that each time it is entered, and an invocation of a function calls a
host function no more often than its aggregate cost says. -/
theorem loops_and_host_calls_stay_within_bounds {W : Type} (p : LinkedProgram)
    (machine : Machine W) (hexact : ∀ id, ExactFunction p machine id) (sets : FnId → EffectSets)
    (aggregates : List EffectSets)
    (hbuild : buildAggregateEffects (directEffects p.toAnalysisContext sets) = .ok aggregates)
    (fuel : ℕ) (id : FnId) (values : List Value) (world : W) :
    (∀ n round, Event.iteration (some n) round ∈ invocationLog p machine fuel id values world →
      round ≤ n) ∧
    ∀ host n, (aggregates.getD id {}).hostCallCosts host = .entry (some n) →
      (invocationLog p machine fuel id values world).count (.host host) ≤ n := by
  have hrun : ∀ host, ∃ s : State W, s.log = invocationLog p machine fuel id values world ∧
      LoopsBounded s ∧ hostCalls host s ≤ weightOf aggregates host id := by
    intro host
    have hcosts := (accounts_interpreter (covers_of_aggregates hbuild host) hexact fuel).invoke id
      values ⟨machine.undefined, world, []⟩ (fun _ _ hmem => nomatch hmem) rfl
    unfold invocationLog
    unfold Costs Metered at hcosts
    split at hcosts <;> rename_i s hresult <;> rw [hresult]
    · exact ⟨s, rfl, hcosts.1, by simpa [hostCalls] using hcosts.2.1⟩
    · exact ⟨s, rfl, hcosts.1, by simpa [hostCalls] using hcosts.2⟩
  constructor
  · intro n round hmem
    obtain ⟨s, hlog, hbounded, -⟩ := hrun ""
    exact hbounded n round (hlog ▸ hmem)
  · intro host n hentry
    obtain ⟨s, hlog, -, hcount⟩ := hrun host
    rw [weightOf, hentry, hostCalls, hlog] at hcount
    exact Nat.cast_le.mp hcount

section Literals

lemma denotes_int (scope : Scope) (expected : Option TypeKey) (value : ℤ) :
    Denotes p machine scope expected (.int value) ((integerContext expected).getD .i32) value := by
  intro fuel s result s' h
  cases fuel with
  | zero => cases h
  | succ fuel =>
    cases h
    rfl

def countingFor (name : String) (op : ComparisonOp) (stop : ℤ) (body : List SimpleStmt) :
    SimpleStmt :=
  .for_ (.let_ name none (.int 0)) (.comparison (.identifier [name]) op (.int stop))
    (.assign (.local name) .add (.int 1)) body

lemma roundsBetween_zero_one (n : ℕ) (hn : n < 2 ^ 31) : roundsBetween .lt 0 n 1 = some n := by
  have hsat : saturatingI64 (n - 0) = n := by
    unfold saturatingI64
    omega
  have hone : Int.toNat 1 = 1 := rfl
  simp only [roundsBetween, hsat, Option.map_some, hone, Nat.div_one, Nat.add_sub_cancel]
  rw [if_neg (by decide), Option.some.injEq]
  split_ifs <;> omega

lemma exact_countingFor {scope : Scope} {types bodyTypes : Types} {name : String} {n : ℕ}
    {body : List SimpleStmt} (hname : name ∉ scope.values) (hn : n < 2 ^ 31)
    (hkept : statementsWriteLocal body name = false)
    (hbody : ExactAll p machine functionId (scope.insert name) (Function.update types name none)
      body bodyTypes) :
    Exact p machine functionId scope types (countingFor name .lt n body) types := by
  refine .for_ (.let_ none hname fun _ hnone => nomatch hnone) hbody (.plain rfl) ?_
  intro m hm
  have hhead : forHeader (.let_ name none (.int 0)) (.comparison (.identifier [name]) .lt (.int n))
      (.assign (.local name) .add (.int 1)) = some ⟨name, .int 0, .lt, .int n, .int 1⟩ := by
    simp [forHeader, forStart, forEnd, forIncrement]
  have hbound : staticForMaxIterations p (.let_ name none (.int 0))
      (.comparison (.identifier [name]) .lt (.int n)) (.assign (.local name) .add (.int 1)) body =
        some n := by
    simp [staticForMaxIterations, hhead, evalInteger, SimpleExpr.evalConstI64, hkept,
      roundsBetween_zero_one n hn]
  obtain rfl := Option.some.inj (hbound.symm.trans hm)
  exact ⟨{
    header := _, header_eq := hhead, start := 0, stop := n, increment := 1
    rounds_eq := roundsBetween_zero_one n hn
    counter_local := (.head _)
    counter_kept := hkept
    lane := .i32
    startLane := .i32
    stopLane := .i32
    incrementLane := .i32
    counts_in := rfl
    start_denotes := denotes_int _ _ _
    stop_denotes := denotes_int _ _ _
    increment_denotes := denotes_int _ _ _
    start_fits := rfl
    last_fits := by
      simp [Native.Lane.integerLiteralFits, Native.Lane.unsignedIntegerBits]
      omega
    stop_fits := by
      simp [Native.Lane.integerLiteralFits, Native.Lane.unsignedIntegerBits]
      omega
    signs := fun _ => ⟨le_rfl, Int.natCast_nonneg n⟩ }⟩

end Literals

/-- A machine without storage whose host functions return nothing. -/
def idleMachine : Machine Unit where
  undefined := fun _ => .ofLane .i32 0
  literal := fun _ _ => .ofLane .i32 0
  coerceBits := fun _ value => value.bits
  primitive := fun _ _ => none
  load := fun _ _ _ => none
  store := fun _ _ _ _ => none
  call := fun _ _ _ => some (none, ())

def printCall (name : String) : SimpleStmt := .expr (.call ["print_i32"] [.identifier [name]] none)

/-- A function that calls another twice in each of three rounds, and the other prints in
each of two. -/
def nestedPrints : LinkedProgram where
  functions :=
    [⟨[], none, [countingFor "i" .lt 3 (List.replicate 2 (.expr (.call ["draw"] []
      (some (.function 1)))))]⟩,
     ⟨[], none, [countingFor "j" .lt 2 [printCall "j"]]⟩]

lemma exact_nestedPrints (id : FnId) : ExactFunction nestedPrints idleMachine id := by
  intro function hfunc
  match id with
  | 0 =>
    cases hfunc
    refine ⟨nodup_nil, _, .cons (exact_countingFor (n := 3) (by simp [FunctionMeta.scope])
      (by decide) rfl (.cons (.plain rfl) (.cons (.plain rfl) .nil))) .nil⟩
  | 1 =>
    cases hfunc
    exact ⟨nodup_nil, _, .cons (exact_countingFor (n := 2) (by simp [FunctionMeta.scope])
      (by decide) rfl (.cons (.plain rfl) .nil)) .nil⟩
  | id + 2 => cases hfunc

/-- The aggregate cost of a host function, where aggregation succeeds. -/
def aggregateCost (ctx : AnalysisContext) (id : FnId) (host : String) : Option HostCost :=
  (buildAggregateEffects (directEffects ctx fun _ => {})).toOption.map fun aggregates =>
    (aggregates.getD id {}).hostCallCosts host

lemma exists_of_aggregateCost {id : FnId} (h : aggregateCost ctx id host = some cost) :
    ∃ aggregates, buildAggregateEffects (directEffects ctx fun _ => {}) = .ok aggregates ∧
      (aggregates.getD id {}).hostCallCosts host = cost := by
  unfold aggregateCost at h
  cases hbuild : buildAggregateEffects (directEffects ctx fun _ => {}) <;> rw [hbuild] at h
  · cases h
  · exact ⟨_, rfl, Option.some.inj h⟩

theorem nested_prints_stay_within_bounds : ∃ aggregates,
    buildAggregateEffects (directEffects nestedPrints.toAnalysisContext fun _ => {}) =
        .ok aggregates ∧
      (aggregates.getD 0 {}).hostCallCosts "print_i32" = .entry (some 12) ∧
        ∀ fuel, (invocationLog nestedPrints idleMachine fuel 0 [] ()).count (.host "print_i32") ≤
          12 := by
  obtain ⟨aggregates, hbuild, hcost⟩ := exists_of_aggregateCost
    (show aggregateCost nestedPrints.toAnalysisContext 0 "print_i32" = some (.entry (some 12)) by
      decide +kernel)
  exact ⟨aggregates, hbuild, hcost, fun fuel =>
    (loops_and_host_calls_stay_within_bounds nestedPrints
    idleMachine exact_nestedPrints _ aggregates hbuild fuel 0 [] ()).2 _ _ hcost⟩

/-- Counts up to the greatest `i32`, which is never passed. -/
def endlessPrints : LinkedProgram where
  functions := [⟨[], none, [countingFor "i" .le 2147483647 [printCall "i"]]⟩]

lemma interpreter_fuel {W : Type} (p : LinkedProgram) (machine : Machine W) (fuel : ℕ) :
    (interpreter p machine fuel).fuel = fuel := by
  induction fuel with
  | zero => rfl
  | succ fuel ih => exact congrArg (· + 1) ih

lemma greatest_not_less (word : Word) :
    Word.less false (BitVec.ofInt 32 2147483647) word = false := by
  have hlt : word.toInt < 2147483648 := BitVec.toInt_lt
  have hgre : (BitVec.ofInt 32 2147483647).toInt = 2147483647 := rfl
  simp only [Word.less, Bool.false_eq_true, if_false, BitVec.slt, hgre, decide_eq_false_iff_not]
  omega

section Endless

def endlessBelow (m : ℕ) : Interpreter Unit := interpreter endlessPrints idleMachine (m + 2)

def endlessScope : Scope := ⟨["i"], [], []⟩

def Counting (s : State Unit) : Prop := ∃ word, s.locals "i" = .ofLane .i32 word

lemma Counting.eq (hs : Counting s) :
    ∃ word, s = { s with locals := Function.update s.locals "i" (.ofLane .i32 word) } := by
  obtain ⟨word, hword⟩ := hs
  refine ⟨word, ?_⟩
  rw [← hword, Function.update_eq_self]

variable (m : ℕ)

lemma endless_condition (hs : Counting s) :
    (endlessBelow m).condition endlessScope
      (.comparison (.identifier ["i"]) .le (.int 2147483647)) s = .ok true s := by
  obtain ⟨word, hword⟩ := hs.eq
  have hrun : (endlessBelow m).condition endlessScope
      (.comparison (.identifier ["i"]) .le (.int 2147483647)) s =
        .ok (!Word.less false (.ofInt 32 2147483647) (Value.ofLane .i32 word).word) s := by
    rw [hword]
    rfl
  rw [hrun, greatest_not_less, Bool.not_false]

lemma endless_step (hs : Counting s) : ∃ locals,
    controlStatement (endlessBelow m) 0 endlessScope (.assign (.local "i") .add (.int 1)) s =
      .ok () { s with locals } ∧ Counting { s with locals } := by
  obtain ⟨word, hword⟩ := hs.eq
  rw [hword]
  exact ⟨_, rfl, _, rfl⟩

def endlessRound (k : ℕ) : Run Unit (Option Signal) :=
  loopRound (some (2 ^ 31))
    ((endlessBelow m).condition endlessScope
      (.comparison (.identifier ["i"]) .le (.int 2147483647)))
    (execAll (endlessBelow m) 0 endlessScope [printCall "i"])
    (controlStatement (endlessBelow m) 0 endlessScope (.assign (.local "i") .add (.int 1))) k

lemma endless_round (k : ℕ) (hs : Counting s) : ∃ s', endlessRound m k s = .ok none s' ∧
    s'.log = .host "print_i32" :: .iteration (some (2 ^ 31)) (k + 1) :: s.log ∧ Counting s' := by
  have hcou : Counting { s with
      log := .host "print_i32" :: .iteration (some (2 ^ 31)) (k + 1) :: s.log } := hs
  obtain ⟨locals, hstep, hnext⟩ := endless_step m hcou
  refine ⟨_, ?_, rfl, hnext⟩
  unfold endlessRound loopRound
  rw [bind_of_ok (endless_condition m hs), if_pos rfl]
  exact bind_of_ok hstep

lemma endless_rounds (fuel k : ℕ) (hs : Counting s) : ∃ s',
    repeatRounds .fuel (endlessRound m) fuel k s = .error .fuel s' ∧ s.log ⊆ s'.log ∧
      s'.log.count (.host "print_i32") = s.log.count (.host "print_i32") + fuel ∧
        (0 < fuel → .iteration (some (2 ^ 31)) (k + fuel) ∈ s'.log) := by
  induction fuel generalizing k s with
  | zero => exact ⟨s, rfl, List.Subset.refl _, rfl, fun h => absurd h (Nat.lt_irrefl 0)⟩
  | succ fuel ih =>
    obtain ⟨s', hround, hlog, hs'⟩ := endless_round m k hs
    obtain ⟨s'', hrest, hsub, hcount, hlast⟩ := ih (k + 1) hs'
    rw [hlog] at hsub hcount
    refine ⟨s'', bind_run hround hrest, ?_, ?_, fun _ => ?_⟩
    · exact fun event h => hsub (.tail _ (.tail _ h))
    · rw [hcount, count_cons_self, count_cons_of_ne Event.noConfusion]
      omega
    · rcases Nat.eq_zero_or_pos fuel with rfl | hfuel
      · exact hsub (.tail _ (.head _))
      · have hend : k + (fuel + 1) = k + 1 + fuel := by omega
        exact hend ▸ hlast hfuel

def endlessStart : State Unit :=
  ⟨Function.update idleMachine.undefined "i" (.ofLane .i32 0), (), []⟩

lemma endless_bound : staticForMaxIterations endlessPrints
    (.let_ "i" none (.int 0)) (.comparison (.identifier ["i"]) .le (.int 2147483647))
    (.assign (.local "i") .add (.int 1)) [printCall "i"] = some (2 ^ 31) := by
  decide +kernel

lemma endless_exec : execFor endlessPrints (endlessBelow m) 0 ⟨[], [], []⟩
    (.let_ "i" none (.int 0)) (.comparison (.identifier ["i"]) .le (.int 2147483647))
    (.assign (.local "i") .add (.int 1)) [printCall "i"] ⟨idleMachine.undefined, (), []⟩ =
      repeatRounds .fuel (endlessRound m) (m + 2) 0 endlessStart := by
  have hinit : controlStatement (endlessBelow m) 0 ⟨[], [], []⟩ (.let_ "i" none (.int 0))
      ⟨idleMachine.undefined, (), []⟩ = .ok () endlessStart := rfl
  unfold execFor
  rw [bind_of_ok hinit, endless_bound, endlessBelow, interpreter_fuel]
  rfl

lemma endless_log
    (hrou : repeatRounds .fuel (endlessRound m) (m + 2) 0 endlessStart = .error .fuel s') :
    invocationLog endlessPrints idleMachine (m + 4) 0 [] () = s'.log := by
  have hexec : (interpreter endlessPrints idleMachine (m + 3)).exec 0 ⟨[], [], []⟩
      (countingFor "i" .le 2147483647 [printCall "i"]) ⟨idleMachine.undefined, (), []⟩ =
        .error .fuel s' := (endless_exec m).trans hrou
  have hall : execAll (interpreter endlessPrints idleMachine (m + 3)) 0 ⟨[], [], []⟩
      [countingFor "i" .le 2147483647 [printCall "i"]] ⟨idleMachine.undefined, (), []⟩ =
        .error .fuel s' := bind_of_error hexec
  have hinv : (interpreter endlessPrints idleMachine (m + 4)).invoke 0 []
      ⟨idleMachine.undefined, (), []⟩ = .error .fuel s' :=
    -- the caller's frame is saved and that of the function entered
    (bind_of_ok rfl).trans ((bind_of_ok rfl).trans (bind_of_error hall))
  rw [invocationLog, hinv]

end Endless

/-- The loop of `endlessPrints` has the bound `2^31`, which it passes. -/
theorem endless_prints_exceed_bounds : ∃ aggregates,
    buildAggregateEffects (directEffects endlessPrints.toAnalysisContext fun _ => {}) =
        .ok aggregates ∧
      (aggregates.getD 0 {}).hostCallCosts "print_i32" = .entry (some (2 ^ 31)) ∧
        ∃ fuel, (2 ^ 31 < (invocationLog endlessPrints idleMachine fuel 0 [] ()).count
            (.host "print_i32")) ∧
          ∃ round > 2 ^ 31, .iteration (some (2 ^ 31)) round ∈
            invocationLog endlessPrints idleMachine fuel 0 [] () := by
  obtain ⟨aggregates, hbuild, hcost⟩ := exists_of_aggregateCost
    (show aggregateCost endlessPrints.toAnalysisContext 0 "print_i32" =
        some (.entry (some (2 ^ 31))) by
      decide +kernel)
  obtain ⟨s', hrounds, -, hcount, hlast⟩ := endless_rounds (2 ^ 31) (2 ^ 31 + 2) 0
    (s := endlessStart) ⟨0, rfl⟩
  refine ⟨aggregates, hbuild, hcost, 2 ^ 31 + 4, ?_⟩
  rw [endless_log _ hrounds]
  refine ⟨?_, _, ?_, hlast (by omega)⟩
  · rw [hcount]
    exact Nat.lt_add_left _ (by omega)
  · omega

end Stasis.DataFlow
