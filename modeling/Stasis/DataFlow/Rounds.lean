import Stasis.DataFlow.Fixpoint
import Stasis.Lib.Rounds

namespace Stasis.DataFlow

open List

inductive Fact
  | effect (effect : Effect)
  | iteration (iteration : FunctionBoundedIteration)

def substituteFact (substitutions : Substitutions) (multiplier : Option ℕ)
    (outerNestingDepth : ℕ) : Fact → Option Fact
  | .effect effect => (substituteEffect substitutions effect).map .effect
  | .iteration iteration => some (.iteration
      (substituteIteration substitutions false multiplier outerNestingDepth iteration))

namespace EffectSets

def Records (sets : EffectSets) : Fact → Prop
  | .effect effect => sets.Has effect
  | .iteration iteration => iteration ∈ sets.boundedIterations

variable {fact : Fact}

lemma records_zero (fact : Fact) : ¬ (0 : EffectSets).Records fact := by
  cases fact with
  | effect effect => exact has_zero effect
  | iteration iteration => exact Finset.notMem_empty _

lemma records_add (a b : EffectSets) :
    (a + b).Records fact ↔ a.Records fact ∨ b.Records fact := by
  cases fact with
  | effect effect => exact has_add a b effect
  | iteration iteration => exact Finset.mem_union

lemma records_sum {l : List EffectSets} :
    l.sum.Records fact ↔ ∃ sets ∈ l, sets.Records fact := by
  induction l with
  | nil => simp [records_zero]
  | cons sets l ih => simp [records_add, ih]

lemma eq_of_records {a b : EffectSets} (h : ∀ fact, a.Records fact ↔ b.Records fact)
    (hcosts : a.hostCallCosts = b.hostCallCosts) : a = b := by
  ext1
  · exact Finset.ext fun path => h (.effect (.read (.global path)))
  · exact Finset.ext fun path => h (.effect (.write (.global path)))
  · exact Finset.ext fun path => h (.effect (.read (.parameter path)))
  · exact Finset.ext fun path => h (.effect (.write (.parameter path)))
  · exact Finset.ext fun name => h (.effect (.call name))
  · exact Finset.ext fun name => h (.effect (.hostCall name))
  · exact Finset.ext fun effect => h (.effect (.hostEffect effect))
  · exact hcosts
  · exact Finset.ext fun iteration => h (.iteration iteration)

end EffectSets

lemma records_substituteEffects {sets : EffectSets} {fact : Fact} :
    (substituteEffects substitutions false multiplier depth sets).Records fact ↔
      ∃ source, sets.Records source ∧
        substituteFact substitutions multiplier depth source = some fact := by
  cases fact with
  | effect effect =>
    refine has_substituteEffects.trans ⟨?_, ?_⟩
    · rintro ⟨source, hsource, heq⟩
      exact ⟨.effect source, hsource, by simp [substituteFact, heq]⟩
    · rintro ⟨source | iteration, hsource, heq⟩
      · exact ⟨source, hsource, by simpa [substituteFact] using heq⟩
      · simp [substituteFact] at heq
  | iteration iteration =>
    simp only [EffectSets.Records, substituteEffects, Finset.mem_image]
    constructor
    · rintro ⟨source, hsource, rfl⟩
      exact ⟨.iteration source, hsource, rfl⟩
    · rintro ⟨effect | source, hsource, heq⟩
      · simp [substituteFact] at heq
      · exact ⟨source, hsource, by simpa [substituteFact] using heq⟩

/-- What a function has through at most `depth` nested calls within its own recursion. -/
inductive Derives (directById : List DirectEffects) : ℕ → ℕ → Fact → Prop
  | own {depth functionId fact} : (ownEffects directById functionId).Records fact →
      Derives directById depth functionId fact
  | outward {depth inner functionId callSite source fact} :
      callSite ∈ callSitesOf directById functionId →
      ¬ Calls directById callSite.targetId functionId →
      Derives directById inner callSite.targetId source →
      substituteFact callSite.substitutions callSite.maxInvocations callSite.outerNestingDepth
        source = some fact →
      Derives directById depth functionId fact
  | within {depth functionId callSite source fact} :
      callSite ∈ callSitesOf directById functionId →
      Calls directById callSite.targetId functionId →
      Derives directById depth callSite.targetId source →
      substituteFact callSite.substitutions none 0 source = some fact →
      Derives directById (depth + 1) functionId fact

/-- Whatever a function of the recursion has, it has through at most as many nested calls
within the recursion as there are functions in it. -/
def SettlesInTime (directById : List DirectEffects) (component : List ℕ) : Prop :=
  ∀ functionId ∈ component, ∀ depth fact, Derives directById depth functionId fact →
    Derives directById component.length functionId fact

variable {directById : List DirectEffects} {component : List ℕ} {fact : Fact}
  {aggregates start result : List EffectSets} {f depth depth' : ℕ} {cyclic : Bool}

lemma Derives.mono (h : Derives directById depth f fact) (hle : depth ≤ depth') :
    Derives directById depth' f fact := by
  induction h generalizing depth' with
  | own hown => exact .own hown
  | outward hcall hout hsource hsub _ => exact .outward hcall hout hsource hsub
  | within hcall hback _ hsub ih =>
    obtain ⟨depth', rfl⟩ : ∃ n, depth' = n + 1 := ⟨depth' - 1, by omega⟩
    exact .within hcall hback (ih (by omega)) hsub

abbrev unbounded (costs : Π₀ _ : String, HostCost) : Π₀ _ : String, HostCost :=
  costs.mapRange (fun _ => HostCost.scale none) fun _ => rfl

lemma unbounded_add (a b : Π₀ _ : String, HostCost) :
    unbounded (a + b) = unbounded a + unbounded b :=
  DFinsupp.ext fun _ => HostCost.scale_none_add _ _

lemma unbounded_idem (a : Π₀ _ : String, HostCost) : unbounded a + unbounded a = unbounded a :=
  DFinsupp.ext fun _ => HostCost.scale_none_idem _

lemma unbounded_unbounded (a : Π₀ _ : String, HostCost) : unbounded (unbounded a) = unbounded a :=
  DFinsupp.ext fun _ => HostCost.scale_none_scale_none _

lemma unbounded_zero : unbounded 0 = 0 := DFinsupp.ext fun _ => rfl

lemma unbounded_sum (l : List (Π₀ _ : String, HostCost)) :
    unbounded l.sum = (l.map unbounded).sum := by
  induction l with
  | nil => exact unbounded_zero
  | cons a l ih => rw [sum_cons, unbounded_add, ih, map_cons, sum_cons]

lemma hostCallCosts_list_sum (l : List EffectSets) :
    l.sum.hostCallCosts = (l.map EffectSets.hostCallCosts).sum := by
  induction l with
  | nil => rfl
  | cons sets l ih => rw [sum_cons, EffectSets.hostCallCosts_add, ih, map_cons, sum_cons]

def recursiveSites (directById : List DirectEffects) (component : List ℕ) (functionId : ℕ) :
    List CallSite :=
  (callSitesOf directById functionId).filter fun callSite => callSite.targetId ∈ component

def outwardSites (directById : List DirectEffects) (component : List ℕ) (functionId : ℕ) :
    List CallSite :=
  (callSitesOf directById functionId).filter fun callSite => callSite.targetId ∉ component

/-- What a function has without the calls inside the component. -/
def baseEffects (directById : List DirectEffects) (component : List ℕ)
    (aggregates : List EffectSets) (functionId : ℕ) : EffectSets :=
  ownEffects directById functionId + ((outwardSites directById component functionId).map
    (callSiteEffects component true aggregates)).sum

/-- What a recursive call makes of the effects of its callee. -/
def throughCall (callSite : CallSite) (sets : EffectSets) : EffectSets :=
  substituteEffects callSite.substitutions false none 0 sets

lemma callSiteEffects_recursive (hrec : callSite.targetId ∈ component)
    (hchild : aggregates[callSite.targetId]? = some child) :
    callSiteEffects component true aggregates callSite = throughCall callSite child := by
  unfold callSiteEffects mergeCallSite
  simp [hchild, isRecursiveEdge, hrec, mergeSubstitutedEffects, throughCall]

lemma nextAggregate_recursive {sets : ℕ → EffectSets}
    (hsets : ∀ f ∈ component, aggregates[f]? = some (sets f))
    (hout : ∀ f ∉ component, aggregates[f]? = start[f]?) (functionId : ℕ) :
    nextAggregate directById component true aggregates functionId =
      baseEffects directById component start functionId +
        ((recursiveSites directById component functionId).map fun callSite =>
          throughCall callSite (sets callSite.targetId)).sum := by
  have hsplit : ∀ callSites : List CallSite,
      (callSites.map (callSiteEffects component true aggregates)).sum =
        ((callSites.filter fun c => c.targetId ∉ component).map
          (callSiteEffects component true start)).sum +
        ((callSites.filter fun c => c.targetId ∈ component).map fun c =>
          throughCall c (sets c.targetId)).sum := by
    intro callSites
    induction callSites with
    | nil => simp
    | cons callSite callSites ih =>
      rw [map_cons, sum_cons, ih]
      by_cases hrec : callSite.targetId ∈ component
      · simp only [filter_cons, hrec, not_true, decide_false, Bool.false_eq_true,
          if_false, decide_true, if_true, map_cons, sum_cons,
          callSiteEffects_recursive hrec (hsets _ hrec)]
        exact add_left_comm _ _ _
      · have hsame : callSiteEffects component true aggregates callSite =
            callSiteEffects component true start callSite := by
          unfold callSiteEffects mergeCallSite
          rw [hout _ hrec]
        simp only [filter_cons, hrec, not_false_eq_true, decide_true, if_true,
          decide_false, Bool.false_eq_true, if_false, map_cons, sum_cons, hsame]
        exact (add_assoc _ _ _).symm
  rw [nextAggregate_eq, hsplit, baseEffects, add_assoc]
  rfl

section Component

variable (directById component) (start : List EffectSets)

def rounds (cyclic : Bool) (n : ℕ) : List EffectSets :=
  (nextRound directById component cyclic)^[n] start

def Stable (cyclic : Bool) (aggregates : List EffectSets) : Prop :=
  ∀ f ∈ component, aggregates[f]? = some (nextAggregate directById component cyclic aggregates f)

variable {directById component start}

lemma rounds_succ (n : ℕ) : rounds directById component start cyclic (n + 1) =
    nextRound directById component cyclic (rounds directById component start cyclic n) :=
  Function.iterate_succ_apply' _ _ _

lemma length_rounds (n : ℕ) :
    (rounds directById component start cyclic n).length = start.length := by
  induction n with
  | zero => rfl
  | succ n ih => rw [rounds_succ, length_nextRound, ih]

section Table

variable (hnodup : component.Nodup) (hwithin : ∀ f ∈ component, f < start.length)
include hnodup hwithin

lemma getElem?_rounds_succ (n g : ℕ) :
    (rounds directById component start cyclic (n + 1))[g]? =
      if g ∈ component then some (nextAggregate directById component cyclic
        (rounds directById component start cyclic n) g)
      else (rounds directById component start cyclic n)[g]? := by
  rw [rounds_succ, getElem?_nextRound hnodup fun f hf => (length_rounds n).symm ▸ hwithin f hf]

lemma getElem?_rounds_of_not_mem (hg : g ∉ component) (n : ℕ) :
    (rounds directById component start cyclic n)[g]? = start[g]? := by
  induction n with
  | zero => rfl
  | succ n ih => rw [getElem?_rounds_succ hnodup hwithin, if_neg hg, ih]

lemma rounds_of_stable
    (h : Stable directById component cyclic (rounds directById component start cyclic n))
    (hle : n ≤ m) : rounds directById component start cyclic m =
      rounds directById component start cyclic n := by
  induction m, hle using Nat.le_induction with
  | base => rfl
  | succ m _ ih =>
    refine (List.ext_getElem? fun g => ?_).trans ih
    rw [getElem?_rounds_succ hnodup hwithin, ih]
    split_ifs with hg
    · exact (h g hg).symm
    · rfl

end Table

lemma settle_isSome_iff (left : ℕ) (n : ℕ) :
    (settle directById component true (left + 1)
        (rounds directById component start true n)).isSome = true ↔
      ∃ m, n ≤ m ∧ m ≤ n + left ∧
        Stable directById component true (rounds directById component start true m) := by
  have hstable : ∀ table : List EffectSets, (component.all fun functionId => table[functionId]? =
      some (nextAggregate directById component true table functionId)) = true ↔
      Stable directById component true table := fun table => by simp [Stable]
  induction left generalizing n with
  | zero =>
    unfold settle
    constructor
    · intro h
      refine ⟨n, Nat.le_refl _, Nat.le_refl _, (hstable _).mp ?_⟩
      by_contra hnot
      simp [hnot, settle] at h
    · rintro ⟨m, hle, hge, h⟩
      obtain rfl : m = n := by omega
      rw [if_pos ((hstable _).mpr h)]
      rfl
  | succ left ih =>
    unfold settle
    by_cases hnow : Stable directById component true (rounds directById component start true n)
    · rw [if_pos ((hstable _).mpr hnow)]
      exact iff_of_true rfl ⟨n, Nat.le_refl _, by omega, hnow⟩
    · rw [if_neg (mt (hstable _).mp hnow), if_pos rfl, ← rounds_succ]
      refine (ih (n + 1)).trans ⟨?_, ?_⟩
      · rintro ⟨m, hle, hge, h⟩
        exact ⟨m, by omega, by omega, h⟩
      · rintro ⟨m, hle, hge, h⟩
        refine ⟨m, ?_, by omega, h⟩
        rcases Nat.lt_or_eq_of_le hle with hlt | rfl
        · exact hlt
        · exact absurd h hnow

lemma exists_rounds_of_settle (n : ℕ)
    (h : settle directById component cyclic left
      (rounds directById component start cyclic n) = some result) :
    ∃ m, result = rounds directById component start cyclic m := by
  induction left generalizing n with
  | zero => cases h
  | succ left ih =>
    unfold settle at h
    split_ifs at h
    · exact ⟨n, (Option.some.inj h).symm⟩
    · exact ih (n + 1) (rounds_succ n ▸ h)
    · exact ⟨n + 1, by rw [rounds_succ, Option.some.inj h]⟩

lemma records_nextAggregate :
    (nextAggregate directById component cyclic aggregates f).Records fact ↔
      (ownEffects directById f).Records fact ∨ ∃ callSite ∈ callSitesOf directById f,
        ∃ child, aggregates[callSite.targetId]? = some child ∧ ∃ source, child.Records source ∧
          substituteFact callSite.substitutions
            (if isRecursiveEdge component cyclic callSite then none else callSite.maxInvocations)
            (if isRecursiveEdge component cyclic callSite then 0
              else callSite.outerNestingDepth) source = some fact := by
  rw [nextAggregate_eq, EffectSets.records_add, EffectSets.records_sum]
  simp only [mem_map, exists_exists_and_eq_and]
  refine or_congr Iff.rfl (exists_congr fun callSite => and_congr_right fun _ => ?_)
  unfold callSiteEffects mergeCallSite
  cases aggregates[callSite.targetId]? with
  | none => simp [EffectSets.records_zero]
  | some child => simp [mergeSubstitutedEffects, records_substituteEffects]

/-- What is known of the table when the turn of a component comes: nothing of its own
functions, and everything of what they call outside. -/
structure Ready (directById : List DirectEffects) (component : List ℕ)
    (start : List EffectSets) : Prop where
  nodup : component.Nodup
  within : ∀ f ∈ component, f < start.length
  empty : ∀ f ∈ component, start[f]? = some 0
  recursive_iff : ∀ f ∈ component, ∀ callSite ∈ callSitesOf directById f,
    callSite.targetId ∈ component ↔ Calls directById callSite.targetId f
  outside : ∀ f ∈ component, ∀ callSite ∈ callSitesOf directById f,
    callSite.targetId ∉ component → ∀ fact,
      (∃ child, start[callSite.targetId]? = some child ∧ child.Records fact) ↔
        ∃ depth, Derives directById depth callSite.targetId fact

namespace Ready

variable (h : Ready directById component start)
include h

lemma records_next (n : ℕ)
    (ih : ∀ g ∈ component, ∃ sets, (rounds directById component start
      (isCyclic directById component) n)[g]? = some sets ∧ ∀ fact, sets.Records fact ↔
        ∃ depth, n = depth + 1 ∧ Derives directById depth g fact)
    (hf : f ∈ component) :
    (nextAggregate directById component (isCyclic directById component)
      (rounds directById component start (isCyclic directById component) n) f).Records fact ↔
        Derives directById n f fact := by
  have hedge : ∀ callSite ∈ callSitesOf directById f, callSite.targetId ∈ component →
      isRecursiveEdge component (isCyclic directById component) callSite = true := by
    intro callSite hcall htarget
    cases hcyc : isCyclic directById component with
    | true => simp [isRecursiveEdge, htarget]
    | false => exact absurd htarget (not_recursive_of_not_cyclic hcyc f hf callSite hcall)
  rw [records_nextAggregate]
  constructor
  · rintro (hown | ⟨callSite, hcall, child, hchild, source, hsource, hsub⟩)
    · exact .own hown
    by_cases htarget : callSite.targetId ∈ component
    · rw [if_pos (hedge callSite hcall htarget), if_pos (hedge callSite hcall htarget)] at hsub
      obtain ⟨sets, hsets, hrecords⟩ := ih _ htarget
      obtain rfl := Option.some.inj (hsets.symm.trans hchild)
      obtain ⟨depth, rfl, hder⟩ := (hrecords source).mp hsource
      exact .within hcall ((h.recursive_iff f hf callSite hcall).mp htarget) hder hsub
    · rw [if_neg (by simp [isRecursiveEdge, htarget]),
        if_neg (by simp [isRecursiveEdge, htarget])] at hsub
      rw [getElem?_rounds_of_not_mem h.nodup h.within htarget] at hchild
      obtain ⟨inner, hder⟩ := (h.outside f hf callSite hcall htarget source).mp
        ⟨child, hchild, hsource⟩
      exact .outward hcall (mt (h.recursive_iff f hf callSite hcall).mpr htarget) hder hsub
  · intro hder
    cases hder with
    | own hown => exact .inl hown
    | @outward _ _ _ callSite source _ hcall hout hder hsub =>
      have htarget := mt (h.recursive_iff f hf callSite hcall).mp hout
      obtain ⟨child, hchild, hsource⟩ :=
        (h.outside f hf callSite hcall htarget source).mpr ⟨_, hder⟩
      refine .inr ⟨callSite, hcall, child, ?_, source, hsource, ?_⟩
      · rw [getElem?_rounds_of_not_mem h.nodup h.within htarget, hchild]
      · rwa [if_neg (by simp [isRecursiveEdge, htarget]),
          if_neg (by simp [isRecursiveEdge, htarget])]
    | @within depth _ callSite source _ hcall hback hder hsub =>
      have htarget := (h.recursive_iff f hf callSite hcall).mpr hback
      obtain ⟨sets, hsets, hrecords⟩ := ih _ htarget
      refine .inr ⟨callSite, hcall, sets, hsets, source, (hrecords source).mpr ⟨_, rfl, hder⟩, ?_⟩
      rwa [if_pos (hedge callSite hcall htarget), if_pos (hedge callSite hcall htarget)]

lemma records_rounds (n : ℕ) (hf : f ∈ component) :
    ∃ sets, (rounds directById component start (isCyclic directById component) n)[f]? =
      some sets ∧ ∀ fact, sets.Records fact ↔
        ∃ depth, n = depth + 1 ∧ Derives directById depth f fact := by
  induction n generalizing f with
  | zero => exact ⟨0, h.empty f hf, fun fact => by simp [EffectSets.records_zero]⟩
  | succ n ih =>
    refine ⟨_, by rw [getElem?_rounds_succ h.nodup h.within, if_pos hf], fun fact => ?_⟩
    rw [h.records_next n (fun g hg => ih hg) hf]
    simp

lemma records_nextAggregate_rounds (n : ℕ) (hf : f ∈ component) :
    (nextAggregate directById component (isCyclic directById component)
      (rounds directById component start (isCyclic directById component) n) f).Records fact ↔
        Derives directById n f fact :=
  h.records_next n (fun _ hg => h.records_rounds n hg) hf

lemma records_of_stable (hstable : Stable directById component (isCyclic directById component)
      (rounds directById component start (isCyclic directById component) n))
    (hf : f ∈ component) : ∃ sets,
      (rounds directById component start (isCyclic directById component) n)[f]? = some sets ∧
        ∀ fact, sets.Records fact ↔ ∃ depth, Derives directById depth f fact := by
  refine ⟨_, hstable f hf, fun fact => ?_⟩
  rw [h.records_nextAggregate_rounds n hf]
  refine ⟨fun hder => ⟨n, hder⟩, fun ⟨depth, hder⟩ => ?_⟩
  -- later rounds are this one
  have hlater := rounds_of_stable h.nodup h.within hstable (Nat.le_add_right n depth)
  rw [← h.records_nextAggregate_rounds n hf, ← hlater, h.records_nextAggregate_rounds _ hf]
  exact hder.mono (Nat.le_add_left _ _)

/-- What the functions of the component hand on of the costs of each other. -/
def handedOn (directById : List DirectEffects) (component : List ℕ) (start : List EffectSets)
    (functionId : ℕ) : Π₀ _ : String, HostCost :=
  ((recursiveSites directById component functionId).map fun callSite =>
    unbounded (baseEffects directById component start callSite.targetId).hostCallCosts).sum

def recursiveCallees (directById : List DirectEffects) (component : List ℕ) (functionId : ℕ) :
    List ℕ :=
  (recursiveSites directById component functionId).map CallSite.targetId

omit h in
lemma unbounded_spread (n g : ℕ) :
    unbounded (spread (recursiveCallees directById component)
      (handedOn directById component start) n g) =
    spread (recursiveCallees directById component) (handedOn directById component start) n g := by
  induction n generalizing g with
  | zero => exact unbounded_zero
  | succ n ih =>
    rw [spread, unbounded_add, unbounded_sum, handedOn, unbounded_sum, map_map, map_map]
    congr 2
    · exact map_congr_left fun _ _ => unbounded_unbounded _
    · exact map_congr_left fun g _ => ih g

lemma costs_nextAggregate {sets : ℕ → EffectSets} (n : ℕ)
    (hsets : ∀ g ∈ component, (rounds directById component start true n)[g]? = some (sets g))
    (f : ℕ) :
    (nextAggregate directById component true
      (rounds directById component start true n) f).hostCallCosts =
      (baseEffects directById component start f).hostCallCosts +
        ((recursiveSites directById component f).map fun callSite =>
          unbounded (sets callSite.targetId).hostCallCosts).sum := by
  rw [nextAggregate_recursive hsets fun g hg => getElem?_rounds_of_not_mem h.nodup h.within hg n,
    EffectSets.hostCallCosts_add, hostCallCosts_list_sum, map_map]
  rfl

lemma costs_rounds (n f : ℕ) :
    (nextAggregate directById component true
      (rounds directById component start true n) f).hostCallCosts =
      (baseEffects directById component start f).hostCallCosts +
        spread (recursiveCallees directById component) (handedOn directById component start)
          n f := by
  induction n generalizing f with
  | zero =>
    have hempty : ∀ g ∈ component,
        (rounds directById component start true 0)[g]? = some ((fun _ => 0 : ℕ → EffectSets) g) :=
      h.empty
    rw [h.costs_nextAggregate 0 hempty, spread]
    congr 1
    refine sum_eq_zero fun x hx => ?_
    obtain ⟨callSite, -, rfl⟩ := mem_map.mp hx
    exact unbounded_zero
  | succ n ih =>
    have hsets : ∀ g ∈ component, (rounds directById component start true (n + 1))[g]? =
        some (nextAggregate directById component true
          (rounds directById component start true n) g) := fun g hg => by
      rw [getElem?_rounds_succ h.nodup h.within, if_pos hg]
    rw [h.costs_nextAggregate (n + 1) hsets, spread, handedOn, recursiveCallees, map_map]
    simp only [ih, unbounded_add, unbounded_spread, sum_map_add]
    rfl

/-- A recursion that has everything in time is stable after one round more than it has
functions: the costs always are. -/
lemma stable_of_settlesInTime (hcyc : isCyclic directById component = true)
    (hin : SettlesInTime directById component) :
    Stable directById component true
      (rounds directById component start true (component.length + 1)) := by
  intro f hf
  rw [getElem?_rounds_succ h.nodup h.within, if_pos hf]
  refine congrArg some (EffectSets.eq_of_records (fun fact => ?_) ?_)
  · have hrecords : ∀ n, (nextAggregate directById component (isCyclic directById component)
        (rounds directById component start (isCyclic directById component) n) f).Records fact ↔
          Derives directById n f fact := fun n => h.records_nextAggregate_rounds n hf
    rw [hcyc] at hrecords
    rw [hrecords, hrecords]
    exact ⟨fun hder => hder.mono (Nat.le_succ _), hin f hf _ fact⟩
  · have hcard : component.toFinset.card = component.length := toFinset_card_of_nodup h.nodup
    rw [h.costs_rounds, h.costs_rounds, ← hcard]
    congr 1
    refine (spread_stable (fun k => ?_) (fun k _ g hg => ?_) (mem_toFinset.mpr hf)).symm
    · rw [handedOn, ← sum_map_add]
      exact congrArg sum (map_congr_left fun _ _ => unbounded_idem _)
    · obtain ⟨callSite, hcall, rfl⟩ := mem_map.mp hg
      exact mem_toFinset.mpr (of_decide_eq_true (mem_filter.mp hcall).2)

lemma settle_isSome_iff_settlesInTime :
    (settle directById component (isCyclic directById component) (component.length + 2)
      start).isSome = true ↔ SettlesInTime directById component := by
  cases hcyc : isCyclic directById component with
  | false =>
    have hsome : (settle directById component false (component.length + 2) start).isSome =
        true := by
      unfold settle
      split_ifs <;> first | rfl | contradiction
    refine iff_of_true hsome fun f hf depth fact hder => ?_
    cases hder with
    | own hown => exact .own hown
    | outward hcall hout hsource hsub => exact .outward hcall hout hsource hsub
    | within hcall hback _ _ =>
      exact absurd ((h.recursive_iff f hf _ hcall).mpr hback)
        (not_recursive_of_not_cyclic hcyc f hf _ hcall)
  | true =>
    refine (settle_isSome_iff (component.length + 1) 0).trans ⟨?_, fun hin => ?_⟩
    · rintro ⟨m, -, hle, hstable⟩ f hf depth fact hder
      have hstable' := hstable
      rw [← hcyc] at hstable'
      obtain ⟨sets, hsets, hrecords⟩ := h.records_of_stable hstable' hf
      obtain ⟨sets', hsets', hrecords'⟩ := h.records_rounds m hf
      obtain rfl := Option.some.inj (hsets.symm.trans hsets')
      obtain ⟨depth', rfl, hder'⟩ := (hrecords' fact).mp ((hrecords fact).mpr ⟨depth, hder⟩)
      exact hder'.mono (by omega)
    · exact ⟨_, Nat.zero_le _, by omega, h.stable_of_settlesInTime hcyc hin⟩

lemma records_of_settle (hset : settle directById component (isCyclic directById component)
      (component.length + 2) start = some result) (hf : f ∈ component) :
    ∃ sets, result[f]? = some sets ∧
      ∀ fact, sets.Records fact ↔ ∃ depth, Derives directById depth f fact := by
  obtain ⟨m, rfl⟩ := exists_rounds_of_settle 0 hset
  exact h.records_of_stable
    (settle_spec h.nodup h.within not_recursive_of_not_cyclic hset).fixed hf

end Ready

end Component

section Program

variable {components : List (List ℕ)}

def Recorded (directById : List DirectEffects) (components : List (List ℕ)) (done : List ℕ)
    (aggregates : List EffectSets) : Prop :=
  ∀ i ∈ done, ∀ component, components[i]? = some component → ∀ f ∈ component,
    ∃ sets, aggregates[f]? = some sets ∧
      ∀ fact, sets.Records fact ↔ ∃ depth, Derives directById depth f fact

lemma lt_of_derives (h : Derives directById depth f fact) : f < directById.length := by
  by_contra hge
  have hnone := List.getElem?_eq_none (Nat.le_of_not_lt hge)
  have hsites : callSitesOf directById f = [] := by simp [callSitesOf, getD, hnone]
  cases h with
  | own hown =>
    have hempty : ownEffects directById f = 0 := by
      simp only [ownEffects, getD, hnone, Option.getD_none]
      exact EffectSets.eq_of_records (fun fact => by
        cases fact with
        | effect effect => exact has_substituteEffects_retain
        | iteration iteration => rfl) (DFinsupp.ext fun _ => rfl)
    exact EffectSets.records_zero _ (hempty ▸ hown)
  | outward hcall _ _ _ => simp [hsites] at hcall
  | within hcall _ _ _ => simp [hsites] at hcall

variable (h : Partition directById components)
include h

lemma Partition.ready {before after : List ℕ}
    (horder : componentOrder directById components = before ++ i :: after)
    (hcomp : components[i]? = some component)
    (ha : Aggregated directById components before aggregates)
    (hr : Recorded directById components before aggregates) :
    Ready directById component aggregates := by
  have hmem : component ∈ components := mem_of_getElem? hcomp
  have hi : i ∉ before := by
    have hnodup := h.componentOrder_spec.2
    rw [horder] at hnodup
    exact fun hin => (nodup_append.mp hnodup).2.2 i hin i mem_cons_self rfl
  refine ⟨h.nodup component hmem, fun f hf => ?_, ha.untouched i hi component hcomp,
    fun f hf callSite hcall => ⟨fun htarget => ?_, fun hback => ?_⟩,
    fun f hf callSite hcall htarget fact => ⟨?_, ?_⟩⟩
  · rw [ha.length_eq]
    exact h.within component hmem f hf
  · exact h.together component hmem _ htarget f hf
  · by_cases hrange : callSite.targetId < directById.length
    · exact h.whole component hmem f hf _ hrange
        (.single (mem_callees.mpr ⟨hrange, callSite, hcall, rfl⟩)) hback
    · -- a target outside the program calls nothing
      rcases Relation.ReflTransGen.cases_head hback with heq | ⟨next, hnext, -⟩
      · exact absurd (heq ▸ h.within component hmem f hf) hrange
      · obtain ⟨-, other, hother, -⟩ := mem_callees.mp hnext
        simp [callSitesOf, getD, List.getElem?_eq_none (Nat.le_of_not_lt hrange)] at hother
  · rintro ⟨child, hchild, hrecords⟩
    have hrange : callSite.targetId < directById.length := by
      rw [← ha.length_eq]
      exact (List.getElem?_eq_some_iff.mp hchild).1
    obtain ⟨j, hj, other, hother, hin⟩ := (h.callees_first horder hcomp hf
      (mem_callees.mpr ⟨hrange, callSite, hcall, rfl⟩)).resolve_left htarget
    obtain ⟨sets, hsets, hexact⟩ := hr j hj other hother _ hin
    obtain rfl := Option.some.inj (hsets.symm.trans hchild)
    exact (hexact fact).mp hrecords
  · rintro ⟨depth, hder⟩
    obtain ⟨j, hj, other, hother, hin⟩ := (h.callees_first horder hcomp hf
      (mem_callees.mpr ⟨lt_of_derives hder, callSite, hcall, rfl⟩)).resolve_left htarget
    obtain ⟨sets, hsets, hexact⟩ := hr j hj other hother _ hin
    exact ⟨sets, hsets, (hexact fact).mpr ⟨depth, hder⟩⟩

lemma Recorded.settle {before after : List ℕ}
    (horder : componentOrder directById components = before ++ i :: after)
    (hcomp : components[i]? = some component)
    (hr : Recorded directById components before aggregates)
    (hready : Ready directById component aggregates)
    (hset : settle directById component (isCyclic directById component) (component.length + 2)
      aggregates = some result) :
    Recorded directById components (before ++ [i]) result := by
  have hsettled := settle_spec hready.nodup hready.within not_recursive_of_not_cyclic hset
  intro j hj other hother f hf
  by_cases hji : j = i
  · subst hji
    obtain rfl := Option.some.inj (hother.symm.trans hcomp)
    exact hready.records_of_settle hset hf
  · have hjbefore : j ∈ before :=
      (mem_append.mp hj).resolve_right fun hlast => hji (mem_singleton.mp hlast)
    rw [hsettled.outside f fun hin => hji (h.index_unique hother hcomp hf hin)]
    exact hr j hjbefore other hother f hf

/-- The components one after the other: a table that comes out is the least one, and
one comes out exactly if every component has everything in time. -/
lemma foldlM_aggregateComponent {before after : List ℕ}
    (horder : componentOrder directById components = before ++ after)
    (ha : Aggregated directById components before aggregates)
    (hr : Recorded directById components before aggregates) :
    (∀ result, after.foldlM (fun aggregateById i =>
        aggregateComponent directById aggregateById (components.getD i [])) aggregates =
          .ok result →
      Aggregated directById components (componentOrder directById components) result) ∧
    ((∃ result, after.foldlM (fun aggregateById i =>
      aggregateComponent directById aggregateById (components.getD i [])) aggregates =
        .ok result) ↔
      ∀ i ∈ after, ∀ component, components[i]? = some component →
        SettlesInTime directById component) := by
  induction after generalizing before aggregates with
  | nil =>
    rw [append_nil] at horder
    refine ⟨fun result hres => ?_, iff_of_true ⟨aggregates, rfl⟩ (by simp)⟩
    cases hres
    rw [horder]
    exact ha
  | cons i rest ih =>
    have hi : i < components.length := (h.componentOrder_spec.1 i).mp (by rw [horder]; simp)
    obtain ⟨component, hcomp⟩ : ∃ component, components[i]? = some component :=
      ⟨_, List.getElem?_eq_getElem hi⟩
    have hready := h.ready horder hcomp ha hr
    have htime := hready.settle_isSome_iff_settlesInTime
    have hfirst : (∀ j ∈ i :: rest, ∀ component, components[j]? = some component →
        SettlesInTime directById component) ↔ SettlesInTime directById component ∧
        ∀ j ∈ rest, ∀ component, components[j]? = some component →
          SettlesInTime directById component := by simp [hcomp]
    rw [hfirst, foldlM_cons, getD, hcomp, Option.getD_some, aggregateComponent]
    cases hset : settle directById component (isCyclic directById component)
        (component.length + 2) aggregates with
    | none =>
      rw [hset] at htime
      refine ⟨fun result hres => (nomatch hres), iff_of_false ?_ fun hin => ?_⟩
      · rintro ⟨result, hres⟩
        exact nomatch hres
      · exact absurd (htime.mpr hin.1) (by simp)
    | some settled =>
      rw [hset] at htime
      have hsettled := settle_spec hready.nodup hready.within not_recursive_of_not_cyclic hset
      have hrest := ih (by rw [append_assoc]; exact horder) (ha.settle h horder hcomp hsettled)
        (hr.settle h horder hcomp hready hset)
      exact ⟨hrest.1, hrest.2.trans (and_iff_right (htime.mp rfl)).symm⟩

end Program

/-- The least sets that hold the direct effects and are closed under substitution at the
call sites. -/
def IsLeast (directById : List DirectEffects) (result : List EffectSets) : Prop :=
  result.length = directById.length ∧ ∀ functionId < directById.length, ∀ effect,
    (result.getD functionId {}).Has effect ↔ Derivable directById functionId effect

lemma buildAggregateEffects_spec (directById : List DirectEffects) :
    (∀ result, buildAggregateEffects directById = .ok result →
      Aggregated directById (stronglyConnectedComponents directById)
        (componentOrder directById (stronglyConnectedComponents directById)) result) ∧
    ((∃ result, buildAggregateEffects directById = .ok result) ↔
      ∀ component ∈ stronglyConnectedComponents directById,
        SettlesInTime directById component) := by
  have h : Partition directById _ := stronglyConnectedComponents_partition
  obtain ⟨hresult, hok⟩ := foldlM_aggregateComponent h (List.nil_append _).symm (.start h)
    (fun _ hi => by simp at hi)
  refine ⟨hresult, hok.trans ⟨fun hin component hcomp => ?_, fun hin i _ component hcomp =>
    hin component (mem_of_getElem? hcomp)⟩⟩
  obtain ⟨i, hi, rfl⟩ := mem_iff_getElem.mp hcomp
  exact hin i ((h.componentOrder_spec.1 i).mpr hi) _ (List.getElem?_eq_getElem hi)

/-- Aggregation computes the least sets exactly if, in every recursion, whatever a function
has it has through at most as many nested recursive calls as the recursion has functions. -/
theorem buildAggregateEffects_least (directById : List DirectEffects) :
    ((∃ result, buildAggregateEffects directById = .ok result ∧ IsLeast directById result) ↔
      ∀ component ∈ stronglyConnectedComponents directById,
        SettlesInTime directById component) ∧
    ∀ result, buildAggregateEffects directById = .ok result → IsLeast directById result := by
  have h : Partition directById _ := stronglyConnectedComponents_partition
  obtain ⟨hresult, hok⟩ := buildAggregateEffects_spec directById
  have hleast : ∀ result, buildAggregateEffects directById = .ok result →
      IsLeast directById result := by
    intro result hbuild
    have ha := hresult result hbuild
    exact ⟨ha.length_eq, fun functionId hf effect =>
      ha.exact h hf (fun i hi => (h.componentOrder_spec.1 i).mpr hi) effect⟩
  refine ⟨⟨fun ⟨result, hbuild, _⟩ => hok.mp ⟨result, hbuild⟩, fun hin => ?_⟩, hleast⟩
  obtain ⟨result, hbuild⟩ := hok.mpr hin
  exact ⟨result, hbuild, hleast result hbuild⟩

end Stasis.DataFlow
