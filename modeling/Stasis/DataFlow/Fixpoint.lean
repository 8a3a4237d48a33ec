import Stasis.DataFlow.CallGraph
import Stasis.Lib.Effects

namespace Stasis.DataFlow

open EffectPath
open List

inductive Effect
  | read (path : EffectPath)
  | write (path : EffectPath)
  | call (function : String)
  | hostCall (function : String)
  | hostEffect (effect : FunctionHostEffect)
deriving DecidableEq, Repr

/-- A set of paths is kept as its global and its parameter paths. -/
def HasPath (globals : Finset String) (parameters : Finset ParameterPath) : EffectPath → Prop
  | .global path => path ∈ globals
  | .parameter path => path ∈ parameters

def EffectSets.Has (sets : EffectSets) : Effect → Prop
  | .read path => HasPath sets.reads sets.parameterReads path
  | .write path => HasPath sets.writes sets.parameterWrites path
  | .call function => function ∈ sets.calls
  | .hostCall function => function ∈ sets.hostCalls
  | .hostEffect effect => effect ∈ sets.hostEffects

/-- An effect of the callee as the caller has it, if it has it at all. -/
def substituteEffect (substitutions : Substitutions) : Effect → Option Effect
  | .read path => (substitutePath path substitutions false).map .read
  | .write path => (substitutePath path substitutions false).map .write
  | effect => some effect

/-- The least sets that hold the direct effects and are closed under the call sites. -/
inductive Derivable (directById : List DirectEffects) : ℕ → Effect → Prop
  | direct {functionId direct effect} : directById[functionId]? = some direct →
      direct.effects.Has effect → Derivable directById functionId effect
  | callee {functionId callSite effect effect'} : callSite ∈ callSitesOf directById functionId →
      Derivable directById callSite.targetId effect →
      substituteEffect callSite.substitutions effect = some effect' →
      Derivable directById functionId effect'

namespace EffectSets

@[simp] lemma has_zero (effect : Effect) : ¬(0 : EffectSets).Has effect := by
  rcases effect with (_ | _) | (_ | _) | _ | _ | _ <;> exact Finset.notMem_empty _

lemma has_add (a b : EffectSets) (effect : Effect) :
    (a + b).Has effect ↔ a.Has effect ∨ b.Has effect := by
  rcases effect with (_ | _) | (_ | _) | _ | _ | _ <;> exact Finset.mem_union

lemma has_sum {l : List EffectSets} : l.sum.Has effect ↔ ∃ sets ∈ l, sets.Has effect := by
  induction l with
  | nil => simp
  | cons sets l ih => simp [has_add, ih]

end EffectSets

section Substitution

lemma mem_substitutedParts {β : Type} [DecidableEq β] {part : EffectPath → Option β} {b : β} :
    b ∈ substitutedParts substitutions retain part paths ↔
      ∃ path ∈ paths, ∃ result, substitutePath (.parameter path) substitutions retain =
        some result ∧
        part result = some b := by
  simp [substitutedParts, Option.bind_eq_some_iff]

lemma hasPath_substituted :
    HasPath (globals ∪ substitutedParts substitutions false global? parameters)
        (substitutedParts substitutions false parameter? parameters) path ↔
      ∃ source, HasPath globals parameters source ∧
        substitutePath source substitutions false = some path := by
  constructor
  · cases path with
    | global name =>
      intro h
      rcases Finset.mem_union.mp h with h | h
      · exact ⟨.global name, h, rfl⟩
      · obtain ⟨symbolic, hsym, result, hres, hpart⟩ := mem_substitutedParts.mp h
        cases result with
        | parameter _ => cases hpart
        | global _ =>
          cases hpart
          exact ⟨.parameter symbolic, hsym, hres⟩
    | parameter symbolic' =>
      intro h
      obtain ⟨symbolic, hsym, result, hres, hpart⟩ := mem_substitutedParts.mp h
      cases result with
      | global _ => cases hpart
      | parameter _ =>
        cases hpart
        exact ⟨.parameter symbolic, hsym, hres⟩
  · rintro ⟨source, hsou, hpath⟩
    cases source with
    | global name =>
      cases hpath
      exact Finset.mem_union_left _ hsou
    | parameter symbolic =>
      cases path with
      | global name =>
        exact Finset.mem_union_right _
          (mem_substitutedParts.mpr ⟨symbolic, hsou, _, hpath, rfl⟩)
      | parameter symbolic' => exact mem_substitutedParts.mpr ⟨symbolic, hsou, _, hpath, rfl⟩

lemma has_substituteEffects :
    (substituteEffects substitutions false multiplier depth sets).Has effect ↔
      ∃ source, sets.Has source ∧ substituteEffect substitutions source = some effect := by
  constructor
  · intro h
    cases effect with
    | read path =>
      obtain ⟨source, hsou, hpath⟩ := hasPath_substituted.mp h
      exact ⟨.read source, hsou, by simp [substituteEffect, hpath]⟩
    | write path =>
      obtain ⟨source, hsou, hpath⟩ := hasPath_substituted.mp h
      exact ⟨.write source, hsou, by simp [substituteEffect, hpath]⟩
    | call function => exact ⟨.call function, h, rfl⟩
    | hostCall function => exact ⟨.hostCall function, h, rfl⟩
    | hostEffect effect => exact ⟨.hostEffect effect, h, rfl⟩
  · rintro ⟨source, hsou, heff⟩
    cases source with
    | read source | write source =>
      obtain ⟨path, hpath, rfl⟩ := Option.map_eq_some_iff.mp heff
      exact hasPath_substituted.mpr ⟨source, hsou, hpath⟩
    | call _ | hostCall _ | hostEffect _ =>
      cases heff
      exact hsou

lemma has_substituteEffects_retain :
    (substituteEffects (fun _ => none) true multiplier depth sets).Has effect ↔
      sets.Has effect := by
  have hglo : ∀ parameters : Finset ParameterPath,
      substitutedParts (fun _ => none) true global? parameters = ∅ := fun parameters => by
    ext path
    simp [mem_substitutedParts, substitutePath, global?]
  have hparam : ∀ parameters : Finset ParameterPath,
      substitutedParts (fun _ => none) true parameter? parameters = parameters :=
    fun parameters => by
      ext path
      simp [mem_substitutedParts, substitutePath, parameter?]
  cases effect with
  | read path | write path =>
    simp only [EffectSets.Has, substituteEffects, hglo, hparam, Finset.union_empty]
  | call _ | hostCall _ | hostEffect _ => rfl

end Substitution

section Round

variable {directById : List DirectEffects} {component : List ℕ} {cyclic : Bool}
  {aggregates : List EffectSets} {functionId : ℕ}

def callSiteEffects (component : List ℕ) (cyclic : Bool) (aggregates : List EffectSets)
    (callSite : CallSite) : EffectSets :=
  mergeCallSite component cyclic aggregates 0 callSite

lemma mergeCallSite_eq (aggregate : EffectSets) (callSite : CallSite) :
    mergeCallSite component cyclic aggregates aggregate callSite =
      aggregate + callSiteEffects component cyclic aggregates callSite := by
  unfold callSiteEffects mergeCallSite
  cases aggregates[callSite.targetId]? with
  | none => exact (add_zero _).symm
  | some child => simp [mergeSubstitutedEffects]

def ownEffects (directById : List DirectEffects) (functionId : ℕ) : EffectSets :=
  substituteEffects (fun _ => none) true (some 1) 0 (directById.getD functionId {}).effects

lemma nextAggregate_eq :
    nextAggregate directById component cyclic aggregates functionId =
      ownEffects directById functionId + ((callSitesOf directById functionId).map
        (callSiteEffects component cyclic aggregates)).sum := by
  have hfold : ∀ (callSites : List CallSite) (start : EffectSets),
      callSites.foldl (mergeCallSite component cyclic aggregates) start =
        start + (callSites.map (callSiteEffects component cyclic aggregates)).sum := by
    intro callSites
    induction callSites with
    | nil => simp
    | cons callSite callSites ih =>
      intro start
      rw [foldl_cons, ih, mergeCallSite_eq, map_cons, sum_cons, add_assoc]
  rw [nextAggregate, hfold, mergeSubstitutedEffects, ownEffects]
  exact congrArg (· + _) (zero_add _)

lemma has_callSiteEffects :
    (callSiteEffects component cyclic aggregates callSite).Has effect ↔
      ∃ child, aggregates[callSite.targetId]? = some child ∧ ∃ source, child.Has source ∧
        substituteEffect callSite.substitutions source = some effect := by
  unfold callSiteEffects mergeCallSite
  cases aggregates[callSite.targetId]? with
  | none => simp
  | some child => simp [mergeSubstitutedEffects, has_substituteEffects]

lemma has_nextAggregate :
    (nextAggregate directById component cyclic aggregates functionId).Has effect ↔
      (directById.getD functionId {}).effects.Has effect ∨
        ∃ callSite ∈ callSitesOf directById functionId,
          ∃ child, aggregates[callSite.targetId]? = some child ∧ ∃ source, child.Has source ∧
            substituteEffect callSite.substitutions source = some effect := by
  rw [nextAggregate_eq, EffectSets.has_add, ownEffects, has_substituteEffects_retain,
    EffectSets.has_sum]
  simp only [mem_map, exists_exists_and_eq_and, has_callSiteEffects]

lemma nextAggregate_congr (h : ∀ callee ∈ (callSitesOf directById functionId).map CallSite.targetId,
      aggregates[callee]? = aggregates'[callee]?) :
    nextAggregate directById component cyclic aggregates functionId =
      nextAggregate directById component cyclic aggregates' functionId := by
  rw [nextAggregate_eq, nextAggregate_eq]
  congr 2
  refine map_congr_left fun callSite hcalSi => ?_
  unfold callSiteEffects mergeCallSite
  rw [h _ (mem_map_of_mem hcalSi)]

lemma length_nextRound :
    (nextRound directById component cyclic aggregates).length = aggregates.length := by
  unfold nextRound
  generalize component.zip _ = entries
  induction entries generalizing aggregates with
  | nil => rfl
  | cons entry entries ih => rw [foldl_cons, ih, length_set]

lemma getElem?_nextRound (hnodup : component.Nodup)
    (hwit : ∀ f ∈ component, f < aggregates.length) :
    (nextRound directById component cyclic aggregates)[functionId]? =
      if functionId ∈ component then
        some (nextAggregate directById component cyclic aggregates functionId)
      else aggregates[functionId]? := by
  unfold nextRound
  -- the aggregates are computed from the old table, whatever is stored meanwhile
  generalize nextAggregate directById component cyclic aggregates = next
  induction component generalizing aggregates with
  | nil => simp
  | cons f rest ih =>
    obtain ⟨hf, hrest⟩ := nodup_cons.mp hnodup
    rw [map_cons, zip_cons_cons, foldl_cons,
      ih hrest (by simpa using fun g hg => hwit g (mem_cons_of_mem _ hg))]
    by_cases hmem : functionId ∈ rest
    · simp [hmem]
    · by_cases heq : functionId = f
      · subst heq
        simp [hmem, hwit functionId (.head _)]
      · simp [hmem, heq, Ne.symm heq]

end Round

section Settle

variable {directById : List DirectEffects} {component : List ℕ} {cyclic : Bool}
  {aggregates result : List EffectSets}

def Sound (directById : List DirectEffects) (aggregates : List EffectSets) : Prop :=
  ∀ functionId sets, aggregates[functionId]? = some sets → ∀ effect, sets.Has effect →
    Derivable directById functionId effect

lemma Sound.nextAggregate (h : Sound directById aggregates)
    (heff : (nextAggregate directById component cyclic aggregates functionId).Has effect) :
    Derivable directById functionId effect := by
  rcases has_nextAggregate.mp heff with hown | ⟨callSite, hcall, child, hchild, source, hsou,
    hsubstitute⟩
  · cases hdir : directById[functionId]? with
    | none => simp [getD, hdir, show ({} : EffectSets) = 0 from rfl] at hown
    | some direct =>
      refine .direct hdir ?_
      simpa [getD, hdir] using hown
  · exact .callee hcall (h _ _ hchild _ hsou) hsubstitute

lemma Sound.nextRound (h : Sound directById aggregates) (hnodup : component.Nodup)
    (hwit : ∀ f ∈ component, f < aggregates.length) :
    Sound directById (nextRound directById component cyclic aggregates) := by
  intro functionId sets hsets effect heff
  rw [getElem?_nextRound hnodup hwit] at hsets
  split_ifs at hsets
  · cases hsets
    exact h.nextAggregate heff
  · exact h functionId sets hsets effect heff

/-- What a component that settled leaves behind: a table that changed for its functions
only, where each of them has what a further round would give it. -/
structure Settled (directById : List DirectEffects) (component : List ℕ) (cyclic : Bool)
    (aggregates result : List EffectSets) : Prop where
  length_eq : result.length = aggregates.length
  outside : ∀ f ∉ component, result[f]? = aggregates[f]?
  sound : Sound directById aggregates → Sound directById result
  fixed : ∀ f ∈ component,
    result[f]? = some (nextAggregate directById component cyclic result f)

lemma settle_spec (hnodup : component.Nodup) (hwit : ∀ f ∈ component, f < aggregates.length)
    (hacy : cyclic = false → ∀ f ∈ component,
      ∀ callSite ∈ callSitesOf directById f, callSite.targetId ∉ component)
    (h : settle directById component cyclic rounds aggregates = some result) :
    Settled directById component cyclic aggregates result := by
  have hround : ∀ {table : List EffectSets}, (∀ f ∈ component, f < table.length) →
      ∀ f ∉ component, (nextRound directById component cyclic table)[f]? = table[f]? :=
    fun hw f hf => by rw [getElem?_nextRound hnodup hw, if_neg hf]
  induction rounds generalizing aggregates with
  | zero => cases h
  | succ rounds ih =>
    unfold settle at h
    split at h
    · rename_i hsta
      cases h
      exact ⟨rfl, fun _ _ => rfl, id, by simpa using hsta⟩
    · rename_i hsta
      cases cyclic with
      | true =>
        have hwit' : ∀ f ∈ component,
            f < (nextRound directById component true aggregates).length := fun f hf => by
          rw [length_nextRound]
          exact hwit f hf
        obtain ⟨hlen, hout, hsound, hfixed⟩ := ih hwit' h
        exact ⟨hlen.trans length_nextRound, fun f hf => (hout f hf).trans (hround hwit f hf),
          fun hs => hsound (hs.nextRound hnodup hwit), hfixed⟩
      | false =>
        cases h
        refine ⟨length_nextRound, hround hwit, fun hs => hs.nextRound hnodup hwit, fun f hf => ?_⟩
        -- the functions do not call each other, so the round did not change what it reads
        rw [getElem?_nextRound hnodup hwit, if_pos hf]
        refine congrArg some (nextAggregate_congr fun callee hcal => ?_)
        obtain ⟨callSite, hcall, rfl⟩ := mem_map.mp hcal
        exact (hround hwit _ (hacy rfl f hf callSite hcall)).symm

end Settle

section Program

variable {directById : List DirectEffects} {components : List (List ℕ)}

lemma not_recursive_of_not_cyclic (hcyc : isCyclic directById component = false) :
    ∀ f ∈ component, ∀ callSite ∈ callSitesOf directById f, callSite.targetId ∉ component := by
  simp only [isCyclic, Bool.or_eq_false_iff, decide_eq_false_iff_not, any_eq_false,
    decide_eq_true_eq] at hcyc
  obtain ⟨hlen, hself⟩ := hcyc
  match component, hlen with
  | [], _ => simp
  | [g], _ =>
    intro f hf callSite hcall htar
    obtain rfl := mem_singleton.mp hf
    exact hself callSite hcall (mem_singleton.mp htar)
  | _ :: _ :: _, hlen => simp at hlen

/-- What holds of the table when the components in `done` are settled. -/
structure Aggregated (directById : List DirectEffects) (components : List (List ℕ))
    (done : List ℕ) (aggregates : List EffectSets) : Prop where
  length_eq : aggregates.length = directById.length
  untouched : ∀ i ∉ done, ∀ component, components[i]? = some component → ∀ f ∈ component,
    aggregates[f]? = some 0
  sound : Sound directById aggregates
  fixed : ∀ i ∈ done, ∀ component, components[i]? = some component → ∀ f ∈ component,
    aggregates[f]? = some (nextAggregate directById component (isCyclic directById component)
      aggregates f)

variable (h : Partition directById components)
include h

lemma Aggregated.start : Aggregated directById components [] (replicate directById.length {}) := by
  refine ⟨length_replicate, fun i _ component hcomp f hf => ?_, ?_, by simp⟩
  · have := h.within component (mem_of_getElem? hcomp) f hf
    rw [List.getElem?_replicate, if_pos this]
    rfl
  · intro f sets hsets effect heff
    rw [List.getElem?_replicate] at hsets
    split_ifs at hsets
    cases hsets
    exact absurd heff (EffectSets.has_zero effect)

lemma Aggregated.settle {before after : List ℕ}
    (horder : componentOrder directById components = before ++ i :: after)
    (hcomp : components[i]? = some component)
    (ha : Aggregated directById components before aggregates)
    (hset : Settled directById component (isCyclic directById component) aggregates result) :
    Aggregated directById components (before ++ [i]) result := by
  have hnodup := h.componentOrder_spec.2
  rw [horder] at hnodup
  have hi : i ∉ before := fun hmem => (nodup_append.mp hnodup).2.2 i hmem i (.head _) rfl
  have hother : ∀ j ≠ i, ∀ other, components[j]? = some other → ∀ f ∈ other, f ∉ component :=
    fun j hj other hj' f hf hmem => hj (h.index_unique hj' hcomp hf hmem)
  refine ⟨hset.length_eq.trans ha.length_eq, fun j hj other hj' f hf => ?_,
    hset.sound ha.sound, fun j hj other hj' f hf => ?_⟩
  · simp only [mem_append, mem_singleton, not_or] at hj
    rw [hset.outside f (hother j hj.2 other hj' f hf)]
    exact ha.untouched j hj.1 other hj' f hf
  · by_cases hji : j = i
    · subst hji
      obtain rfl := Option.some.inj (hj'.symm.trans hcomp)
      exact hset.fixed f hf
    · have hjbe : j ∈ before :=
        (mem_append.mp hj).resolve_right fun hlast => hji (mem_singleton.mp hlast)
      rw [hset.outside f (hother j hji other hj' f hf), ha.fixed j hjbe other hj' f hf]
      -- an earlier component calls itself and still earlier ones
      refine congrArg some (nextAggregate_congr fun callee hcal => ?_)
      obtain ⟨first, last, rfl⟩ := append_of_mem hjbe
      by_cases hrange : callee < directById.length
      · have hcalls : callee ∈ callees directById f := by
          obtain ⟨callSite, hcall, rfl⟩ := mem_map.mp hcal
          exact mem_callees.mpr ⟨hrange, callSite, hcall, rfl⟩
        rw [append_assoc, cons_append] at horder
        refine (hset.outside callee ?_).symm
        rcases h.callees_first horder hj' hf hcalls with hsame | ⟨k, hk, other', hk', hmem⟩
        · exact hother j hji other hj' callee hsame
        · refine hother k (fun hki => hi ?_) other' hk' callee hmem
          exact mem_append_left _ (hki ▸ hk)
      · rw [List.getElem?_eq_none (by rw [ha.length_eq]; omega),
          List.getElem?_eq_none (by rw [hset.length_eq, ha.length_eq]; omega)]

variable (ha : Aggregated directById components done aggregates)
  (hf : functionId < directById.length)
include ha hf

omit h in
lemma Aggregated.getElem? : aggregates[functionId]? = some (aggregates.getD functionId {}) := by
  rw [← ha.length_eq] at hf
  simp [getD, List.getElem?_eq_getElem hf]

lemma Aggregated.closed (hall : ∀ i < components.length, i ∈ done) : ∃ component cyclic,
    aggregates.getD functionId {} =
      nextAggregate directById component cyclic aggregates functionId := by
  obtain ⟨component, hcomp, hmem⟩ := h.covers functionId hf
  obtain ⟨i, hi, rfl⟩ := mem_iff_getElem.mp hcomp
  have hfixed := ha.fixed i (hall i hi) _ (List.getElem?_eq_getElem hi) functionId hmem
  rw [ha.getElem? hf] at hfixed
  exact ⟨_, _, Option.some.inj hfixed⟩

lemma Aggregated.exact (hall : ∀ i < components.length, i ∈ done) (effect : Effect) :
    (aggregates.getD functionId {}).Has effect ↔ Derivable directById functionId effect := by
  constructor
  · exact ha.sound functionId _ (ha.getElem? hf) effect
  · intro hder
    induction hder with
    | direct hdir heffect =>
      obtain ⟨component, cyclic, hnext⟩ := ha.closed h hf hall
      rw [hnext]
      exact has_nextAggregate.mpr (.inl (by simpa [getD, hdir] using heffect))
    | callee hcall hder hsub ih =>
      obtain ⟨component, cyclic, hnext⟩ := ha.closed h hf hall
      rw [hnext]
      have htar : ∀ {f e}, Derivable directById f e → f < directById.length := by
        intro f e hd
        cases hd with
        | direct hdir _ => exact (List.getElem?_eq_some_iff.mp hdir).1
        | callee hcall _ _ =>
          by_contra hge
          simp [callSitesOf, getD, List.getElem?_eq_none (Nat.le_of_not_lt hge)] at hcall
      exact has_nextAggregate.mpr (.inr ⟨_, hcall, _, ha.getElem? (htar hder), _,
        ih (htar hder), hsub⟩)

end Program

end Stasis.DataFlow
