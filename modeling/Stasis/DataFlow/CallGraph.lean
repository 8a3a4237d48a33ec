import Stasis.DataFlow.Aggregate

namespace Stasis.DataFlow

open List
variable {directById : List DirectEffects}

lemma mem_functionIds : functionId ∈ functionIds directById ↔ functionId < directById.length :=
  List.mem_range

lemma mem_callees :
    callee ∈ callees directById caller ↔
      callee < directById.length ∧
        ∃ callSite ∈ callSitesOf directById caller, callSite.targetId = callee := by
  simp [callees, and_comm]

lemma mem_callers :
    caller ∈ callers directById callee ↔
      caller ∈ functionIds directById ∧ callee ∈ callees directById caller := by
  simp [callers]

abbrev Calls (directById : List DirectEffects) : ℕ → ℕ → Prop := Graph.Leads (callees directById)

structure Partition (directById : List DirectEffects) (components : List (List ℕ)) : Prop where
  covers : ∀ functionId < directById.length, ∃ component ∈ components, functionId ∈ component
  within : ∀ component ∈ components, ∀ functionId ∈ component, functionId < directById.length
  together : ∀ component ∈ components, ∀ a ∈ component, ∀ b ∈ component, Calls directById a b
  whole : ∀ component ∈ components, ∀ a ∈ component, ∀ b < directById.length,
    Calls directById a b → Calls directById b a → b ∈ component
  nodup : ∀ component ∈ components, component.Nodup
  disjoint : components.Pairwise List.Disjoint

variable (directById) in
lemma stronglyConnectedComponents_spec : Graph.IsComponents (callees directById)
    (functionIds directById) (stronglyConnectedComponents directById) := by
  have hsucc : ∀ x ∈ functionIds directById, ∀ y ∈ callees directById x,
      y ∈ functionIds directById ∧ x ∈ callers directById y := fun x hx y hy =>
    ⟨mem_functionIds.mpr (mem_callees.mp hy).1, mem_callers.mpr ⟨hx, hy⟩⟩
  obtain ⟨horder, hnodup, hord⟩ := Graph.edgeFinishOrder_spec fun x hx y hy => (hsucc x hx y hy).1
  exact Graph.components_spec hsucc (fun _ _ hp => mem_callers.mp hp) nodup_range hord hnodup horder
    (mem_insertionSort _) fun c => (perm_insertionSort _ c).nodup_iff.mpr

lemma stronglyConnectedComponents_partition :
    Partition directById (stronglyConnectedComponents directById) := by
  obtain ⟨covers, within, -, nodup, disjoint, mem_iff⟩ :=
    stronglyConnectedComponents_spec directById
  simp only [mem_functionIds] at covers within mem_iff
  exact ⟨covers, within, fun c hc a ha b hb => ((mem_iff c hc a ha b (within c hc b hb)).mp hb).1,
    fun c hc a ha b hb hab hba => (mem_iff c hc a ha b hb).mpr ⟨hab, hba⟩, nodup, disjoint⟩

namespace Partition

variable (h : Partition directById components)

include h

variable {i target f g : ℕ} {d : List ℕ}

lemma index_unique (hi : components[i]? = some c) (hj : components[j]? = some d)
    (hc : functionId ∈ c) (hd : functionId ∈ d) :
    i = j := by
  obtain ⟨hi', rfl⟩ := List.getElem?_eq_some_iff.mp hi
  obtain ⟨hj', rfl⟩ := List.getElem?_eq_some_iff.mp hj
  have hpair := List.pairwise_iff_getElem.mp h.disjoint
  rcases Nat.lt_trichotomy i j with hlt | heq | hlt
  · exact absurd hd (hpair i j hi' hj' hlt hc)
  · exact heq
  · exact absurd hc (hpair j i hj' hi' hlt hd)

lemma componentByFunction_spec (hf : functionId < directById.length) :
    ∃ c, components[componentByFunction components functionId]? = some c ∧ functionId ∈ c := by
  obtain ⟨c, hc, hmem⟩ := h.covers functionId hf
  have hlt : componentByFunction components functionId < components.length :=
    findIdx_lt_length_of_exists ⟨c, hc, decide_eq_true hmem⟩
  refine ⟨components[componentByFunction components functionId], List.getElem?_eq_getElem hlt, ?_⟩
  exact of_decide_eq_true (findIdx_getElem (w := hlt))

lemma componentByFunction_eq (hi : components[i]? = some c) (hc : functionId ∈ c) :
    componentByFunction components functionId = i := by
  have hf := h.within c (mem_of_getElem? hi) functionId hc
  obtain ⟨d, hd, hmem⟩ := h.componentByFunction_spec hf
  exact h.index_unique hd hi hmem hc

omit h in
lemma mem_componentEdges :
    target ∈ componentEdges directById components source ↔ target ≠ source ∧
      ∃ f < directById.length, componentByFunction components f = source ∧
        ∃ g ∈ callees directById f, componentByFunction components g = target := by
  simp only [componentEdges, mem_insertionSort, mem_dedup, mem_filter,
    mem_flatMap, mem_map, decide_eq_true_eq, mem_functionIds]
  constructor
  · rintro ⟨⟨f, ⟨hf, hsou⟩, g, hg, htar⟩, hne⟩
    exact ⟨hne, f, hf, hsou, g, hg, htar⟩
  · rintro ⟨hne, f, hf, hsou, g, hg, htar⟩
    exact ⟨⟨f, ⟨hf, hsou⟩, g, hg, htar⟩, hne⟩

lemma componentEdges_within : ∀ x ∈ range components.length,
    ∀ y ∈ componentEdges directById components x, y ∈ range components.length := by
  intro x _ y hy
  obtain ⟨-, _, _, _, g, hg, rfl⟩ := mem_componentEdges.mp hy
  obtain ⟨_, hsome, _⟩ := h.componentByFunction_spec (mem_callees.mp hg).1
  exact List.mem_range.mpr (List.getElem?_eq_some_iff.mp hsome).1

lemma calls_of_leads (hpath : Graph.Leads (componentEdges directById components) source target)
    (hc : components[source]? = some c) (hd : components[target]? = some d) (hf : f ∈ c)
    (hg : g ∈ d) : Calls directById f g := by
  induction hpath generalizing d g with
  | refl =>
    obtain rfl : c = d := Option.some.inj (hc.symm.trans hd)
    exact h.together c (mem_of_getElem? hc) f hf g hg
  | tail _ hedge ih =>
    obtain ⟨-, f', hf', hmid, g', hg', htar⟩ := mem_componentEdges.mp hedge
    obtain ⟨m, hm, hfm⟩ := h.componentByFunction_spec hf'
    obtain ⟨d', hd', hgd⟩ := h.componentByFunction_spec (mem_callees.mp hg').1
    rw [hmid] at hm
    rw [htar] at hd'
    obtain rfl : d = d' := Option.some.inj (hd.symm.trans hd')
    exact (Relation.ReflTransGen.tail (ih hm hfm) hg').trans
      (h.together d (mem_of_getElem? hd) g' hgd g hg)

lemma callees_first {before after : List ℕ}
    (horder : componentOrder directById components = before ++ source :: after)
    (hc : components[source]? = some c) (hf : f ∈ c) (hg : g ∈ callees directById f) :
    g ∈ c ∨ ∃ target ∈ before, ∃ d, components[target]? = some d ∧ g ∈ d := by
  have hg' := (mem_callees.mp hg).1
  obtain ⟨d, hd, hgd⟩ := h.componentByFunction_spec hg'
  have hf' := h.within c (mem_of_getElem? hc) f hf
  have hsou := h.componentByFunction_eq hc hf
  by_cases hsame : componentByFunction components g = source
  · rw [hsame, hc] at hd
    exact .inl (Option.some.inj hd ▸ hgd)
  · refine .inr ⟨_, ?_, d, hd, hgd⟩
    have hedge : componentByFunction components g ∈ componentEdges directById components source :=
      mem_componentEdges.mpr ⟨hsame, f, hf', hsou, g, hg, rfl⟩
    obtain ⟨-, -, hord⟩ := Graph.finishOrder_spec h.componentEdges_within
    rcases hord before source after horder source (by simp) _ hedge with hmem | hback
    · exact (mem_append.mp hmem).resolve_right fun hlast => hsame (mem_singleton.mp hlast)
    · -- a callee that comes later would call back, and be in the same component
      have hmemb := h.whole d (mem_of_getElem? hd) g hgd f hf'
        (h.calls_of_leads hback hd hc hgd hf) (.single hg)
      exact absurd (h.componentByFunction_eq hd hmemb) (by rw [hsou]; exact Ne.symm hsame)

lemma componentOrder_spec :
    (∀ i, i ∈ componentOrder directById components ↔ i < components.length) ∧
      (componentOrder directById components).Nodup := by
  obtain ⟨hmem, hnodup, -⟩ := Graph.finishOrder_spec h.componentEdges_within
  exact ⟨fun i => (hmem i).trans List.mem_range, hnodup⟩

end Partition

end Stasis.DataFlow
