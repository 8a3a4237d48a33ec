import Stasis.Patch.Expansion

namespace Stasis.Patch

open FunctionKey
open List

/-- The functions of one program as the index holds them: keys name one function each,
the index refuses a function whose identifier is taken, and every function has its
source file. -/
structure FunctionTable where
  functions : List FunctionMeta
  fileCount : ℕ
  ids_nodup : (functions.map FunctionMeta.id).Nodup
  keys_nodup : (functions.map FunctionKey.fromFunction).Nodup
  files_known : ∀ function ∈ functions, function.fileId < fileCount

namespace FunctionTable

variable (t : FunctionTable) (requiredRoots : List String)

def Emitted (f : FunctionMeta) : Prop :=
  f ∈ t.functions ∧ f.id ∈ computeReachableFunctionIds t.functions requiredRoots

def EmittedDependency (f g : FunctionMeta) : Prop :=
  t.Emitted requiredRoots f ∧ t.Emitted requiredRoots g ∧ g.id ∈ f.dependencies

inductive Stale (accepted : AcceptedProgram) (changes : List FunctionKey) (f : FunctionMeta) : Prop
  | added (h : accepted.functions.lookup (.fromFunction f) = none)
  | becameReachable (h : .fromFunction f ∉ accepted.reachable)
  | bodyChanged (previous : AcceptedFunction)
      (h : accepted.functions.lookup (.fromFunction f) = some previous)
      (hbody : previous.bodyHash ≠ f.bodyHash)
  | contractChanged (h : .fromFunction f ∈ changes)
  | templateChanged (template : FunctionMeta) (htemplate : template ∈ t.functions)
      (hcalls : template.id ∈ f.dependencies) (honly : template.requiresContract.isSome = true)
      (h : ∀ previous, accepted.functions.lookup (.fromFunction template) = some previous →
        previous.bodyHash ≠ template.bodyHash)
  | calleeRemoved (previous : AcceptedFunction) (callee : FunctionKey)
      (h : accepted.functions.lookup (.fromFunction f) = some previous)
      (hcalls : callee ∈ previous.dependencies) (hreachable : callee ∈ accepted.reachable)
      (hexisted : (accepted.functions.lookup callee).isSome = true)
      (hgone : ∀ g ∈ t.functions, FunctionKey.fromFunction g ≠ callee)

variable {t requiredRoots} {f g : FunctionMeta} (hf : f ∈ t.functions)
include hf

lemma eq_of_id (hg : g ∈ t.functions) (h : f.id = g.id) : f = g :=
  inj_on_of_nodup_map t.ids_nodup hf hg h

lemma eq_of_key (hg : g ∈ t.functions) (h : fromFunction f = .fromFunction g) : f = g :=
  inj_on_of_nodup_map t.keys_nodup hf hg h

variable {key : FunctionKey}

omit hf in
lemma keyById_eq_some {id : ℕ} :
    keyById t.functions id = some key ↔ ∃ f ∈ t.functions, f.id = id ∧ fromFunction f = key := by
  unfold keyById
  constructor
  · intro h
    obtain ⟨f, hfind, hkey⟩ := Option.map_eq_some_iff.mp h
    have hid := find?_some hfind
    exact ⟨f, mem_reverse.mp (mem_of_find?_eq_some hfind), of_decide_eq_true hid, hkey⟩
  · rintro ⟨f, hf, hid, hkey⟩
    obtain ⟨g, hfind, hmem, hg⟩ := exists_find? (mem_reverse.mpr hf) (·.id = id) hid
    have heq := eq_of_id (mem_reverse.mp hmem) hf (hg.trans hid.symm)
    rw [hfind, Option.map_some, heq, hkey]

variable (t requiredRoots)

def graph : CurrentGraph where
  inserted := t.functions.map fun f => (.fromFunction f, currentFunction t.functions f)
  reachable := keySet
    ((computeReachableFunctionIds t.functions requiredRoots).filterMap (keyById t.functions))
  hostEntries := keySet ((t.functions.filter (isHostEntry requiredRoots)).filterMap fun f =>
    keyById t.functions f.id)

omit hf in
lemma build_eq : CurrentGraph.build t.functions t.fileCount requiredRoots =
    .ok (t.graph requiredRoots) := by
  have hfiles : t.functions.forM (checkSourceFile t.fileCount) = .ok () :=
    forM_ok_iff.mpr fun f hf => by rw [checkSourceFile, if_pos (t.files_known f hf)]
  have hins : t.functions.mapM (insertFunction t.functions) =
      .ok (t.functions.map fun f => (.fromFunction f, currentFunction t.functions f)) := by
    refine mapM_eq_ok_iff.mpr (forall₂_map_right_iff.mpr (forall₂_same.mpr ?_))
    intro f hf
    rw [insertFunction, keyById_eq_some.mpr ⟨f, hf, rfl, rfl⟩]
  unfold CurrentGraph.build
  rw [bind_ok hfiles, bind_ok hins]
  rfl

variable {t requiredRoots}

omit hf in
lemma byKey_eq_some :
    (t.graph requiredRoots).byKey key = some current ↔
      ∃ f ∈ t.functions, fromFunction f = key ∧ currentFunction t.functions f = current := by
  have hmem : (key, current) ∈ (t.graph requiredRoots).inserted.reverse ↔
      ∃ f ∈ t.functions, fromFunction f = key ∧ currentFunction t.functions f = current := by
    simp [graph]
  have hnodup : ((t.graph requiredRoots).inserted.reverse.map Prod.fst).Nodup := by
    rw [map_reverse, nodup_reverse, graph, map_map]
    exact t.keys_nodup
  rw [← hmem]
  exact ⟨mem_of_lookup, lookup_of_mem hnodup⟩

lemma byKey_key :
    (t.graph requiredRoots).byKey (.fromFunction f) = some (currentFunction t.functions f) :=
  byKey_eq_some.mpr ⟨f, hf, rfl, rfl⟩

omit hf in
lemma mem_reachable :
    key ∈ (t.graph requiredRoots).reachable ↔
      ∃ f, t.Emitted requiredRoots f ∧ fromFunction f = key := by
  simp only [graph, mem_keySet, mem_filterMap, keyById_eq_some, Emitted]
  constructor
  · rintro ⟨id, hid, f, hf, rfl, hkey⟩
    exact ⟨f, ⟨hf, hid⟩, hkey⟩
  · rintro ⟨f, ⟨hf, hid⟩, hkey⟩
    exact ⟨f.id, hid, f, hf, rfl, hkey⟩

lemma key_mem_reachable :
    .fromFunction f ∈ (t.graph requiredRoots).reachable ↔ t.Emitted requiredRoots f := by
  rw [mem_reachable]
  constructor
  · rintro ⟨g, hg, hkey⟩
    exact eq_of_key hg.1 hf hkey ▸ hg
  · exact fun h => ⟨f, h, rfl⟩

omit hf in
lemma mem_dependencies :
    key ∈ (currentFunction t.functions f).dependencies ↔
      ∃ g ∈ t.functions, g.id ∈ f.dependencies ∧ fromFunction g = key := by
  simp only [currentFunction, mem_keySet, mem_filterMap, keyById_eq_some]
  constructor
  · rintro ⟨id, hid, g, hg, rfl, hkey⟩
    exact ⟨g, hg, hid, hkey⟩
  · rintro ⟨g, hg, hid, hkey⟩
    exact ⟨g.id, hid, g, hg, rfl, hkey⟩

lemma mem_callees_key :
    key ∈ (t.graph requiredRoots).callees (.fromFunction f) ↔
      ∃ g, t.Emitted requiredRoots g ∧ g.id ∈ f.dependencies ∧ .fromFunction g = key := by
  unfold CurrentGraph.callees
  rw [byKey_key hf]
  simp only [mem_filter, mem_dependencies, decide_eq_true_eq]
  constructor
  · rintro ⟨⟨g, hg, hid, rfl⟩, hreach⟩
    exact ⟨g, (key_mem_reachable hg).mp hreach, hid, rfl⟩
  · rintro ⟨g, hg, hid, rfl⟩
    exact ⟨⟨g, hg.1, hid, rfl⟩, (key_mem_reachable hg.1).mpr hg⟩

omit hf in
lemma mem_reverse_key :
    caller ∈ (t.graph requiredRoots).reverse callee ↔
      ∃ f ∈ t.functions, .fromFunction f = caller ∧
        callee ∈ (currentFunction t.functions f).dependencies := by
  simp only [CurrentGraph.reverse, graph, mem_keySet, mem_map, mem_filter, decide_eq_true_eq]
  constructor
  · rintro ⟨_, ⟨⟨f, hf, rfl⟩, hdep⟩, hkey⟩
    exact ⟨f, hf, hkey, hdep⟩
  · rintro ⟨f, hf, hkey, hdep⟩
    exact ⟨_, ⟨⟨f, hf, rfl⟩, hdep⟩, hkey⟩

omit hf in
lemma leads_key_iff (hf : t.Emitted requiredRoots f) :
    Graph.Leads (t.graph requiredRoots).callees (.fromFunction f) key ↔
      ∃ g, Relation.ReflTransGen (t.EmittedDependency requiredRoots) f g ∧
        t.Emitted requiredRoots g ∧ .fromFunction g = key := by
  constructor
  · intro hpath
    induction hpath with
    | refl => exact ⟨f, .refl, hf, rfl⟩
    | tail _ hedge ih =>
      obtain ⟨g, hpath, hg, rfl⟩ := ih
      obtain ⟨g', hg', hid, hkey⟩ := (mem_callees_key hg.1).mp hedge
      exact ⟨g', .tail hpath ⟨hg, hg', hid⟩, hg', hkey⟩
  · rintro ⟨g, hpath, -, rfl⟩
    induction hpath with
    | refl => exact .refl
    | tail _ hedge ih =>
      exact .tail ih ((mem_callees_key hedge.1.1).mpr ⟨_, hedge.2.1, hedge.2.2, rfl⟩)

variable {accepted : AcceptedProgram} {changes : List FunctionKey}

lemma selfChanged_key :
    SelfChanged (t.graph requiredRoots) accepted changes (.fromFunction f) ↔
      (∀ previous, accepted.functions.lookup (.fromFunction f) = some previous →
        .fromFunction f ∈ accepted.reachable → previous.bodyHash = f.bodyHash →
          .fromFunction f ∈ changes) := by
  unfold SelfChanged seedReason
  rw [byKey_key hf]
  simp only [Option.some.injEq, exists_eq_left']
  cases accepted.functions.lookup (.fromFunction f) with
  | none => simp
  | some previous =>
    simp only [Option.some.injEq, forall_eq', currentFunction]
    split_ifs <;> simp_all

lemma isChangedTemplate_key :
    isChangedTemplate (t.graph requiredRoots) accepted (.fromFunction f) = true ↔
      f.requiresContract.isSome = true ∧
        ∀ previous, accepted.functions.lookup (.fromFunction f) = some previous →
          previous.bodyHash ≠ f.bodyHash := by
  unfold isChangedTemplate
  rw [byKey_key hf]
  cases accepted.functions.lookup (.fromFunction f) with
  | none | some previous => simp [currentFunction]

lemma usesChangedTemplate_key :
    UsesChangedTemplate (t.graph requiredRoots) accepted (.fromFunction f) ↔
      ∃ template ∈ t.functions, template.id ∈ f.dependencies ∧
        isChangedTemplate (t.graph requiredRoots) accepted (.fromFunction template) = true := by
  unfold UsesChangedTemplate
  rw [byKey_key hf]
  simp only [Option.some.injEq, exists_eq_left', mem_dependencies]
  constructor
  · rintro ⟨_, ⟨template, ht, hid, rfl⟩, hchg⟩
    exact ⟨template, ht, hid, hchg⟩
  · rintro ⟨template, ht, hid, hchg⟩
    exact ⟨_, ⟨template, ht, hid, rfl⟩, hchg⟩

omit hf in
lemma isRemovedReachable_iff :
    isRemovedReachable (t.graph requiredRoots) accepted key = true ↔
      key ∈ accepted.reachable ∧ (accepted.functions.lookup key).isSome = true ∧
        ∀ g ∈ t.functions, fromFunction g ≠ key := by
  have hgone : (t.graph requiredRoots).byKey key = none ↔
      ∀ g ∈ t.functions, fromFunction g ≠ key := by
    rw [Option.eq_none_iff_forall_ne_some]
    constructor
    · exact fun h g hg hkey => h _ (byKey_eq_some.mpr ⟨g, hg, hkey, rfl⟩)
    · rintro h _ hsome
      obtain ⟨g, hg, hkey, -⟩ := byKey_eq_some.mp hsome
      exact h g hg hkey
  have hexisted : key ∈ accepted.functions.map Prod.fst ↔
      (accepted.functions.lookup key).isSome = true := by
    rw [lookup_isSome_iff]
    simp
  simp only [isRemovedReachable, removedFunctions, mem_filter, mem_keySet, hexisted,
    Option.isNone_iff_eq_none, hgone, decide_eq_true_eq]
  rw [and_comm]

lemma stale_iff :
    t.Stale accepted changes f ↔
      SelfChanged (t.graph requiredRoots) accepted changes (.fromFunction f) ∨
      UsesChangedTemplate (t.graph requiredRoots) accepted (.fromFunction f) ∨
      CalledRemoved (t.graph requiredRoots) accepted (.fromFunction f) := by
  rw [selfChanged_key hf, usesChangedTemplate_key hf]
  constructor
  · rintro (h | h | ⟨previous, h, hbody⟩ | h | ⟨template, ht, hcalls, honly, h⟩ |
      ⟨previous, callee, h, hcalls, hreach, hexisted, hgone⟩)
    · exact .inl fun previous hprev => by rw [h] at hprev; cases hprev
    · exact .inl fun _ _ hreach => absurd hreach h
    · refine .inl fun previous' hprevious' _ hsame => absurd hsame ?_
      obtain rfl := Option.some.inj (h.symm.trans hprevious')
      exact hbody
    · exact .inl fun _ _ _ _ => h
    · exact .inr (.inl ⟨template, ht, hcalls, (isChangedTemplate_key ht).mpr ⟨honly, h⟩⟩)
    · exact .inr (.inr ⟨previous, h, callee, hcalls,
        isRemovedReachable_iff.mpr ⟨hreach, hexisted, hgone⟩⟩)
  · rintro (h | ⟨template, ht, hcalls, hchg⟩ | ⟨previous, h, callee, hcalls, hrem⟩)
    · -- the checks come in the order of the loop
      cases hprev : accepted.functions.lookup (.fromFunction f) with
      | none => exact .added hprev
      | some previous =>
        by_cases hreach : .fromFunction f ∈ accepted.reachable
        · by_cases hbody : previous.bodyHash = f.bodyHash
          · exact .contractChanged (h previous hprev hreach hbody)
          · exact .bodyChanged previous hprev hbody
        · exact .becameReachable hreach
    · obtain ⟨honly, hnew⟩ := (isChangedTemplate_key ht).mp hchg
      exact .templateChanged template ht hcalls honly hnew
    · obtain ⟨hreach, hexisted, hgone⟩ := isRemovedReachable_iff.mp hrem
      exact .calleeRemoved previous callee h hcalls hreach hexisted hgone

omit hf

lemma mem_reverse_iff_callees (caller : FunctionKey)
    (hcall : caller ∈ (t.graph requiredRoots).reachable) (callee : FunctionKey)
    (hcal : callee ∈ (t.graph requiredRoots).reachable) :
    caller ∈ (t.graph requiredRoots).reverse callee ↔
      callee ∈ (t.graph requiredRoots).callees caller := by
  obtain ⟨f, hf, rfl⟩ := mem_reachable.mp hcall
  obtain ⟨g, hg, rfl⟩ := mem_reachable.mp hcal
  rw [mem_reverse_key, mem_callees_key hf.1]
  simp only [mem_dependencies]
  constructor
  · rintro ⟨f', hf', hkey, g', hg', hid, hkey'⟩
    obtain rfl := eq_of_key hf' hf.1 hkey
    obtain rfl := eq_of_key hg' hg.1 hkey'
    exact ⟨g', hg, hid, rfl⟩
  · rintro ⟨g', hg', hid, hkey⟩
    exact ⟨f, hf.1, rfl, g', hg'.1, hid, hkey⟩

/-- Patch planning is exact: the plan splits the emitted functions into those it
compiles and those it reuses, and it reuses a function exactly when nothing it leads
to is stale.  So a reused function calls no function that is compiled again. -/
theorem planPatch_exact (t : FunctionTable) (requiredRoots : List String)
    (accepted : AcceptedProgram) (changes : List FunctionKey) :
    ∃ plan, planPatch t.functions t.fileCount requiredRoots (some accepted) changes = .ok plan ∧
      (plan.reJit ++ plan.reused).Nodup ∧
      (∀ key, key ∈ plan.reJit ++ plan.reused ↔
        ∃ f, t.Emitted requiredRoots f ∧ FunctionKey.fromFunction f = key) ∧
      (∀ f, t.Emitted requiredRoots f → (.fromFunction f ∈ plan.reused ↔
        ∀ g, Relation.ReflTransGen (t.EmittedDependency requiredRoots) f g →
          ¬t.Stale accepted changes g)) ∧
      ∀ f g, f ∈ t.functions → .fromFunction f ∈ plan.reused → g ∈ t.functions →
        g.id ∈ f.dependencies → .fromFunction g ∉ plan.reJit := by
  have hnodup : (t.graph requiredRoots).reachable.Nodup := nodup_keySet _
  have hknown : ∀ key ∈ (t.graph requiredRoots).reachable,
      ∃ current, (t.graph requiredRoots).byKey key = some current := by
    intro key hkey
    obtain ⟨f, hf, rfl⟩ := mem_reachable.mp hkey
    exact ⟨_, byKey_key hf.1⟩
  obtain ⟨seeded, hseeds, hseeded, hseedKeys⟩ := seeds_spec accepted changes hknown
  set affected := expandAffectedClosure (t.graph requiredRoots) seeded with haffected
  have hkeys : ∀ key, key ∈ keySet affected.keys ↔ key ∈ (t.graph requiredRoots).reachable ∧
      ∃ seed ∈ seeded.keys, Graph.Leads (t.graph requiredRoots).callees key seed := fun key => by
    rw [mem_keySet, haffected]
    exact mem_expandAffectedClosure hnodup mem_reverse_iff_callees hseeded key
  have hreJit : ∀ f, t.Emitted requiredRoots f → (.fromFunction f ∈ keySet affected.keys ↔
      ∃ g, Relation.ReflTransGen (t.EmittedDependency requiredRoots) f g ∧
        t.Stale accepted changes g) := by
    intro f hf
    rw [hkeys]
    constructor
    · rintro ⟨-, seed, hseed, hpath⟩
      obtain ⟨g, hedges, hg, rfl⟩ := (leads_key_iff hf).mp hpath
      exact ⟨g, hedges, (stale_iff hg.1).mpr ((hseedKeys _).mp hseed).2⟩
    · rintro ⟨g, hpath, hstale⟩
      have hg : t.Emitted requiredRoots g := by
        rcases hpath.cases_tail with rfl | ⟨_, _, hedge⟩
        · exact hf
        · exact hedge.2.1
      exact ⟨(key_mem_reachable hf.1).mpr hf, .fromFunction g,
        (hseedKeys _).mpr ⟨(key_mem_reachable hg.1).mpr hg, (stale_iff hg.1).mp hstale⟩,
        (leads_key_iff hf).mpr ⟨g, hpath, hg, rfl⟩⟩
  have hplan : ∃ plan, planPatch t.functions t.fileCount requiredRoots (some accepted) changes =
      .ok plan ∧ plan.reJit = keySet affected.keys ∧
        plan.reused = (t.graph requiredRoots).reachable.filter fun key => key ∉ plan.reJit := by
    have hinitial : initialSeeds (t.graph requiredRoots) (some accepted) changes = .ok seeded :=
      hseeds
    unfold planPatch
    rw [bind_ok (t.build_eq requiredRoots), bind_ok hinitial]
    exact ⟨_, rfl, rfl, rfl⟩
  obtain ⟨plan, hplan, hreJitEq, hreusedEq⟩ := hplan
  have hreused : ∀ key, key ∈ plan.reused ↔
      key ∈ (t.graph requiredRoots).reachable ∧ key ∉ plan.reJit := fun key => by
    rw [hreusedEq, List.mem_filter, decide_eq_true_eq]
  refine ⟨plan, hplan, ?_, fun key => ?_, fun f hf => ?_, fun f g hf hfreused hg hcalls => ?_⟩
  · rw [List.nodup_append, hreJitEq, hreusedEq]
    refine ⟨nodup_keySet _, hnodup.filter _, ?_⟩
    rintro key hkey _ hkey' rfl
    rw [← hreusedEq] at hkey'
    exact ((hreused key).mp hkey').2 (hreJitEq ▸ hkey)
  · rw [List.mem_append, hreused, ← mem_reachable, hreJitEq]
    constructor
    · rintro (hstale | ⟨hreachable, -⟩)
      · exact ((hkeys key).mp hstale).1
      · exact hreachable
    · intro hreachable
      by_cases hstale : key ∈ keySet affected.keys
      · exact .inl hstale
      · exact .inr ⟨hreachable, hstale⟩
  · rw [hreused, hreJitEq, hreJit f hf, key_mem_reachable hf.1]
    simp only [not_exists, not_and]
    exact ⟨fun h => h.2, fun h => ⟨hf, h⟩⟩
  · -- a stale function that the callee leads to, the caller leads to as well
    obtain ⟨hreachable, hfresh⟩ := (hreused _).mp hfreused
    have hfEmitted := (key_mem_reachable hf).mp hreachable
    rw [hreJitEq] at hfresh ⊢
    intro hstale
    have hgEmitted := (key_mem_reachable hg).mp ((hkeys _).mp hstale).1
    obtain ⟨stale, hpath, hstale⟩ := (hreJit g hgEmitted).mp hstale
    exact hfresh ((hreJit f hfEmitted).mpr
      ⟨stale, .head ⟨hfEmitted, hgEmitted, hcalls⟩ hpath, hstale⟩)

def drawAndScore (drawHash : UInt64) : List FunctionMeta :=
  [⟨0, "game::tick", "tick", 0, 1, [], typeIdVoid, none, none, [1, 2]⟩,
    ⟨1, "game::draw", "draw", 0, drawHash, [], typeIdVoid, none, none, []⟩,
    ⟨2, "game::score", "score", 0, 3, [], typeIdVoid, none, none, []⟩]

def editedDraw : FunctionTable where
  functions := drawAndScore 4
  fileCount := 1
  ids_nodup := by decide
  keys_nodup := by decide
  files_known := by decide

def drawAccepted : AcceptedProgram :=
  ((captureAcceptedProgram (drawAndScore 2) 1 []).toOption).getD ⟨[], []⟩

/-- An edit of `draw` compiles it and its caller again, and `score` is reused. -/
theorem planPatch_of_edited_draw : ∃ plan,
    planPatch (drawAndScore 4) 1 [] (some drawAccepted) [] = .ok plan ∧
      plan.reused = [⟨"game::score", "score"⟩] ∧
      plan.reJit = [⟨"game::draw", "draw"⟩, ⟨"game::tick", "tick"⟩] ∧
      (plan.reJit ++ plan.reused).Nodup := by
  obtain ⟨plan, hplan, hnodup, -⟩ := planPatch_exact editedDraw [] drawAccepted []
  have hparts : ((planPatch (drawAndScore 4) 1 [] (some drawAccepted) []).toOption.map
      fun plan => (plan.reused, plan.reJit)) = some ([⟨"game::score", "score"⟩],
        [⟨"game::draw", "draw"⟩, ⟨"game::tick", "tick"⟩]) := by
    decide +kernel
  have hplan' : planPatch (drawAndScore 4) 1 [] (some drawAccepted) [] = .ok plan := hplan
  rw [hplan'] at hparts
  obtain ⟨hreused, hreJit⟩ := Prod.mk.inj (Option.some.inj hparts)
  exact ⟨plan, hplan', hreused, hreJit, hnodup⟩

end FunctionTable

end Stasis.Patch
