import Stasis.DataFlow.CallGraph
import Stasis.Patch.Plan

namespace Stasis.Patch

open List

namespace Affected

variable {a : Affected} {key key' : FunctionKey}

@[simp] lemma mem_keys_insert :
    key ∈ (a.insert chain).keys ↔ key ∈ a.keys ∨ key = chain.function := by
  simp [keys, insert, eq_comm]

@[simp] lemma mem_keys_insertSeed :
    key' ∈ (a.insertSeed key reason).keys ↔ key' ∈ a.keys ∨ key' = key := by
  unfold insertSeed
  split_ifs with h
  · constructor
    · exact .inl
    · rintro (hmem | rfl)
      · exact hmem
      · exact h
  · exact mem_keys_insert

@[simp] lemma keys_prependPath : (a.prependPath key first).keys = a.keys := by
  simp only [keys, prependPath, map_map]
  refine map_congr_left fun chain _ => ?_
  simp only [Function.comp_apply]
  split_ifs <;> rfl

/-- While the seeds are collected every key found waits in the queue. -/
structure Seeded (nodes : List FunctionKey) (a : Affected) : Prop where
  queue_eq : a.queue = a.keys
  nodup : a.keys.Nodup
  within : ∀ key ∈ a.keys, key ∈ nodes

namespace Seeded

lemma insertSeed (h : Seeded nodes a) (hkey : key ∈ nodes) (reason : PatchReason) :
    Seeded nodes (a.insertSeed key reason) := by
  unfold Affected.insertSeed
  split_ifs with hold
  · exact h
  · have hkeys : (a.insert ⟨key, reason, [key]⟩).keys = a.keys ++ [key] := by
      simp [Affected.keys, Affected.insert]
    refine ⟨by rw [hkeys, ← h.queue_eq]; rfl, ?_, ?_⟩
    · rw [hkeys]
      exact nodup_append.mpr ⟨h.nodup, nodup_singleton _, by
        rintro x hx y hy rfl
        exact hold (mem_singleton.mp hy ▸ hx)⟩
    · rw [hkeys, forall_mem_append]
      exact ⟨h.within, by simpa using hkey⟩

lemma prependPath (h : Seeded nodes a) (key first : FunctionKey) :
    Seeded nodes (a.prependPath key first) :=
  ⟨by rw [keys_prependPath]; exact h.queue_eq, by rw [keys_prependPath]; exact h.nodup,
    by rw [keys_prependPath]; exact h.within⟩

end Seeded

end Affected

open Affected

/-- A loop over the emitted functions that seeds those with a property. -/
structure SeedsExactly (nodes : List FunctionKey) (selects : FunctionKey → Prop)
    (step : Affected → FunctionKey → Affected) : Prop where
  keys : ∀ a key key', key' ∈ (step a key).keys ↔ key' ∈ a.keys ∨ key' = key ∧ selects key
  seeded : ∀ a key, key ∈ nodes → a.Seeded nodes → (step a key).Seeded nodes

namespace SeedsExactly

lemma foldl (h : SeedsExactly nodes selects step) {loop : List FunctionKey}
    (hloop : ∀ key ∈ loop, key ∈ nodes) (ha : a.Seeded nodes) :
    (loop.foldl step a).Seeded nodes ∧
      ∀ key, key ∈ (loop.foldl step a).keys ↔ key ∈ a.keys ∨ key ∈ loop ∧ selects key := by
  induction loop generalizing a with
  | nil => exact ⟨ha, fun key => by simp⟩
  | cons next loop ih =>
    obtain ⟨hnext, hrest⟩ := forall_mem_cons.mp hloop
    obtain ⟨hsee, hkeys⟩ := ih hrest (h.seeded a next hnext ha)
    refine ⟨hsee, fun key => ?_⟩
    rw [foldl_cons, hkeys key, h.keys a next key, mem_cons]
    constructor
    · rintro ((hold | ⟨rfl, hsel⟩) | ⟨hmem, hsel⟩)
      · exact .inl hold
      · exact .inr ⟨.inl rfl, hsel⟩
      · exact .inr ⟨.inr hmem, hsel⟩
    · rintro (hold | ⟨rfl | hmem, hsel⟩)
      · exact .inl (.inl hold)
      · exact .inl (.inr ⟨rfl, hsel⟩)
      · exact .inr ⟨hmem, hsel⟩

end SeedsExactly

section Seeds

variable {graph : CurrentGraph} {accepted : AcceptedProgram} {changes : List FunctionKey}

def SelfChanged (graph : CurrentGraph) (accepted : AcceptedProgram) (changes : List FunctionKey)
    (key : FunctionKey) : Prop :=
  ∃ current, graph.byKey key = some current ∧
    (seedReason accepted changes key current).isSome = true

def UsesChangedTemplate (graph : CurrentGraph) (accepted : AcceptedProgram) (key : FunctionKey) :
    Prop :=
  ∃ current, graph.byKey key = some current ∧
    ∃ dependency ∈ current.dependencies, isChangedTemplate graph accepted dependency = true

def CalledRemoved (graph : CurrentGraph) (accepted : AcceptedProgram) (key : FunctionKey) : Prop :=
  ∃ previous, accepted.functions.lookup key = some previous ∧
    ∃ dependency ∈ previous.dependencies, isRemovedReachable graph accepted dependency = true

def seedChangeStep (graph : CurrentGraph) (accepted : AcceptedProgram) (changes : List FunctionKey)
    (a : Affected) (key : FunctionKey) : Affected :=
  match (graph.byKey key).bind (seedReason accepted changes key) with
  | some reason => a.insertSeed key reason
  | none => a

lemma seedChange_eq (h : graph.byKey key = some current) :
    seedChange graph accepted changes a key =
      .ok (seedChangeStep graph accepted changes a key) := by
  simp only [seedChange, seedChangeStep, h, Option.bind_some]
  cases seedReason accepted changes key current <;> rfl

lemma seedChange_foldlM {loop : List FunctionKey}
    (h : ∀ key ∈ loop, ∃ current, graph.byKey key = some current) :
    loop.foldlM (seedChange graph accepted changes) a =
      .ok (loop.foldl (seedChangeStep graph accepted changes) a) := by
  induction loop generalizing a with
  | nil => rfl
  | cons key loop ih =>
    obtain ⟨⟨current, hcur⟩, hrest⟩ := forall_mem_cons.mp h
    rw [foldlM_cons, foldl_cons, seedChange_eq hcur]
    exact ih hrest

lemma seedChangeStep_exact (graph : CurrentGraph) (accepted : AcceptedProgram)
    (changes : List FunctionKey) :
    SeedsExactly graph.reachable (SelfChanged graph accepted changes)
      (seedChangeStep graph accepted changes) := by
  constructor
  · intro a key key'
    unfold seedChangeStep SelfChanged
    cases hcur : graph.byKey key with
    | none => simp
    | some current =>
      cases hrea : seedReason accepted changes key current with
      | none | some reason => simp [hrea]
  · intro a key hkey ha
    unfold seedChangeStep
    split
    · exact ha.insertSeed hkey _
    · exact ha

lemma seedTemplateCaller_exact (graph : CurrentGraph) (accepted : AcceptedProgram) :
    SeedsExactly graph.reachable (UsesChangedTemplate graph accepted)
      (seedTemplateCaller graph accepted) := by
  constructor
  · intro a key key'
    have hmem : key ∈ a.keys → (key' ∈ a.keys ↔
        key' ∈ a.keys ∨ key' = key ∧ UsesChangedTemplate graph accepted key) := by
      intro hold
      constructor
      · exact .inl
      · rintro (h | ⟨rfl, -⟩)
        · exact h
        · exact hold
    unfold seedTemplateCaller
    split_ifs with hold
    · exact hmem hold
    · unfold UsesChangedTemplate
      cases hcur : graph.byKey key with
      | none => simp
      | some current =>
        cases hcal : current.dependencies.find? (isChangedTemplate graph accepted) with
        | none | some callee => simp [← find?_isSome, hcal]
  · intro a key hkey ha
    unfold seedTemplateCaller
    split_ifs
    · exact ha
    · split
      · exact ha
      · split
        · exact ha.insertSeed hkey _
        · exact ha

lemma seedRemovedCaller_exact (graph : CurrentGraph) (accepted : AcceptedProgram) :
    SeedsExactly graph.reachable (CalledRemoved graph accepted)
      (seedRemovedCaller graph accepted) := by
  constructor
  · intro a key key'
    unfold seedRemovedCaller CalledRemoved
    rcases hprev : accepted.functions.lookup key with _ | previous
    · simp
    simp only [Option.bind_some, Option.some.injEq, exists_eq_left', ← find?_isSome]
    rcases hcal : previous.dependencies.find? (isRemovedReachable graph accepted) with _ | _
    · simp
    simp only [Option.isSome_some, and_true]
    split_ifs with hold
    · constructor
      · exact .inl
      · rintro (h | rfl)
        · exact h
        · exact hold
    · simp
  · intro a key hkey ha
    unfold seedRemovedCaller
    split
    · exact ha
    · split_ifs
      · exact ha
      · exact (ha.insertSeed hkey _).prependPath _ _

lemma seeds_spec (accepted : AcceptedProgram) (changes : List FunctionKey)
    (hknown : ∀ key ∈ graph.reachable, ∃ current, graph.byKey key = some current) :
    ∃ a, seeds graph accepted changes = .ok a ∧ a.Seeded graph.reachable ∧
      ∀ key, key ∈ a.keys ↔ key ∈ graph.reachable ∧ (SelfChanged graph accepted changes key ∨
        UsesChangedTemplate graph accepted key ∨ CalledRemoved graph accepted key) := by
  have hstart : ({} : Affected).Seeded graph.reachable := ⟨rfl, .nil, by simp [Affected.keys]⟩
  obtain ⟨hchg, hchaKe⟩ := (seedChangeStep_exact graph accepted changes).foldl (fun _ => id) hstart
  obtain ⟨htem, htemKe⟩ := (seedTemplateCaller_exact graph accepted).foldl (fun _ => id) hchg
  obtain ⟨hrem, hremKe⟩ := (seedRemovedCaller_exact graph accepted).foldl (fun _ => id) htem
  refine ⟨_, ?_, hrem, fun key => ?_⟩
  · unfold seeds
    rw [seedChange_foldlM hknown]
    rfl
  · rw [hremKe, htemKe, hchaKe]
    tauto

end Seeds

section Expansion

variable {graph : CurrentGraph}

lemma mem_callees (h : callee ∈ graph.callees key) : callee ∈ graph.reachable := by
  unfold CurrentGraph.callees at h
  split at h
  · cases h
  · exact of_decide_eq_true (mem_filter.mp h).2

lemma mem_callers :
    caller ∈ graph.callers callee ↔ caller ∈ graph.reachable ∧ callee ∈ graph.callees caller := by
  unfold CurrentGraph.callers
  split_ifs with h
  · simp
  · simp only [not_mem_nil, false_iff, not_and]
    exact fun _ hedge => h (mem_callees hedge)

lemma sccs_spec (hnodup : graph.reachable.Nodup) :
    Graph.IsComponents graph.callees graph.reachable graph.sccs := by
  have hsucc : ∀ x ∈ graph.reachable, ∀ y ∈ graph.callees x, y ∈ graph.reachable :=
    fun _ _ _ => mem_callees
  obtain ⟨horder, hordNo, hord⟩ := Graph.finishOrder_spec hsucc
  exact Graph.components_spec (fun x hx y hy => ⟨mem_callees hy, mem_callers.mpr ⟨hx, hy⟩⟩)
    (fun _ _ => mem_callers.mp) hnodup hord hordNo horder mem_keySet fun c _ => nodup_keySet c

lemma sccs_leads (hnodup : graph.reachable.Nodup) (hcomp : component ∈ graph.sccs)
    (hkey : key ∈ component) (hpeer : peer ∈ component) :
    peer ∈ graph.reachable ∧ Graph.Leads graph.callees peer key := by
  have hsccs := sccs_spec hnodup
  have hreach := hsccs.within component hcomp
  exact ⟨hreach peer hpeer,
    ((hsccs.mem_iff component hcomp peer hpeer key (hreach key hkey)).mp hkey).1⟩

lemma sccIndexByKey_lookup (h : graph.sccIndexByKey.lookup key = some index) :
    ∃ component, graph.sccs[index]? = some component ∧ key ∈ component := by
  have hmem := mem_of_lookup h
  simp only [CurrentGraph.sccIndexByKey, mem_reverse, mem_flatMap, mem_map] at hmem
  obtain ⟨⟨component, index'⟩, hind, key', hkey, heq⟩ := hmem
  cases heq
  exact ⟨component, mk_mem_zipIdx_iff_getElem?.mp hind, hkey⟩

/-- Both searches of a call graph find its strongly connected components, that of the
planner in the graph of the reachable functions, and the planner's index sends every
function to its component. -/
theorem components_exact (directById : List DataFlow.DirectEffects) (graph : CurrentGraph)
    (reachable : List FunctionKey) :
    Graph.IsComponents (DataFlow.callees directById) (DataFlow.functionIds directById)
        (DataFlow.stronglyConnectedComponents directById) ∧
      let graph := { graph with reachable := keySet reachable }
      Graph.IsComponents graph.callees graph.reachable graph.sccs ∧
        ∀ key ∈ reachable, ∃ index component, graph.sccIndexByKey.lookup key = some index ∧
          graph.sccs[index]? = some component ∧ key ∈ component := by
  refine ⟨DataFlow.stronglyConnectedComponents_spec _, ?_⟩
  intro graph
  have hsccs : Graph.IsComponents graph.callees graph.reachable graph.sccs :=
    sccs_spec (nodup_keySet reachable)
  refine ⟨hsccs, fun key hkey => ?_⟩
  obtain ⟨component, hcomp, hmem⟩ := hsccs.covers key (mem_keySet.mpr hkey)
  obtain ⟨index, hindex⟩ := mem_iff_getElem?.mp hcomp
  have hsome : (graph.sccIndexByKey.lookup key).isSome := by
    refine lookup_isSome_iff.mpr ⟨index, mem_reverse.mpr (mem_flatMap.mpr ⟨(component, index), ?_⟩)⟩
    exact ⟨mk_mem_zipIdx_iff_getElem?.mpr hindex, mem_map_of_mem hmem⟩
  obtain ⟨index, hlookup⟩ := Option.isSome_iff_exists.mp hsome
  obtain ⟨component, hget, hin⟩ := sccIndexByKey_lookup hlookup
  exact ⟨index, component, hlookup, hget, hin⟩

/-- What holds while the seeds are expanded; the callers of the `opened` functions
are being looked at. -/
structure Expanding (graph : CurrentGraph) (seeds opened : List FunctionKey) (a : Affected) :
    Prop where
  within : ∀ key ∈ a.keys, key ∈ graph.reachable
  sound : ∀ key ∈ a.keys, ∃ seed ∈ seeds, Graph.Leads graph.callees key seed
  seeded : ∀ seed ∈ seeds, seed ∈ a.keys
  queued : ∀ key ∈ a.queue, key ∈ a.keys
  covered : ∀ key ∈ a.keys, key ∈ a.queue ∨ key ∈ opened ∨
    ∀ caller ∈ graph.reachable, key ∈ graph.callees caller → caller ∈ a.keys

def remaining (graph : CurrentGraph) (a : Affected) : ℕ :=
  a.queue.length + ((graph.reachable.filter fun key => key ∉ a.keys).map fun _ => 1).sum

namespace Expanding

variable {seeds opened : List FunctionKey} {a : Affected}

lemma insert (h : Expanding graph seeds opened a) (chain : PatchReasonChain)
    (hnew : chain.function ∉ a.keys) (hreach : chain.function ∈ graph.reachable)
    (hsound : ∃ seed ∈ seeds, Graph.Leads graph.callees chain.function seed) :
    Expanding graph seeds opened (a.insert chain) ∧
      remaining graph (a.insert chain) ≤ remaining graph a := by
  constructor
  · refine ⟨fun key hkey => ?_, fun key hkey => ?_, fun seed hseed => ?_, fun key hkey => ?_,
      fun key hkey => ?_⟩
    · rcases mem_keys_insert.mp hkey with hkey | rfl
      · exact h.within key hkey
      · exact hreach
    · rcases mem_keys_insert.mp hkey with hkey | rfl
      · exact h.sound key hkey
      · exact hsound
    · exact mem_keys_insert.mpr (.inl (h.seeded seed hseed))
    · rcases mem_append.mp hkey with hkey | hkey
      · exact mem_keys_insert.mpr (.inl (h.queued key hkey))
      · exact mem_keys_insert.mpr (.inr (mem_singleton.mp hkey))
    · rcases mem_keys_insert.mp hkey with hkey | rfl
      · rcases h.covered key hkey with hq | hopen | hdone
        · exact .inl (mem_append_left _ hq)
        · exact .inr (.inl hopen)
        · exact .inr (.inr fun caller hc hedge =>
            mem_keys_insert.mpr (.inl (hdone caller hc hedge)))
      · exact .inl (mem_append_right _ (mem_singleton.mpr rfl))
  · have hkeys : ∀ key, key ∈ (a.insert chain).keys ↔ key = chain.function ∨ key ∈ a.keys :=
      fun key => mem_keys_insert.trans or_comm
    have hpay := sum_filter_unvisited hreach hnew hkeys fun _ => 1
    have hlen : (a.insert chain).queue.length = a.queue.length + 1 := by
      simp [Affected.insert]
    unfold remaining
    omega

lemma addPeers (hnodup : graph.reachable.Nodup)
    {component peers : List FunctionKey} (hcomp : component ∈ graph.sccs)
    (hcal : callee ∈ component) (hpeers : ∀ peer ∈ peers, peer ∈ component)
    (basePath : List FunctionKey) (h : Expanding graph seeds opened a) (hkey : callee ∈ a.keys) :
    Expanding graph seeds opened (peers.foldl (addPeer callee basePath) a) ∧
      callee ∈ (peers.foldl (addPeer callee basePath) a).keys ∧
      remaining graph (peers.foldl (addPeer callee basePath) a) ≤ remaining graph a := by
  induction peers generalizing a with
  | nil => exact ⟨h, hkey, le_rfl⟩
  | cons peer peers ih =>
    obtain ⟨hpeer, hrest⟩ := forall_mem_cons.mp hpeers
    rw [foldl_cons, addPeer]
    split_ifs with hold
    · exact ih hrest h hkey
    · -- a peer leads to the function its component was entered by, and so to its seed
      obtain ⟨hreach, hleads⟩ := sccs_leads hnodup hcomp hcal hpeer
      obtain ⟨seed, hseed, hpath⟩ := h.sound callee hkey
      obtain ⟨h', hle⟩ := h.insert ⟨peer, .sccPeer callee, basePath ++ [peer]⟩ hold hreach
        ⟨seed, hseed, hleads.trans hpath⟩
      obtain ⟨h'', hkey', hle'⟩ := ih hrest h' (mem_keys_insert.mpr (.inl hkey))
      exact ⟨h'', hkey', hle'.trans hle⟩

lemma expandComponent (hnodup : graph.reachable.Nodup)
    (h : Expanding graph seeds opened a) (hkey : callee ∈ a.keys) :
    Expanding graph seeds opened (expandComponent graph callee a) ∧
      callee ∈ (Patch.expandComponent graph callee a).keys ∧
      remaining graph (Patch.expandComponent graph callee a) ≤ remaining graph a := by
  unfold Patch.expandComponent
  cases hindex : graph.sccIndexByKey.lookup callee with
  | none => exact ⟨h, hkey, le_rfl⟩
  | some index =>
    simp only
    split_ifs
    · exact ⟨h, hkey, le_rfl⟩
    · obtain ⟨component, hcomp, hmem⟩ := sccIndexByKey_lookup hindex
      rw [hcomp]
      exact addPeers (a := { a with expandedComponents := index :: a.expandedComponents }) hnodup
        (mem_of_getElem? hcomp) hmem (fun _ => id) _
        ⟨h.within, h.sound, h.seeded, h.queued, h.covered⟩ hkey

lemma addCallers {callers : List FunctionKey}
    (hcall : ∀ caller ∈ callers, caller ∈ graph.reachable → callee ∈ graph.callees caller)
    (h : Expanding graph seeds opened a) (hkey : callee ∈ a.keys) :
    Expanding graph seeds opened (callers.foldl (addCaller graph callee) a) ∧
      (∀ key, key ∈ a.keys ∨ key ∈ callers ∧ key ∈ graph.reachable →
        key ∈ (callers.foldl (addCaller graph callee) a).keys) ∧
      remaining graph (callers.foldl (addCaller graph callee) a) ≤ remaining graph a := by
  induction callers generalizing a with
  | nil => exact ⟨h, fun key hk => hk.resolve_right (by simp), le_rfl⟩
  | cons caller callers ih =>
    obtain ⟨hcal, hrest⟩ := forall_mem_cons.mp hcall
    rw [foldl_cons, addCaller]
    split_ifs with hskip
    · obtain ⟨h', hkeys, hle⟩ := ih hrest h hkey
      refine ⟨h', fun key hk => hkeys key ?_, hle⟩
      rcases hk with hk | ⟨hk, hreac⟩
      · exact .inl hk
      · rcases mem_cons.mp hk with rfl | hk
        · exact .inl (hskip.resolve_left (not_not.mpr hreac))
        · exact .inr ⟨hk, hreac⟩
    · obtain ⟨hreac, hnew⟩ := not_or.mp hskip
      rw [not_not] at hreac
      obtain ⟨seed, hseed, hpath⟩ := h.sound callee hkey
      obtain ⟨h', hle⟩ := h.insert
        ⟨caller, .directCaller callee, a.pathTo callee ++ [caller]⟩ hnew hreac
        ⟨seed, hseed, .head (hcal hreac) hpath⟩
      obtain ⟨h'', hkeys, hle'⟩ := ih hrest h' (mem_keys_insert.mpr (.inl hkey))
      refine ⟨h'', fun key hk => hkeys key ?_, hle'.trans hle⟩
      rcases hk with hk | ⟨hk, hreach⟩
      · exact .inl (mem_keys_insert.mpr (.inl hk))
      · rcases mem_cons.mp hk with rfl | hk
        · exact .inl (mem_keys_insert.mpr (.inr rfl))
        · exact .inr ⟨hk, hreach⟩

lemma step (hnodup : graph.reachable.Nodup)
    (hrev : ∀ caller ∈ graph.reachable, ∀ callee ∈ graph.reachable,
      caller ∈ graph.reverse callee ↔ callee ∈ graph.callees caller)
    (h : Expanding graph seeds [] a) (hs : expandStep graph a = some a') :
    Expanding graph seeds [] a' ∧ remaining graph a' < remaining graph a := by
  unfold expandStep at hs
  match hqueue : a.queue with
  | [] => simp [hqueue] at hs
  | callee :: queue =>
    simp only [hqueue] at hs
    cases hs
    have hkey : callee ∈ a.keys := h.queued callee (by rw [hqueue]; exact (.head _))
    have hcal := h.within callee hkey
    have hpop : Expanding graph seeds [callee] { a with queue } := by
      refine ⟨h.within, h.sound, h.seeded, fun key hk => h.queued key ?_, fun key hk => ?_⟩
      · rw [hqueue]
        exact .tail _ hk
      · rcases h.covered key hk with hq | hopen | hdone
        · rw [hqueue] at hq
          rcases mem_cons.mp hq with rfl | hq
          · exact .inr (.inl (.head _))
          · exact .inl hq
        · cases hopen
        · exact .inr (.inr hdone)
    have hless : remaining graph { a with queue } < remaining graph a := by
      simp [remaining, hqueue, Affected.keys]
    obtain ⟨hpeers, hkey', hpeeLe⟩ := hpop.expandComponent hnodup hkey
    obtain ⟨hcall, hkeys, hcalLe⟩ := hpeers.addCallers
      (fun caller (hc : caller ∈ graph.reverse callee) hreach =>
        (hrev caller hreach callee hcal).mp hc) hkey'
    refine ⟨⟨hcall.within, hcall.sound, hcall.seeded, hcall.queued, fun key hk => ?_⟩,
      (hcalLe.trans hpeeLe).trans_lt hless⟩
    rcases hcall.covered key hk with hq | hopen | hdone
    · exact .inl hq
    · obtain rfl := mem_singleton.mp hopen
      refine .inr (.inr fun caller hreach hedge => hkeys caller (.inr ⟨?_, hreach⟩))
      exact (hrev caller hreach key hcal).mpr hedge
    · exact .inr (.inr hdone)

end Expanding

lemma mem_expandAffectedClosure (hnodup : graph.reachable.Nodup)
    (hrev : ∀ caller ∈ graph.reachable, ∀ callee ∈ graph.reachable,
      caller ∈ graph.reverse callee ↔ callee ∈ graph.callees caller) (ha : a.Seeded graph.reachable)
    (key : FunctionKey) :
    key ∈ (expandAffectedClosure graph a).keys ↔
      key ∈ graph.reachable ∧ ∃ seed ∈ a.keys, Graph.Leads graph.callees key seed := by
  have hstart : Expanding graph a.keys [] a :=
    ⟨ha.within, fun key hk => ⟨key, hk, .refl⟩, fun _ => id, fun key hk => ha.queue_eq ▸ hk,
      fun key hk => .inl (ha.queue_eq.symm ▸ hk)⟩
  have hfuel : remaining graph a ≤ graph.reachable.length := by
    have hsplit : (a.keys ++ graph.reachable.filter fun key => key ∉ a.keys).Nodup := by
      refine ha.nodup.append (hnodup.filter _) fun k hk hk' => ?_
      exact of_decide_eq_true (mem_filter.mp hk').2 hk
    have hsub : (a.keys ++ graph.reachable.filter fun key => key ∉ a.keys) ⊆ graph.reachable := by
      refine append_subset.mpr ⟨ha.within, filter_subset_self _⟩
    have hlen := (subperm_of_subset hsplit hsub).length_le
    simp only [length_append] at hlen
    simpa [remaining, ha.queue_eq] using hlen
  have hstep : ∀ b b', Expanding graph a.keys [] b → expandStep graph b = some b' →
      Expanding graph a.keys [] b' := fun b b' hb hs => (hb.step hnodup hrev hs).1
  have hend : Expanding graph a.keys [] (expandAffectedClosure graph a) :=
    runUntil_invariant _ hstep hstart
  have hdone : expandStep graph (expandAffectedClosure graph a) = none :=
    runUntil_done hstep (fun b b' hb hs => (hb.step hnodup hrev hs).2) hstart hfuel
  have hempty : (expandAffectedClosure graph a).queue = [] := by
    unfold expandStep at hdone
    split at hdone
    · assumption
    · cases hdone
  constructor
  · exact fun hk => ⟨hend.within key hk, hend.sound key hk⟩
  · rintro ⟨hkey, seed, hseed, hpath⟩
    induction hpath using Relation.ReflTransGen.head_induction_on with
    | refl => exact hend.seeded seed hseed
    | head hedge _ ih =>
      have hcal := ih (mem_callees hedge)
      rcases hend.covered _ hcal with hq | hopen | hclosed
      · rw [hempty] at hq
        cases hq
      · cases hopen
      · exact hclosed _ hkey hedge

end Expansion

end Stasis.Patch
