import Mathlib.Logic.Relation
import Stasis.Lib.Closure
import Stasis.Lib.Loop

namespace Stasis.Compiler

open List

structure FunctionMeta where
  id : ℕ
  symbolId : String
  file : String
  signatureHash : UInt64
  bodyHash : UInt64
  requiresContract : Bool
  /-- The functions that its calls resolve to. -/
  callees : List ℕ
deriving DecidableEq, Repr

/-- An indexed program; a second function of an identity is refused. -/
structure IndexedProgram where
  functions : List FunctionMeta
  ids : (functions.map FunctionMeta.id).Nodup
  symbols : (functions.map FunctionMeta.symbolId).Nodup

namespace IndexedProgram

variable (program : IndexedProgram)

def dependents (id : ℕ) : List ℕ :=
  (program.functions.filter fun caller => caller.callees.contains id && caller.id != id).map
    FunctionMeta.id

structure Propagation where
  queue : List ℕ
  dirty : List ℕ

def Propagation.mark (s : Propagation) (dependent : ℕ) : Propagation :=
  if s.dirty.contains dependent then s else ⟨s.queue ++ [dependent], dependent :: s.dirty⟩

def propagateStep : Propagation → Option Propagation
  | ⟨[], _⟩ => none
  | ⟨id :: queue, dirty⟩ => some ((program.dependents id).foldl .mark ⟨queue, dirty⟩)

def propagateDirtyFromSignatureChanges (roots dirty : List ℕ) : List ℕ :=
  (runUntil program.propagateStep (roots.length + program.functions.length) ⟨roots, dirty⟩).dirty

/-- What holds while a propagation runs: nothing is unmarked, and the callers of its
roots and of what it marked are dirty, unless they are yet to be looked at. -/
structure Carrying (roots dirty : List ℕ) (s : Propagation) : Prop where
  kept : dirty ⊆ s.dirty
  carried : ∀ id, id ∈ roots ∨ id ∈ s.dirty ∧ id ∉ dirty →
    id ∈ s.queue ∨ program.dependents id ⊆ s.dirty

/-- What is left to do: the queue, and the functions that are not dirty. -/
def workLeft (s : Propagation) : ℕ :=
  s.queue.length +
    (((program.functions.map FunctionMeta.id).filter fun id => id ∉ s.dirty).map fun _ => 1).sum

variable {program} {roots dirty : List ℕ}

lemma foldl_mark (ids : List ℕ) (s : Propagation) :
    s.queue ⊆ (ids.foldl .mark s).queue ∧ s.dirty ⊆ (ids.foldl .mark s).dirty ∧
      ids ⊆ (ids.foldl .mark s).dirty ∧
      ∀ id ∈ (ids.foldl .mark s).dirty, id ∈ s.dirty ∨ id ∈ (ids.foldl .mark s).queue := by
  induction ids generalizing s with
  | nil => exact ⟨fun _ h => h, fun _ h => h, nil_subset _, fun _ h => .inl h⟩
  | cons dependent rest ih =>
    have hmark : s.queue ⊆ (s.mark dependent).queue ∧ s.dirty ⊆ (s.mark dependent).dirty ∧
        dependent ∈ (s.mark dependent).dirty ∧
        ∀ id ∈ (s.mark dependent).dirty, id ∈ s.dirty ∨ id ∈ (s.mark dependent).queue := by
      unfold Propagation.mark
      split
      case isTrue h => exact ⟨fun _ h => h, fun _ h => h, by simpa using h, fun _ h => .inl h⟩
      case isFalse h => simp +contextual
    obtain ⟨hqueue, hdirty, hmarked, hnew⟩ := hmark
    obtain ⟨hqueue', hdirty', hrest, hnew'⟩ := ih (s.mark dependent)
    refine ⟨List.Subset.trans hqueue hqueue', List.Subset.trans hdirty hdirty',
      cons_subset.mpr ⟨hdirty' hmarked, hrest⟩, fun id hid => ?_⟩
    rcases hnew' id hid with h | h
    · exact (hnew id h).imp_right fun h => hqueue' h
    · exact .inr h

lemma propagateStep_carrying (s s' : Propagation) (h : program.Carrying roots dirty s)
    (hstep : program.propagateStep s = some s') : program.Carrying roots dirty s' := by
  obtain ⟨_ | ⟨head, queue⟩, now⟩ := s
  · cases hstep
  · obtain rfl := Option.some.inj hstep
    obtain ⟨hqueue, hnow, hhead, hnew⟩ := foldl_mark (program.dependents head) ⟨queue, now⟩
    refine ⟨List.Subset.trans h.kept hnow, fun id hid => ?_⟩
    -- either the function was to be carried on before, or this step marked and queued it
    have hbefore := hid.imp_right fun h => And.intro (hnew id h.1) h.2
    by_cases hqueued : id ∈ ((program.dependents head).foldl Propagation.mark ⟨queue, now⟩).queue
    · exact .inl hqueued
    rcases h.carried id (hbefore.imp_right fun h => ⟨h.1.resolve_right hqueued, h.2⟩) with hid | hid
    · rcases mem_cons.mp hid with rfl | hid
      · exact .inr hhead
      · exact absurd (hqueue hid) hqueued
    · exact .inr (List.Subset.trans hid hnow)

lemma workLeft_mark {id : ℕ} (h : id ∈ program.functions.map FunctionMeta.id) (s : Propagation) :
    program.workLeft (s.mark id) ≤ program.workLeft s := by
  unfold Propagation.mark
  split
  case isTrue => exact Nat.le_refl _
  case isFalse hclean =>
    have hpay := sum_filter_unvisited h (by simpa using hclean) (fun _ => mem_cons) fun _ => 1
    simp only [workLeft, length_append, length_singleton]
    omega

lemma propagateStep_workLeft (s s' : Propagation) (hstep : program.propagateStep s = some s') :
    program.workLeft s' < program.workLeft s := by
  obtain ⟨_ | ⟨head, queue⟩, now⟩ := s
  · cases hstep
  · obtain rfl := Option.some.inj hstep
    have hfold : program.workLeft ((program.dependents head).foldl .mark ⟨queue, now⟩) ≤
        program.workLeft ⟨queue, now⟩ :=
      foldlRecOn (motive := fun s => program.workLeft s ≤ program.workLeft ⟨queue, now⟩) _ _
        (Nat.le_refl _) fun _ hle id hid =>
        Nat.le_trans (workLeft_mark ((filter_sublist.map _).subset hid) _) hle
    refine Nat.lt_of_le_of_lt hfold ?_
    simp only [workLeft, length_cons]
    omega

/-- A propagation unmarks nothing, and marks the callers of its roots and of everything
it marks. -/
lemma propagate_spec (program : IndexedProgram) (roots dirty : List ℕ) :
    dirty ⊆ program.propagateDirtyFromSignatureChanges roots dirty ∧
      ∀ id, id ∈ roots ∨ id ∈ program.propagateDirtyFromSignatureChanges roots dirty ∧ id ∉ dirty →
        program.dependents id ⊆ program.propagateDirtyFromSignatureChanges roots dirty := by
  have hstart : program.Carrying roots dirty ⟨roots, dirty⟩ :=
    ⟨fun _ h => h, fun id hid => .inl (hid.resolve_right fun h => h.2 h.1)⟩
  have hend := runUntil_invariant (n := roots.length + program.functions.length) _
    propagateStep_carrying hstart
  have hdone := runUntil_done (n := roots.length + program.functions.length)
    propagateStep_carrying (fun s s' _ => propagateStep_workLeft s s') hstart
    (by simpa [workLeft] using length_filter_le _ (program.functions.map FunctionMeta.id))
  refine ⟨hend.kept, fun id hid => (hend.carried id hid).resolve_left fun h => ?_⟩
  -- the walk is over only when the queue is empty
  revert hdone h
  cases runUntil program.propagateStep _ ⟨roots, dirty⟩ with
  | mk queue now => cases queue <;> simp [propagateStep]

lemma mem_foldl_mark (ids : List ℕ) (s : Propagation) (id : ℕ) :
    (id ∈ (ids.foldl .mark s).queue → id ∈ s.queue ∨ id ∈ ids ∧ id ∉ s.dirty) ∧
      (id ∈ (ids.foldl .mark s).dirty → id ∈ s.dirty ∨ id ∈ ids) := by
  induction ids generalizing s with
  | nil => exact ⟨.inl, .inl⟩
  | cons dependent rest ih =>
    obtain ⟨hqueue, hdirty⟩ := ih (s.mark dependent)
    rw [foldl_cons]
    revert hqueue hdirty
    unfold Propagation.mark
    split
    case isTrue => simp +contextual; tauto
    case isFalse hclean =>
      have hclean : dependent ∉ s.dirty := by simpa using hclean
      simp only [mem_append, mem_cons, not_mem_nil, or_false]
      refine fun hqueue hdirty => ⟨fun h => ?_, fun h => by tauto⟩
      rcases hqueue h with (h | rfl) | h
      · exact .inl h
      · exact .inr ⟨.inl rfl, hclean⟩
      · exact .inr ⟨.inr h.1, fun hid => h.2 (.inr hid)⟩

/-- What a propagation marks has every property that the callers of the roots have, and
that callers take over from a function that was not dirty. -/
lemma propagate_sound (program : IndexedProgram) (roots dirty : List ℕ) (P : ℕ → Prop)
    (hroots : ∀ id ∈ roots, ∀ caller ∈ program.dependents id, P caller)
    (hstep : ∀ id, id ∉ dirty → P id → ∀ caller ∈ program.dependents id, P caller) :
    ∀ id ∈ program.propagateDirtyFromSignatureChanges roots dirty, id ∈ dirty ∨ P id := by
  refine (runUntil_invariant (fun s : Propagation => dirty ⊆ s.dirty ∧
    (∀ id ∈ s.queue, id ∈ roots ∨ id ∉ dirty ∧ P id) ∧ ∀ id ∈ s.dirty, id ∈ dirty ∨ P id)
    ?_ ⟨fun _ h => h, fun _ h => .inl h, fun _ h => .inl h⟩).2.2
  rintro ⟨_ | ⟨head, queue⟩, now⟩ s' ⟨hkept, hqueue, hnow⟩ heq
  · cases heq
  · obtain rfl := Option.some.inj heq
    have hcallers : ∀ caller ∈ program.dependents head, P caller := by
      rcases hqueue head mem_cons_self with h | ⟨hclean, hP⟩
      · exact hroots head h
      · exact hstep head hclean hP
    refine ⟨List.Subset.trans hkept (foldl_mark _ ⟨queue, now⟩).2.1, fun id hid => ?_,
      fun id hid => ?_⟩
    · rcases (mem_foldl_mark _ _ _).1 hid with h | ⟨hmem, hclean⟩
      · exact hqueue id (mem_cons_of_mem _ h)
      · exact .inr ⟨fun h => hclean (hkept h), hcallers id hmem⟩
    · rcases (mem_foldl_mark _ _ _).2 hid with h | hmem
      · exact hnow id h
      · exact .inr (hcallers id hmem)

end IndexedProgram

/-- A program, the one it replaces, and the files that a changed module invalidates. -/
structure IndexPass extends IndexedProgram where
  previous : IndexedProgram
  reverseInvalidated : List String

namespace IndexPass

variable (pass : IndexPass)

def previousHashes (symbolId : String) : Option FunctionMeta :=
  pass.previous.functions.find? fun function => function.symbolId == symbolId

def signatureChanged (function : FunctionMeta) : Bool :=
  (pass.previousHashes function.symbolId).all
    fun old => old.signatureHash != function.signatureHash

def bodyChanged (function : FunctionMeta) : Bool :=
  (pass.previousHashes function.symbolId).all fun old => old.bodyHash != function.bodyHash

def requiredTemplateChanged (function : FunctionMeta) : Bool :=
  pass.bodyChanged function && (function.requiresContract ||
    (pass.previousHashes function.symbolId).any FunctionMeta.requiresContract)

def signatureChangedIds : List ℕ :=
  (pass.functions.filter pass.signatureChanged).map FunctionMeta.id

def requiredTemplateChangedIds : List ℕ :=
  (pass.functions.filter pass.requiredTemplateChanged).map FunctionMeta.id

def seeded : List ℕ :=
  (pass.functions.filter fun function => pass.signatureChanged function ||
    pass.bodyChanged function || pass.reverseInvalidated.contains function.file).map FunctionMeta.id

def dirty : List ℕ :=
  pass.propagateDirtyFromSignatureChanges pass.requiredTemplateChangedIds
    (pass.propagateDirtyFromSignatureChanges pass.signatureChangedIds pass.seeded)

def Calls (caller callee : ℕ) : Prop :=
  ∃ function ∈ pass.functions, function.id = caller ∧ callee ∈ function.callees

def Changed (id : ℕ) : Prop :=
  id ∈ pass.signatureChangedIds ∨ id ∈ pass.requiredTemplateChangedIds

/-- A call of a function that the walk does not stop at: it is one of those that
changed, or was not dirty for another reason. -/
def OpenCall (caller callee : ℕ) : Prop :=
  pass.Calls caller callee ∧ (pass.Changed callee ∨ callee ∉ pass.seeded)

variable {pass}

lemma dependents_dirty {id : ℕ} (h : pass.Changed id ∨ id ∈ pass.dirty ∧ id ∉ pass.seeded) :
    pass.dependents id ⊆ pass.dirty := by
  obtain ⟨-, hfirst⟩ :=
    IndexedProgram.propagate_spec pass.toIndexedProgram pass.signatureChangedIds pass.seeded
  obtain ⟨hkept, hsecond⟩ := IndexedProgram.propagate_spec pass.toIndexedProgram
    pass.requiredTemplateChangedIds
    (pass.propagateDirtyFromSignatureChanges pass.signatureChangedIds pass.seeded)
  rcases h with (hroot | hroot) | ⟨hmarked, hclean⟩
  · exact List.Subset.trans (hfirst id (.inl hroot)) hkept
  · exact hsecond id (.inl hroot)
  · by_cases hid : id ∈ pass.propagateDirtyFromSignatureChanges pass.signatureChangedIds pass.seeded
    · exact List.Subset.trans (hfirst id (.inr ⟨hid, hclean⟩)) hkept
    · exact hsecond id (.inr ⟨hmarked, hid⟩)

lemma dirty_of_openCall (h : pass.OpenCall caller callee) (hdirty : callee ∈ pass.dirty) :
    caller ∈ pass.dirty := by
  obtain ⟨⟨function, hmem, rfl, hcallee⟩, hopen⟩ := h
  by_cases heq : function.id = callee
  · exact heq ▸ hdirty
  · refine dependents_dirty (hopen.imp_right fun h => ⟨hdirty, h⟩)
      (mem_map_of_mem (mem_filter.mpr ⟨hmem, ?_⟩))
    simp [hcallee, heq]

lemma seeded_subset_dirty : pass.seeded ⊆ pass.dirty := fun _ h =>
  (IndexedProgram.propagate_spec ..).1 ((IndexedProgram.propagate_spec ..).1 h)

lemma dirty_of_changed {id : ℕ} (h : pass.Changed id) : id ∈ pass.dirty := by
  refine seeded_subset_dirty ?_
  rcases h with h | h <;> obtain ⟨function, hmem, rfl⟩ := mem_map.mp h <;>
    obtain ⟨hmem, hchanged⟩ := mem_filter.mp hmem
  · exact mem_map_of_mem (mem_filter.mpr ⟨hmem, by simp [hchanged]⟩)
  · have hbody := (Bool.and_eq_true_iff.mp hchanged).1
    exact mem_map_of_mem (mem_filter.mpr ⟨hmem, by simp [hbody]⟩)

/-- A function that calls a change through functions that the walk does not stop at. -/
def Joined (pass : IndexPass) (caller : ℕ) : Prop :=
  ∃ changed, pass.Changed changed ∧ Relation.TransGen pass.OpenCall caller changed

lemma Joined.dirty (h : pass.Joined caller) : caller ∈ pass.dirty := by
  obtain ⟨changed, hchanged, hcalls⟩ := h
  induction hcalls using Relation.TransGen.head_induction_on with
  | single hcall => exact dirty_of_openCall hcall (dirty_of_changed hchanged)
  | head hcall _ ih => exact dirty_of_openCall hcall ih

lemma calls_of_dependents {caller callee : ℕ} (h : caller ∈ pass.dependents callee) :
    pass.Calls caller callee := by
  obtain ⟨function, hmem, rfl⟩ := mem_map.mp h
  obtain ⟨hmem, hcalls⟩ := mem_filter.mp hmem
  exact ⟨function, hmem, rfl, by simpa using (Bool.and_eq_true_iff.mp hcalls).1⟩

/-- A walk from changes, over what was dirty before or is joined to a change, marks what
is joined to a change. -/
lemma propagate_joined {roots dirty : List ℕ} (hroots : ∀ id ∈ roots, pass.Changed id)
    (hdirty : pass.seeded ⊆ dirty) :
    ∀ id ∈ pass.propagateDirtyFromSignatureChanges roots dirty, id ∈ dirty ∨ pass.Joined id := by
  refine IndexedProgram.propagate_sound _ roots dirty pass.Joined ?_ ?_
  · intro id hid caller hcaller
    exact ⟨id, hroots id hid, .single ⟨calls_of_dependents hcaller, .inl (hroots id hid)⟩⟩
  · rintro id hclean ⟨changed, hchanged, hcalls⟩ caller hcaller
    have hopen : pass.OpenCall caller id :=
      ⟨calls_of_dependents hcaller, .inr fun h => hclean (hdirty h)⟩
    exact ⟨changed, hchanged, .head hopen hcalls⟩

lemma mem_dirty_iff {id : ℕ} : id ∈ pass.dirty ↔ id ∈ pass.seeded ∨ pass.Joined id := by
  refine ⟨fun h => ?_, fun h => h.elim (fun h => seeded_subset_dirty h) Joined.dirty⟩
  have hfirst := @propagate_joined pass _ _ (fun id (h : id ∈ pass.signatureChangedIds) =>
    .inl h) fun _ h => h
  have hkept := (IndexedProgram.propagate_spec pass.toIndexedProgram pass.signatureChangedIds
    pass.seeded).1
  rcases propagate_joined (fun id h => .inr h) hkept id h with h | h
  · exact hfirst id h
  · exact .inr h

/-- A pass marks everything that calls a change exactly if each such function is dirty for
a reason of its own, or calls some change through functions that the walk does not stop
at. -/
theorem index_pass_marks_callers (pass : IndexPass) :
    (∀ caller changed, pass.Changed changed → Relation.TransGen pass.Calls caller changed →
      caller ∈ pass.dirty) ↔
    ∀ caller changed, pass.Changed changed → Relation.TransGen pass.Calls caller changed →
      caller ∈ pass.seeded ∨ ∃ changed', pass.Changed changed' ∧
        Relation.TransGen pass.OpenCall caller changed' := by
  simp only [mem_dirty_iff]
  rfl

def layoutProgram (measureSignature layoutBody : UInt64) : IndexedProgram where
  functions := [⟨0, "measure", "ui.stasis", measureSignature, 1, false, []⟩,
    ⟨1, "layout", "ui.stasis", 2, layoutBody, false, [0]⟩,
    ⟨2, "draw", "ui.stasis", 3, 3, false, [1]⟩]
  ids := by simp
  symbols := by simp

/-- With a new body of `layout` besides, `draw` is not dirty although it calls
`measure` through `layout`. -/
theorem index_pass_misses_caller :
    let pass : IndexPass := ⟨layoutProgram 7 5, layoutProgram 1 2, []⟩
    pass.Changed 0 ∧ Relation.TransGen pass.Calls 2 0 ∧ 2 ∉ pass.dirty := by
  refine ⟨.inl (by decide +kernel), .head (b := 1) ?_ (.single ?_), by decide +kernel⟩
  · exact ⟨_, List.mem_of_getElem? (i := 2) rfl, rfl, by decide⟩
  · exact ⟨_, List.mem_of_getElem? (i := 1) rfl, rfl, by decide⟩

end IndexPass

end Stasis.Compiler
