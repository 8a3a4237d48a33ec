import Mathlib.Order.Lattice
import Stasis.DataFlow.Aggregate

namespace Stasis.DataFlow

inductive ParameterStorageKind
  | aos | soa | dynamic
deriving DecidableEq, Repr

inductive Evidence
  | unknown | aos | soa | dynamic
deriving DecidableEq, Repr

namespace Evidence

def merge : Evidence → Evidence → Evidence
  | .dynamic, _ => .dynamic
  | _, .dynamic => .dynamic
  | .unknown, value => value
  | value, .unknown => value
  | .aos, .aos => .aos
  | .soa, .soa => .soa
  | _, _ => .dynamic

instance : Max Evidence := ⟨merge⟩

instance : SemilatticeSup Evidence :=
  SemilatticeSup.mk' (fun a b => by cases a <;> cases b <;> rfl)
    (fun a b c => by cases a <;> cases b <;> cases c <;> rfl) (fun a => by cases a <;> rfl)

def room : Evidence → ℕ
  | .unknown => 2
  | .aos | .soa => 1
  | .dynamic => 0

lemma room_lt {a b : Evidence} (h : a ≤ b) (hne : a ≠ b) : b.room < a.room := by
  have hsup : merge a b = b := sup_eq_right.mpr h
  revert hne hsup
  cases a <;> cases b <;> decide

end Evidence

def containsIndex (path : String) : Bool :=
  path.toList.tails.any fun rest => "[*]".toList.isPrefixOf rest

def EffectPath.indexed : EffectPath → Bool
  | .global path => containsIndex path
  | .parameter path => containsIndex path.suffix

/-- An argument that a call passes for a view parameter of its target. -/
structure Passing where
  caller : ℕ
  parameter : ℕ × ℕ
  argument : Option EffectPath

structure StorageContext where
  paramCounts : List ℕ
  viewParametersByFunction : ℕ → List ℕ
  pathTypes : List String
  directById : List DirectEffects

namespace StorageContext

variable (c : StorageContext)

def parameters : List (ℕ × ℕ) :=
  (List.range c.paramCounts.length).flatMap fun function =>
    (List.range (c.paramCounts.getD function 0)).map fun index => (function, index)

/-- The arguments in the order the calls are looked at; what is no parameter of its
function is passed over. -/
def passings : List Passing :=
  (functionIds c.directById).flatMap fun caller =>
    (callSitesOf c.directById caller).flatMap fun callSite =>
      ((c.viewParametersByFunction callSite.targetId).filter fun index =>
        c.parameters.contains (callSite.targetId, index)).map fun index =>
          ⟨caller, (callSite.targetId, index), callSite.arguments[index]?.join⟩

def nextEvidence (previous : ℕ → Evidence) : Option EffectPath → Evidence
  | none => .dynamic
  | some path =>
    if path.indexed then .soa
    else match path with
      | .parameter path => previous path.index
      | .global path => if c.pathTypes.contains path then .aos else .dynamic

def mergePassing (previous evidence : ℕ × ℕ → Evidence) (p : Passing) : ℕ × ℕ → Evidence :=
  Function.update evidence p.parameter
    ((evidence p.parameter).merge
      (c.nextEvidence (fun index => previous (p.caller, index)) p.argument))

def round (previous : ℕ × ℕ → Evidence) : ℕ × ℕ → Evidence :=
  c.passings.foldl (c.mergePassing previous) previous

def step (evidence : ℕ × ℕ → Evidence) : Option (ℕ × ℕ → Evidence) :=
  if c.parameters.all fun q => c.round evidence q == evidence q then none
  else some (c.round evidence)

def evidence : ℕ × ℕ → Evidence :=
  runUntil c.step (2 * c.parameters.length) fun _ => .unknown

def storageKind (q : ℕ × ℕ) : ParameterStorageKind :=
  if !c.passings.any fun p => p.parameter == q then .dynamic
  else match c.evidence q with
    | .aos => .aos
    | .soa => .soa
    | .unknown | .dynamic => .dynamic

def inferParameterStorageKinds : List (List ParameterStorageKind) :=
  (List.range c.paramCounts.length).map fun function =>
    (List.range (c.paramCounts.getD function 0)).map fun index => c.storageKind (function, index)

/-- An argument that is a parameter of the caller, or a part of one. -/
def PassesParameter (argument : Option EffectPath) (index : ℕ) : Prop :=
  ∃ suffix, argument = some (.parameter ⟨index, suffix⟩) ∧ containsIndex suffix = false

/-- A chain of calls ends at a parameter and starts with an argument that is no
parameter of the caller. -/
inductive ReachedFrom (argument : Option EffectPath) : ℕ × ℕ → Prop
  | start {p} : p ∈ c.passings → p.argument = argument →
    (∀ index, ¬PassesParameter argument index) → ReachedFrom argument p.parameter
  | pass {p index} : p ∈ c.passings → PassesParameter p.argument index →
    ReachedFrom argument (p.caller, index) → ReachedFrom argument p.parameter

def PlainGlobal (argument : Option EffectPath) : Prop :=
  ∃ path, argument = some (.global path) ∧ containsIndex path = false ∧ path ∈ c.pathTypes

def ElementPath (argument : Option EffectPath) : Prop :=
  ∃ path, argument = some path ∧ path.indexed = true

variable {c} {argument : Option EffectPath} {q : ℕ × ℕ}

lemma nextEvidence_pass (h : PassesParameter argument index) :
    c.nextEvidence previous argument = previous index := by
  obtain ⟨suffix, rfl, h⟩ := h
  simp [nextEvidence, EffectPath.indexed, h]

lemma nextEvidence_start (previous : ℕ → Evidence) (h : ∀ index, ¬PassesParameter argument index) :
    c.nextEvidence previous argument ≠ .unknown ∧
      (c.nextEvidence previous argument = .aos → c.PlainGlobal argument) ∧
      (c.nextEvidence previous argument = .soa → ElementPath argument) := by
  unfold nextEvidence PlainGlobal ElementPath
  rcases argument with _ | path
  · simp
  · by_cases hindexed : path.indexed = true
    · cases path <;> simp_all [EffectPath.indexed]
    · cases path with
      | global path => by_cases hpath : path ∈ c.pathTypes <;> simp_all [EffectPath.indexed]
      | parameter path => exact absurd ⟨_, rfl, eq_false_of_ne_true hindexed⟩ (h path.index)

lemma foldl_mergePassing (c : StorageContext) (ps : List Passing)
    (previous evidence : ℕ × ℕ → Evidence) :
    (∀ q, evidence q ≤ ps.foldl (c.mergePassing previous) evidence q) ∧
      ∀ p ∈ ps, c.nextEvidence (fun index => previous (p.caller, index)) p.argument ≤
        ps.foldl (c.mergePassing previous) evidence p.parameter := by
  induction ps generalizing evidence with
  | nil => exact ⟨fun _ => le_rfl, by simp⟩
  | cons p ps ih =>
    obtain ⟨hle, hadd⟩ := ih (c.mergePassing previous evidence p)
    have hmerge : ∀ q, evidence q ≤ c.mergePassing previous evidence p q :=
      le_update_iff.mpr ⟨le_sup_left, fun _ _ => le_rfl⟩
    refine ⟨fun q => (hmerge q).trans (hle q), fun p' hp' => ?_⟩
    rcases List.mem_cons.mp hp' with rfl | hp'
    · refine le_trans ?_ (hle p'.parameter)
      rw [mergePassing, Function.update_self]
      exact le_sup_right
    · exact hadd p' hp'

lemma step_eq_some {evidence next : ℕ × ℕ → Evidence} (h : c.step evidence = some next) :
    next = c.round evidence ∧ ∃ q ∈ c.parameters, evidence q ≠ c.round evidence q := by
  unfold step at h
  split at h
  case isTrue => cases h
  case isFalse hne =>
    obtain ⟨f, i, hq, hne⟩ := by simpa using hne
    exact ⟨(Option.some.inj h).symm, (f, i), hq, fun h => hne h.symm⟩

lemma step_room (evidence next : ℕ × ℕ → Evidence) (h : c.step evidence = some next) :
    (c.parameters.map fun q => (next q).room).sum <
      (c.parameters.map fun q => (evidence q).room).sum := by
  obtain ⟨rfl, q, hq, hne⟩ := step_eq_some h
  have hle := (foldl_mergePassing c c.passings evidence evidence).1
  refine List.sum_lt_sum _ _ (fun q _ => ?_) ⟨q, hq, Evidence.room_lt (hle q) hne⟩
  by_cases heq : evidence q = c.round evidence q
  · rw [← heq]
  · exact (Evidence.room_lt (hle q) heq).le

lemma step_evidence (c : StorageContext) : c.step c.evidence = none := by
  refine runUntil_done (fun _ _ _ _ => trivial) (fun s s' (_ : True) => step_room s s') trivial ?_
  simp [Evidence.room, Nat.mul_comm]

lemma nextEvidence_le (hp : p ∈ c.passings) :
    c.nextEvidence (fun index => c.evidence (p.caller, index)) p.argument ≤
      c.evidence p.parameter := by
  have hmem : p.parameter ∈ c.parameters := by
    simp only [passings, List.mem_flatMap, List.mem_map, List.mem_filter] at hp
    obtain ⟨_, _, _, _, _, ⟨_, hmem⟩, rfl⟩ := hp
    exact List.contains_iff_mem.mp hmem
  have hsettled : c.round c.evidence p.parameter = c.evidence p.parameter := by
    by_contra hne
    have hnone := step_evidence c
    rw [step, if_neg] at hnone
    · cases hnone
    · exact fun hall => hne (beq_iff_eq.mp (List.all_eq_true.mp hall _ hmem))
  exact ((foldl_mergePassing c c.passings _ _).2 p hp).trans_eq hsettled

lemma ReachedFrom.exists_le (h : c.ReachedFrom argument q) :
    ∃ e ≤ c.evidence q, e ≠ .unknown ∧ (e = .aos → c.PlainGlobal argument) ∧
      (e = .soa → ElementPath argument) := by
  induction h with
  | start hp harg hstart =>
    subst harg
    exact ⟨_, nextEvidence_le hp, nextEvidence_start _ hstart⟩
  | pass hp hpass _ ih =>
    obtain ⟨e, hle, he⟩ := ih
    exact ⟨e, hle.trans ((nextEvidence_pass hpass).ge.trans (nextEvidence_le hp)), he⟩

lemma storageKind_reached (h : c.ReachedFrom argument q) :
    (c.storageKind q = .aos → c.PlainGlobal argument) ∧
      (c.storageKind q = .soa → ElementPath argument) := by
  obtain ⟨e, hle, hknown, haos, hsoa⟩ := h.exists_le
  have hsup : e.merge (c.evidence q) = c.evidence q := sup_eq_right.mpr hle
  refine ⟨fun hkind => haos ?_, fun hkind => hsoa ?_⟩ <;>
  · unfold storageKind at hkind
    split at hkind
    · cases hkind
    · revert hkind hsup hknown
      cases c.evidence q <;> cases e <;> simp [Evidence.merge]

/-- The inference comes to an end.  A parameter is stored as an array of structures, or
as a structure of arrays, only when every chain of internal calls that reaches it starts
with a plain global path, or with an element path; otherwise its storage is dynamic. -/
theorem parameter_storage_kinds_sound (c : StorageContext) :
    c.step c.evidence = none ∧ ∀ function index kind,
      c.inferParameterStorageKinds[function]?.bind (·[index]?) = some kind →
      (kind = .aos → ∀ argument, c.ReachedFrom argument (function, index) →
        c.PlainGlobal argument) ∧
      (kind = .soa → ∀ argument, c.ReachedFrom argument (function, index) →
        ElementPath argument) ∧
      ((∀ p ∈ c.passings, p.parameter ≠ (function, index)) → kind = .dynamic) := by
  refine ⟨step_evidence c, fun function index kind hkind => ?_⟩
  obtain rfl : c.storageKind (function, index) = kind := by
    obtain ⟨row, hrow, hkind⟩ := Option.bind_eq_some_iff.mp hkind
    obtain ⟨f, hf, rfl⟩ := Option.map_eq_some_iff.mp ((List.getElem?_map ..).symm.trans hrow)
    obtain ⟨i, hi, rfl⟩ := Option.map_eq_some_iff.mp ((List.getElem?_map ..).symm.trans hkind)
    obtain ⟨_, rfl⟩ := List.getElem?_eq_some_iff.mp hf
    obtain ⟨_, rfl⟩ := List.getElem?_eq_some_iff.mp hi
    simp only [List.getElem_range]
  refine ⟨fun haos _ hreach => (storageKind_reached hreach).1 haos,
    fun hsoa _ hreach => (storageKind_reached hreach).2 hsoa, fun hnone => ?_⟩
  have hany : (c.passings.any fun p => p.parameter == (function, index)) = false := by
    simpa using hnone
  simp [storageKind, hany]

end StorageContext

end Stasis.DataFlow
