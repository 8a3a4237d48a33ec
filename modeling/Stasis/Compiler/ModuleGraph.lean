import Mathlib.Data.List.Nodup
import Mathlib.Logic.Relation
import Stasis.Lib.Closure

namespace Stasis.Compiler

open List Relation

structure ModuleRecord where
  path : String
  /-- The targets of its imports. -/
  imports : List String
deriving DecidableEq, Repr

structure ModuleGraph where
  modules : List ModuleRecord
  distinct : (modules.map ModuleRecord.path).Nodup

section Walk

variable (adjacent : String → List String)

/-- The worklist of `closure_from`, last item first; `none` when the fuel runs out. -/
def walk : ℕ → List String → List String → Option (List String)
  | _, [], closure => some closure
  | 0, _ :: _, _ => none
  | fuel + 1, item :: pending, closure =>
    if item ∈ closure then walk fuel pending closure
    else walk fuel ((adjacent item).reverse ++ pending) (item :: closure)

/-- The steps of a walk at most: what is pending, and what new items can push. -/
def walkWork (keys pending closure : List String) : ℕ :=
  pending.length + ((keys.filter fun k => k ∉ closure).map fun k => (adjacent k).length).sum

def closureFrom (keys : List String) (path : String) : Option (List String) :=
  walk adjacent (walkWork adjacent (path :: keys) [path] []) [path] []

variable {adjacent} {keys : List String}

/-- A walk that has left no neighbour behind finds a closed set around what it has seen,
and nothing that is not reached from there. -/
lemma walk_spec (hadj : ∀ k, ∀ k' ∈ adjacent k, k' ∈ keys) (fuel : ℕ)
    (pending closure : List String)
    (hkeys : ∀ k ∈ pending, k ∈ keys)
    (hseen : ∀ k ∈ closure, ∀ k' ∈ adjacent k, k' ∈ closure ∨ k' ∈ pending)
    (hfuel : walkWork adjacent keys pending closure ≤ fuel) :
    ∃ result, walk adjacent fuel pending closure = some result ∧
      (∀ k, k ∈ closure ∨ k ∈ pending → k ∈ result) ∧
      (∀ k ∈ result, ∀ k' ∈ adjacent k, k' ∈ result) ∧
      ∀ k ∈ result, k ∈ closure ∨
        ∃ start ∈ pending, ReflTransGen (fun x y => y ∈ adjacent x) start k := by
  induction fuel generalizing pending closure with
  | zero =>
    cases pending with
    | nil => exact ⟨closure, rfl, by simp, by simpa using hseen, fun _ => .inl⟩
    | cons item pending => simp [walkWork] at hfuel
  | succ fuel ih =>
    rcases pending with _ | ⟨item, pending⟩
    · exact ⟨closure, rfl, by simp, by simpa using hseen, fun _ => .inl⟩
    rw [walk]
    split_ifs with hitem
    · obtain ⟨result, hrun, hall, hclosed, hreach⟩ := ih pending closure
        (fun k hk => hkeys k (.tail _ hk)) (by grind) (by simp [walkWork] at hfuel ⊢; omega)
      exact ⟨result, hrun, by grind, hclosed, by grind⟩
    · have hpay := sum_filter_unvisited (hkeys item (.head _)) hitem (fun _ => mem_cons)
        fun k => (adjacent k).length
      obtain ⟨result, hrun, hall, hclosed, hreach⟩ :=
        ih ((adjacent item).reverse ++ pending) (item :: closure) (by grind) (by grind) (by
          simp only [walkWork, length_append, length_reverse, length_cons] at hfuel ⊢
          omega)
      refine ⟨result, hrun, by grind, hclosed, fun k hk => ?_⟩
      rcases hreach k hk with hk | ⟨start, hstart, hk⟩
      · rcases mem_cons.mp hk with rfl | hk
        · exact .inr ⟨k, .head _, .refl⟩
        · exact .inl hk
      · rcases mem_append.mp hstart with hstart | hstart
        · exact .inr ⟨item, .head _, .head (mem_reverse.mp hstart) hk⟩
        · exact .inr ⟨start, .tail _ hstart, hk⟩

lemma closureFrom_spec (hadj : ∀ k, ∀ k' ∈ adjacent k, k' ∈ keys) (path : String) :
    ∃ result, closureFrom adjacent keys path = some result ∧
      ∀ k, k ∈ result ↔ ReflTransGen (fun x y => y ∈ adjacent x) path k := by
  obtain ⟨result, hrun, hall, hclosed, hreach⟩ := walk_spec
    (fun k k' hk' => mem_cons_of_mem path (hadj k k' hk')) _ [path] [] (by simp) (by simp) le_rfl
  refine ⟨result, hrun, fun k => ⟨fun hk => by simpa using hreach k hk, fun hk => ?_⟩⟩
  induction hk with
  | refl => exact hall path (.inr (.head _))
  | tail _ hk ih => exact hclosed _ ih _ hk

end Walk

def insertEdge (edges : String → List String) (edge : String × String) : String → List String :=
  Function.update edges edge.2 ((edges edge.2).insert edge.1)

namespace ModuleGraph

variable (g : ModuleGraph)

def edges : List (String × String) :=
  g.modules.flatMap fun module => module.imports.map fun target => (module.path, target)

def directDependencies (path : String) : List String :=
  (g.modules.find? fun module => module.path == path).elim [] ModuleRecord.imports

/-- The map that loading fills, one import after the other. -/
def reverseEdges : String → List String := g.edges.foldl insertEdge fun _ => []

def dependencyClosure : String → Option (List String) :=
  closureFrom g.directDependencies (g.edges.map Prod.snd)

def invalidationClosure : String → Option (List String) :=
  closureFrom g.reverseEdges (g.edges.map Prod.fst)

variable {g} {a b : String}

lemma mem_foldl_insertEdge (edges : List (String × String)) (start : String → List String) :
    a ∈ edges.foldl insertEdge start b ↔ a ∈ start b ∨ (a, b) ∈ edges := by
  induction edges generalizing start with
  | nil => simp
  | cons edge edges ih =>
    rw [foldl_cons, ih, insertEdge, Function.update_apply]
    split_ifs with h <;> grind

lemma mem_reverseEdges : a ∈ g.reverseEdges b ↔ (a, b) ∈ g.edges := by
  rw [reverseEdges, mem_foldl_insertEdge]
  simp

lemma mem_directDependencies : b ∈ g.directDependencies a ↔ (a, b) ∈ g.edges := by
  simp only [directDependencies, edges, mem_flatMap, mem_map]
  constructor
  · cases hfind : g.modules.find? fun module => module.path == a with
    | none => simp
    | some module =>
      intro hb
      have hpath : module.path = a := by simpa using find?_some hfind
      exact ⟨module, mem_of_find?_eq_some hfind, b, hb, by rw [hpath]⟩
  · rintro ⟨module, hmem, _, hb, ⟨⟩⟩
    cases hfind : g.modules.find? fun other => other.path == module.path with
    | none => simpa using find?_eq_none.mp hfind module hmem
    | some other =>
      have hother : other.path = module.path := by simpa using find?_some hfind
      rwa [inj_on_of_nodup_map g.distinct (mem_of_find?_eq_some hfind) hmem hother]

/-- Both walks come to an end; they are the closures of the imports and of the imports
reversed, and so converse to each other. -/
theorem module_closures_exact (g : ModuleGraph) (a b : String) :
    ∃ dependencies invalidated, g.dependencyClosure a = some dependencies ∧
      g.invalidationClosure b = some invalidated ∧
      (∀ k, k ∈ dependencies ↔ ReflTransGen (fun x y => y ∈ g.directDependencies x) a k) ∧
      (∀ k, k ∈ invalidated ↔ ReflTransGen (fun x y => x ∈ g.directDependencies y) b k) ∧
      (b ∈ dependencies ↔ a ∈ invalidated) := by
  obtain ⟨dependencies, hdep, hreach⟩ := closureFrom_spec (fun x y hy =>
    mem_map_of_mem (f := Prod.snd) (mem_directDependencies.mp hy)) a
  obtain ⟨invalidated, hinv, hback⟩ := closureFrom_spec (fun x y hy =>
    mem_map_of_mem (f := Prod.fst) (mem_reverseEdges.mp hy)) b
  simp only [mem_reverseEdges, ← mem_directDependencies] at hback
  refine ⟨dependencies, invalidated, hdep, hinv, hreach, hback, ?_⟩
  rw [hreach, hback]
  exact reflTransGen_swap.symm

def mainAndDraw : ModuleGraph := ⟨[⟨"main", ["draw"]⟩, ⟨"draw", ["main", "math"]⟩], by decide⟩

/-- An edit of `math` invalidates both modules, through a cycle of imports. -/
theorem module_closures_of_main : ∃ dependencies invalidated,
    mainAndDraw.dependencyClosure "main" = some dependencies ∧
      mainAndDraw.invalidationClosure "math" = some invalidated ∧
      "math" ∈ dependencies ∧ "main" ∈ invalidated := by
  obtain ⟨dependencies, invalidated, hdep, hinv, -, -, hboth⟩ :=
    module_closures_exact mainAndDraw "main" "math"
  have hmath : ((mainAndDraw.dependencyClosure "main").any fun closure =>
      "math" ∈ closure) = true := by
    decide +kernel
  rw [hdep, Option.any_some, decide_eq_true_eq] at hmath
  exact ⟨dependencies, invalidated, hdep, hinv, hmath, hboth.mp hmath⟩

end ModuleGraph

end Stasis.Compiler
