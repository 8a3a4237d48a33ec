import Mathlib.Logic.Relation
import Mathlib.Data.List.Dedup
import Mathlib.Data.List.Induction
import Stasis.Lib.Closure
import Stasis.Lib.Loop

namespace Stasis.Graph

open Relation.ReflTransGen
open List
variable {κ : Type}

def Leads (succ : κ → List κ) : κ → κ → Prop := Relation.ReflTransGen fun a b => b ∈ succ a

/-- Every edge that leaves a node finished up to `u` stays among the nodes finished
up to `u`, or goes to a node that leads to `u`. -/
def FinishOrdered (succ : κ → List κ) (order : List κ) : Prop :=
  ∀ before u after, order = before ++ u :: after → ∀ x ∈ before ++ [u], ∀ y ∈ succ x,
    y ∈ before ++ [u] ∨ Leads succ y u

variable {succ : κ → List κ}

lemma FinishOrdered.snoc (h : FinishOrdered succ order)
    (hlast : ∀ x ∈ order ++ [k], ∀ y ∈ succ x, y ∈ order ++ [k] ∨ Leads succ y k) :
    FinishOrdered succ (order ++ [k]) := by
  intro before u after heq
  rcases eq_nil_or_concat after with rfl | ⟨after, last, rfl⟩
  · obtain ⟨hbef, hu⟩ := append_inj' heq rfl
    obtain rfl : k = u := singleton_inj.mp hu
    subst hbef
    exact hlast
  · rw [concat_eq_append, ← cons_append, ← append_assoc] at heq
    exact h before u after (append_inj' heq rfl).1

/-- The search: the nodes it has entered, the nodes it has finished in their order,
and its stack, where a node stands once to be entered and once to be finished. -/
structure Search (κ : Type) where
  visited : List κ
  order : List κ
  stack : List (κ × Bool)

variable [DecidableEq κ]

def Search.step (succ : κ → List κ) (s : Search κ) : Option (Search κ) :=
  match s.stack with
  | [] => none
  | (k, true) :: rest => some { s with order := s.order ++ [k], stack := rest }
  | (k, false) :: rest =>
    if k ∈ s.visited then some { s with stack := rest }
    else some { s with
      visited := k :: s.visited
      stack := (((succ k).filter fun c => c ∉ k :: s.visited).map fun c => (c, false)) ++
        (k, true) :: rest }

/-- The entries that the search can push for the nodes it has not entered. -/
def Search.unvisitedWork (succ : κ → List κ) (nodes visited : List κ) : ℕ :=
  ((nodes.filter fun k => k ∉ visited).map fun k => (succ k).length + 1).sum

/-- Enter a node and run until everything it opens is finished. -/
def Search.enter (succ : κ → List κ) (nodes : List κ) (s : Search κ) (start : κ) : Search κ :=
  runUntil (Search.step succ) (1 + Search.unvisitedWork succ nodes s.visited)
    { s with stack := [(start, false)] }

def finishOrder (succ : κ → List κ) (nodes : List κ) : List κ :=
  (nodes.foldl (Search.enter succ nodes) ⟨[], [], []⟩).order

omit [DecidableEq κ] in
/-- The edges of an open node go to nodes entered before or waiting above it. -/
def Guarded (succ : κ → List κ) (visited : List κ) : List κ → List (κ × Bool) → Prop
  | _, [] => True
  | above, (k, false) :: rest => Guarded succ visited (k :: above) rest
  | above, (k, true) :: rest =>
    (∀ y ∈ succ k, y ∈ visited ∨ y ∈ above) ∧ Guarded succ visited above rest

variable {visited above : List κ} {stack : List (κ × Bool)}

omit [DecidableEq κ] in
lemma Guarded.mono (h : Guarded succ visited above stack)
    (hmono : ∀ y, y ∈ visited ∨ y ∈ above → y ∈ visited' ∨ y ∈ above') :
    Guarded succ visited' above' stack := by
  induction stack generalizing above above' with
  | nil => trivial
  | cons entry rest ih =>
    obtain ⟨k, opened⟩ := entry
    cases opened with
    | false =>
      refine ih h fun y hy => ?_
      have := hmono y
      simp only [mem_cons] at hy ⊢
      tauto
    | true => exact ⟨fun y hy => hmono y (h.1 y hy), ih h.2 hmono⟩

omit [DecidableEq κ] in
lemma guarded_waiting {new : List κ} :
    Guarded succ visited above ((new.map fun c => (c, false)) ++ stack) ↔
      Guarded succ visited (new.reverse ++ above) stack := by
  induction new generalizing above with
  | nil => rfl
  | cons c new ih => simp [Guarded, ih]

def openNodes (stack : List (κ × Bool)) : List κ := (stack.filter Prod.snd).map Prod.fst

omit [DecidableEq κ] in
lemma mem_openNodes : k ∈ openNodes stack ↔ (k, true) ∈ stack := by
  simp [openNodes]

structure Searched (succ : κ → List κ) (nodes : List κ) (s : Search κ) : Prop where
  within : ∀ e ∈ s.stack, e.1 ∈ nodes
  known : ∀ k ∈ s.visited, k ∈ nodes
  visited_iff : ∀ k, k ∈ s.visited ↔ k ∈ s.order ++ openNodes s.stack
  nodup : (s.order ++ openNodes s.stack).Nodup
  /-- An open node leads to everything above it. -/
  above : s.stack.Pairwise fun upper lower => lower.2 = true → Leads succ lower.1 upper.1
  finished : ∀ x ∈ s.order, ∀ y ∈ succ x, y ∈ s.visited
  guarded : Guarded succ s.visited [] s.stack
  ordered : FinishOrdered succ s.order

namespace Searched

variable {succ : κ → List κ} {nodes : List κ} {s : Search κ} {k : κ} {rest : List (κ × Bool)}

variable (h : Searched succ nodes s)
include h

omit [DecidableEq κ] in
lemma finish (hstack : s.stack = (k, true) :: rest) :
    Searched succ nodes { s with order := s.order ++ [k], stack := rest } := by
  obtain ⟨within, known, visited_iff, nodup, above, finished, guarded, ordered⟩ := h
  rw [hstack] at within visited_iff nodup above guarded
  have hopen : s.order ++ openNodes ((k, true) :: rest) = s.order ++ [k] ++ openNodes rest := by
    simp [openNodes]
  rw [hopen] at visited_iff nodup
  have hedges : ∀ x ∈ s.order ++ [k], ∀ y ∈ succ x, y ∈ s.visited := by
    intro x hx y hy
    rcases mem_append.mp hx with hx | hx
    · exact finished x hx y hy
    · obtain rfl := mem_singleton.mp hx
      exact (guarded.1 y hy).resolve_right not_mem_nil
  refine ⟨fun e he => within e (.tail _ he), known, visited_iff, nodup,
    above.of_cons, hedges, guarded.2, ordered.snoc fun x hx y hy => ?_⟩
  -- an edge out of what is finished goes to a finished node or to a node still open
  rcases mem_append.mp ((visited_iff y).mp (hedges x hx y hy)) with hy' | hy'
  · exact .inl hy'
  · exact .inr ((pairwise_cons.mp above).1 _ (mem_openNodes.mp hy') rfl)

omit [DecidableEq κ] in
lemma skip (hstack : s.stack = (k, false) :: rest)
    (hk : k ∈ s.visited) : Searched succ nodes { s with stack := rest } := by
  obtain ⟨within, known, visited_iff, nodup, above, finished, guarded, ordered⟩ := h
  rw [hstack] at within visited_iff nodup above guarded
  refine ⟨fun e he => within e (.tail _ he), known, visited_iff, nodup, above.of_cons,
    finished, ?_, ordered⟩
  have hwai : Guarded succ s.visited [k] rest := guarded
  refine hwai.mono fun y hy => ?_
  rcases hy with hy | hy
  · exact .inl hy
  · exact .inl (mem_singleton.mp hy ▸ hk)

variable (hsucc : ∀ x ∈ nodes, ∀ y ∈ succ x, y ∈ nodes)
include hsucc

lemma visit (hstack : s.stack = (k, false) :: rest) (hk : k ∉ s.visited) :
    Searched succ nodes { s with
      visited := k :: s.visited
      stack := (((succ k).filter fun c => c ∉ k :: s.visited).map fun c => (c, false)) ++
        (k, true) :: rest } := by
  obtain ⟨within, known, visited_iff, nodup, above, finished, guarded, ordered⟩ := h
  rw [hstack] at within visited_iff nodup above guarded
  set new := (succ k).filter fun c => c ∉ k :: s.visited with hnew
  have hmem : ∀ c ∈ new, c ∈ succ k := fun c hc => mem_of_mem_filter hc
  have hopen : openNodes ((new.map fun c => (c, false)) ++ (k, true) :: rest) =
      k :: openNodes ((k, false) :: rest) := by
    have hwai : (new.map fun c => (c, false)).filter Prod.snd = [] := by
      simp [filter_eq_nil_iff]
    simp [openNodes, filter_append, hwai]
  have habove := pairwise_cons.mp above
  have hnode : k ∈ nodes := within (k, false) (.head _)
  refine ⟨fun e he => ?_, forall_mem_cons.mpr ⟨hnode, known⟩, fun x => ?_, ?_, ?_,
    fun x hx y hy => .tail _ (finished x hx y hy), ?_, ordered⟩
  · rcases mem_append.mp he with he | he
    · obtain ⟨c, hc, rfl⟩ := mem_map.mp he
      exact hsucc k hnode c (hmem c hc)
    · rcases mem_cons.mp he with rfl | he
      · exact hnode
      · exact within e (.tail _ he)
  · rw [hopen, mem_cons, visited_iff x]
    simp only [mem_append, mem_cons]
    tauto
  · rw [hopen]
    exact (perm_middle.nodup_iff).mpr
      (nodup_cons.mpr ⟨fun hmem => hk ((visited_iff k).mpr hmem), nodup⟩)
  · -- what is pushed is reached from the node, and so from every open node below it
    refine pairwise_append.mpr ⟨?_, pairwise_cons.mpr ⟨fun e he => habove.1 e he,
      habove.2⟩, fun upper hupper lower hlower hope => ?_⟩
    · exact pairwise_map.mpr (pairwise_of_forall fun _ _ hope => by cases hope)
    · obtain ⟨c, hc, rfl⟩ := mem_map.mp hupper
      rcases mem_cons.mp hlower with rfl | hlower
      · exact .single (hmem c hc)
      · exact .tail (habove.1 lower hlower hope) (hmem c hc)
  · refine guarded_waiting.mpr ⟨fun y hy => ?_, Guarded.mono guarded fun y hy => ?_⟩
    · by_cases hy' : y ∈ k :: s.visited
      · exact .inl hy'
      · refine .inr (mem_append_left _ (mem_reverse.mpr ?_))
        exact mem_filter.mpr ⟨hy, decide_eq_true hy'⟩
    · rcases hy with hy | hy
      · exact .inl (.tail _ hy)
      · exact .inl (mem_singleton.mp hy ▸ (.head _))

omit h

lemma step (s s' : Search κ)
    (h : Searched succ nodes s) (hs : s.step succ = some s') : Searched succ nodes s' := by
  unfold Search.step at hs
  match hstack : s.stack with
  | [] => simp [hstack] at hs
  | (k, true) :: rest =>
    rw [hstack] at hs
    cases hs
    exact h.finish hstack
  | (k, false) :: rest =>
    simp only [hstack] at hs
    split_ifs at hs with hk
    · cases hs
      exact h.skip hstack hk
    · cases hs
      exact h.visit hsucc hstack hk

end Searched

variable {nodes : List κ}

lemma Search.step_measure (s s' : Search κ)
    (h : Searched succ nodes s) (hs : s.step succ = some s') :
    s'.stack.length + Search.unvisitedWork succ nodes s'.visited <
      s.stack.length + Search.unvisitedWork succ nodes s.visited := by
  unfold Search.step at hs
  match hstack : s.stack with
  | [] => simp [hstack] at hs
  | (k, true) :: rest =>
    rw [hstack] at hs
    cases hs
    simp
  | (k, false) :: rest =>
    simp only [hstack] at hs
    by_cases hk : k ∈ s.visited
    · rw [if_pos hk] at hs
      cases hs
      simp
    · rw [if_neg hk] at hs
      cases hs
      have hnode : k ∈ nodes := h.within (k, false) (by rw [hstack]; exact (.head _))
      have hpay := sum_filter_unvisited hnode hk (fun k' => mem_cons)
        (fun k => (succ k).length + 1)
      have hnew := length_filter_le (fun c => decide (c ∉ k :: s.visited)) (succ k)
      simp only [Search.unvisitedWork, length_append, length_map, length_cons]
      omega

lemma Searched.enter (hsucc : ∀ x ∈ nodes, ∀ y ∈ succ x, y ∈ nodes) (hstart : start ∈ nodes)
    (h : Searched succ nodes s) (hempty : s.stack = []) :
    Searched succ nodes (s.enter succ nodes start) ∧ (s.enter succ nodes start).stack = [] := by
  have hope : Searched succ nodes { s with stack := [(start, false)] } := by
    obtain ⟨-, known, visited_iff, nodup, -, finished, -, ordered⟩ := h
    rw [hempty] at visited_iff nodup
    exact ⟨fun e he => mem_singleton.mp he ▸ hstart, known, visited_iff, nodup,
      pairwise_singleton _ _, finished, trivial, ordered⟩
  have hdone := runUntil_done (Searched.step hsucc) Search.step_measure hope
    (n := 1 + Search.unvisitedWork succ nodes s.visited) le_rfl
  refine ⟨runUntil_invariant _ (Searched.step hsucc) hope, ?_⟩
  unfold Search.enter
  generalize runUntil _ _ _ = s' at hdone
  unfold Search.step at hdone
  split at hdone
  · assumption
  · cases hdone
  · split at hdone <;> cases hdone

lemma Search.visited_step (s s' : Search κ) (hk : k ∈ s.visited) (hs : s.step succ = some s') :
    k ∈ s'.visited := by
  unfold Search.step at hs
  split at hs
  · cases hs
  · cases hs
    exact hk
  · split at hs
    · cases hs
      exact hk
    · cases hs
      exact .tail _ hk

lemma Search.mem_visited_enter {s : Search κ} (h : k = start ∨ k ∈ s.visited) :
    k ∈ (s.enter succ nodes start).visited := by
  unfold Search.enter
  rcases h with rfl | h
  · -- the first round enters the node, the others keep it
    rw [Nat.add_comm, runUntil]
    by_cases hk : k ∈ s.visited
    · simp only [Search.step, if_pos hk]
      exact runUntil_invariant (fun s : Search κ => k ∈ s.visited) Search.visited_step hk
    · simp only [Search.step, if_neg hk]
      exact runUntil_invariant (fun s : Search κ => k ∈ s.visited) Search.visited_step
        (.head _)
  · exact runUntil_invariant (fun s : Search κ => k ∈ s.visited) Search.visited_step h

omit [DecidableEq κ] in
lemma foldl_enter {σ : Type} (enter : σ → κ → σ) (visited : σ → List κ) (inv : σ → Prop)
    (henter : ∀ s, ∀ k ∈ nodes, inv s → inv (enter s k) ∧
      ∀ k', k' = k ∨ k' ∈ visited s → k' ∈ visited (enter s k))
    {roots : List κ} (hroots : ∀ k ∈ roots, k ∈ nodes) {s : σ} (h : inv s) :
    inv (roots.foldl enter s) ∧
      ∀ k, k ∈ roots ∨ k ∈ visited s → k ∈ visited (roots.foldl enter s) := by
  induction roots generalizing s with
  | nil => exact ⟨h, fun k hk => hk.resolve_left not_mem_nil⟩
  | cons root roots ih =>
    obtain ⟨hroot, hrest⟩ := forall_mem_cons.mp hroots
    obtain ⟨hent, hkept⟩ := henter s root hroot h
    obtain ⟨hdone, hvis⟩ := ih hrest hent
    refine ⟨hdone, fun k hk => hvis k ?_⟩
    rcases hk with hk | hk
    · rcases mem_cons.mp hk with rfl | hk
      · exact .inr (hkept k (.inl rfl))
      · exact .inl hk
    · exact .inr (hkept k (.inr hk))

lemma finishOrder_spec (hsucc : ∀ x ∈ nodes, ∀ y ∈ succ x, y ∈ nodes) :
    (∀ k, k ∈ finishOrder succ nodes ↔ k ∈ nodes) ∧ (finishOrder succ nodes).Nodup ∧
      FinishOrdered succ (finishOrder succ nodes) := by
  have hstart : Searched succ nodes ⟨[], [], []⟩ :=
    ⟨by simp, by simp, by simp [openNodes], by simp [openNodes], .nil, by simp, trivial,
      fun before u after heq => by simp at heq⟩
  obtain ⟨⟨h, hempty⟩, hvis⟩ := foldl_enter (Search.enter succ nodes) Search.visited
    (fun s => Searched succ nodes s ∧ s.stack = [])
    (fun s k hk h => ⟨h.1.enter hsucc hk h.2, fun _ => Search.mem_visited_enter⟩)
    (fun _ hk => hk) ⟨hstart, rfl⟩
  have hopen : ∀ order : List κ, order ++ openNodes [] = order := fun order => by simp [openNodes]
  refine ⟨fun k => ⟨fun hk => ?_, fun hk => ?_⟩, ?_, h.ordered⟩
  · exact h.known k ((h.visited_iff k).mpr (mem_append_left _ hk))
  · have := (h.visited_iff k).mp (hvis k (.inl hk))
    rwa [hempty, hopen] at this
  · have := h.nodup
    rwa [hempty, hopen] at this

/-- The search with one entry for every open node, which says how many of the edges
of the node it has looked at; a node is entered when it is pushed. -/
structure EdgeSearch (κ : Type) where
  visited : List κ
  order : List κ
  stack : List (κ × ℕ)

def EdgeSearch.step (succ : κ → List κ) (s : EdgeSearch κ) : Option (EdgeSearch κ) :=
  match s.stack with
  | [] => none
  | (k, i) :: rest =>
    match (succ k)[i]? with
    | none => some { s with order := s.order ++ [k], stack := rest }
    | some c =>
      if c ∈ s.visited then some { s with stack := (k, i + 1) :: rest }
      else some { s with visited := c :: s.visited, stack := (c, 0) :: (k, i + 1) :: rest }

/-- Enter a node, unless it was entered, and run until everything it opens is finished. -/
def EdgeSearch.enter (succ : κ → List κ) (nodes : List κ) (s : EdgeSearch κ) (start : κ) :
    EdgeSearch κ :=
  if start ∈ s.visited then s
  else runUntil (EdgeSearch.step succ) (Search.unvisitedWork succ nodes s.visited)
    { s with visited := start :: s.visited, stack := [(start, 0)] }

def edgeFinishOrder (succ : κ → List κ) (nodes : List κ) : List κ :=
  (nodes.foldl (EdgeSearch.enter succ nodes) ⟨[], [], []⟩).order

structure EdgeSearched (succ : κ → List κ) (nodes : List κ) (s : EdgeSearch κ) : Prop where
  known : ∀ k ∈ s.visited, k ∈ nodes
  visited_iff : ∀ k, k ∈ s.visited ↔ k ∈ s.order ++ s.stack.map Prod.fst
  nodup : (s.order ++ s.stack.map Prod.fst).Nodup
  above : s.stack.Pairwise fun upper lower => Leads succ lower.1 upper.1
  seen : ∀ e ∈ s.stack, ∀ y ∈ (succ e.1).take e.2, y ∈ s.visited
  finished : ∀ x ∈ s.order, ∀ y ∈ succ x, y ∈ s.visited
  ordered : FinishOrdered succ s.order

/-- The edges that are still to be looked at, and the nodes still to be finished. -/
def EdgeSearch.workLeft (succ : κ → List κ) (nodes : List κ) (s : EdgeSearch κ) : ℕ :=
  (s.stack.map fun e => (succ e.1).length - e.2 + 1).sum +
    Search.unvisitedWork succ nodes s.visited

namespace EdgeSearched

variable {succ : κ → List κ} {nodes : List κ} {s : EdgeSearch κ} {k : κ} {i : ℕ}
  {rest : List (κ × ℕ)} (h : EdgeSearched succ nodes s) (hstack : s.stack = (k, i) :: rest)
include h hstack

omit [DecidableEq κ] in
lemma finish (hend : (succ k)[i]? = none) :
    EdgeSearched succ nodes { s with order := s.order ++ [k], stack := rest } := by
  obtain ⟨known, visited_iff, nodup, above, seen, finished, ordered⟩ := h
  rw [hstack] at visited_iff nodup above seen
  have hopen : s.order ++ ((k, i) :: rest).map Prod.fst =
      s.order ++ [k] ++ rest.map Prod.fst := by simp
  rw [hopen] at visited_iff nodup
  have hall : ∀ y ∈ succ k, y ∈ s.visited := by
    have htake := seen (k, i) (.head _)
    rwa [take_of_length_le (List.getElem?_eq_none_iff.mp hend)] at htake
  have hedges : ∀ x ∈ s.order ++ [k], ∀ y ∈ succ x, y ∈ s.visited := by
    intro x hx
    rcases mem_append.mp hx with hx | hx
    · exact finished x hx
    · exact mem_singleton.mp hx ▸ hall
  refine ⟨known, visited_iff, nodup, above.of_cons,
    fun e he => seen e (.tail _ he), hedges, ordered.snoc fun x hx y hy => ?_⟩
  rcases mem_append.mp ((visited_iff y).mp (hedges x hx y hy)) with hy' | hy'
  · exact .inl hy'
  · obtain ⟨e, he, rfl⟩ := mem_map.mp hy'
    exact .inr ((pairwise_cons.mp above).1 e he)

omit [DecidableEq κ] in
lemma pass (hc : (succ k)[i]? = some c) (hvis : c ∈ s.visited) :
    EdgeSearched succ nodes { s with stack := (k, i + 1) :: rest } := by
  obtain ⟨known, visited_iff, nodup, above, seen, finished, ordered⟩ := h
  rw [hstack] at visited_iff nodup above seen
  refine ⟨known, visited_iff, nodup, pairwise_cons.mpr (pairwise_cons.mp above), ?_,
    finished, ordered⟩
  refine forall_mem_cons.mpr ⟨fun y hy => ?_, fun e he => seen e (.tail _ he)⟩
  simp only [take_add_one, hc, Option.toList_some, mem_append, mem_singleton] at hy
  rcases hy with hy | rfl
  · exact seen (k, i) (.head _) y hy
  · exact hvis

variable (hsucc : ∀ x ∈ nodes, ∀ y ∈ succ x, y ∈ nodes)
include hsucc

omit [DecidableEq κ] in
lemma push (hc : (succ k)[i]? = some c) (hvis : c ∉ s.visited) :
    EdgeSearched succ nodes
      { s with visited := c :: s.visited, stack := (c, 0) :: (k, i + 1) :: rest } := by
  have hk : k ∈ s.visited := (h.visited_iff k).mpr (by simp [hstack])
  have hedge : c ∈ succ k := mem_of_getElem? hc
  have hnode : c ∈ nodes := hsucc k (h.known k hk) c hedge
  obtain ⟨known, visited_iff, nodup, above, seen, finished, ordered⟩ := h
  rw [hstack] at visited_iff nodup above seen
  have habove := pairwise_cons.mp above
  refine ⟨forall_mem_cons.mpr ⟨hnode, known⟩, fun x => ?_, ?_, ?_, ?_,
    fun x hx y hy => .tail _ (finished x hx y hy), ordered⟩
  · rw [mem_cons, visited_iff x]
    simp only [mem_append, map_cons, mem_cons]
    tauto
  · exact (perm_middle.nodup_iff).mpr
      (nodup_cons.mpr ⟨fun hmem => hvis ((visited_iff c).mpr hmem), nodup⟩)
  · refine pairwise_cons.mpr ⟨fun e he => ?_, pairwise_cons.mpr habove⟩
    rcases mem_cons.mp he with rfl | he
    · exact .single hedge
    · exact .tail (habove.1 e he) hedge
  · refine forall_mem_cons.mpr ⟨by simp, forall_mem_cons.mpr ⟨fun y hy => ?_,
      fun e he y hy => .tail _ (seen e (.tail _ he) y hy)⟩⟩
    simp only [take_add_one, hc, Option.toList_some, mem_append, mem_singleton] at hy
    rcases hy with hy | rfl
    · exact .tail _ (seen (k, i) (.head _) y hy)
    · exact .head _

omit h hstack

lemma step (s s' : EdgeSearch κ) (h : EdgeSearched succ nodes s) (hs : s.step succ = some s') :
    EdgeSearched succ nodes s' ∧ s'.workLeft succ nodes < s.workLeft succ nodes := by
  unfold EdgeSearch.step at hs
  match hstack : s.stack with
  | [] => simp [hstack] at hs
  | (k, i) :: rest =>
    simp only [hstack] at hs
    rcases hc : (succ k)[i]? with _ | c
    · rw [hc] at hs
      cases hs
      exact ⟨h.finish hstack hc, by simp [EdgeSearch.workLeft, hstack]⟩
    have hi : i < (succ k).length := (List.getElem?_eq_some_iff.mp hc).1
    simp only [hc] at hs
    split_ifs at hs with hvis
    · cases hs
      refine ⟨h.pass hstack hc hvis, ?_⟩
      simp only [EdgeSearch.workLeft, hstack, map_cons, sum_cons]
      omega
    · cases hs
      have hpus := h.push hstack hsucc hc hvis
      refine ⟨hpus, ?_⟩
      have hpay := sum_filter_unvisited (hpus.known c (.head _)) hvis
        (fun k' => mem_cons) (fun k => (succ k).length + 1)
      simp only [EdgeSearch.workLeft, Search.unvisitedWork, hstack, map_cons, sum_cons]
      omega

lemma enter (hstart : start ∈ nodes) (h : EdgeSearched succ nodes s) (hempty : s.stack = []) :
    EdgeSearched succ nodes (s.enter succ nodes start) ∧
      (s.enter succ nodes start).stack = [] ∧
      ∀ k, k = start ∨ k ∈ s.visited → k ∈ (s.enter succ nodes start).visited := by
  unfold EdgeSearch.enter
  split_ifs with hold
  · refine ⟨h, hempty, fun k hk => ?_⟩
    rcases hk with rfl | hk
    · exact hold
    · exact hk
  · have hope : EdgeSearched succ nodes
        { s with visited := start :: s.visited, stack := [(start, 0)] } := by
      obtain ⟨known, visited_iff, nodup, -, -, finished, ordered⟩ := h
      rw [hempty, map_nil, append_nil] at visited_iff nodup
      refine ⟨forall_mem_cons.mpr ⟨hstart, known⟩, fun x => ?_, ?_,
        pairwise_singleton _ _, by simp, fun x hx y hy => .tail _ (finished x hx y hy), ordered⟩
      · rw [mem_cons, visited_iff x]
        simp [or_comm]
      · exact nodup_append.mpr ⟨nodup, nodup_singleton _, by
          rintro x hx y hy rfl
          have hxst : x = start := mem_singleton.mp hy
          exact hold (hxst ▸ (visited_iff x).mpr hx)⟩
    have hfuel : EdgeSearch.workLeft succ nodes
        { s with visited := start :: s.visited, stack := [(start, 0)] } ≤
          Search.unvisitedWork succ nodes s.visited := by
      have hpay := sum_filter_unvisited hstart hold (fun k' => mem_cons)
        (fun k => (succ k).length + 1)
      simpa [EdgeSearch.workLeft, Search.unvisitedWork] using hpay
    have hdone := runUntil_done (fun a b ha hab => (EdgeSearched.step hsucc a b ha hab).1)
      (fun a b ha hab => (EdgeSearched.step hsucc a b ha hab).2) hope hfuel
    refine ⟨runUntil_invariant _ (fun a b ha hab => (EdgeSearched.step hsucc a b ha hab).1) hope,
      ?_, fun k hk => ?_⟩
    · generalize runUntil _ _ _ = s' at hdone
      unfold EdgeSearch.step at hdone
      split at hdone
      · assumption
      · split at hdone
        · cases hdone
        · split at hdone <;> cases hdone
    · refine runUntil_invariant (fun s : EdgeSearch κ => k ∈ s.visited) (fun a b ha hab => ?_)
        (mem_cons.mpr hk)
      unfold EdgeSearch.step at hab
      split at hab
      · cases hab
      · split at hab
        · cases hab
          exact ha
        · split at hab <;> cases hab
          · exact ha
          · exact .tail _ ha

end EdgeSearched

lemma edgeFinishOrder_spec (hsucc : ∀ x ∈ nodes, ∀ y ∈ succ x, y ∈ nodes) :
    (∀ k, k ∈ edgeFinishOrder succ nodes ↔ k ∈ nodes) ∧ (edgeFinishOrder succ nodes).Nodup ∧
      FinishOrdered succ (edgeFinishOrder succ nodes) := by
  have hstart : EdgeSearched succ nodes ⟨[], [], []⟩ :=
    ⟨by simp, by simp, by simp, .nil, by simp, by simp, fun before u after heq => by simp at heq⟩
  obtain ⟨⟨h, hempty⟩, hvis⟩ := foldl_enter (EdgeSearch.enter succ nodes) EdgeSearch.visited
    (fun s => EdgeSearched succ nodes s ∧ s.stack = [])
    (fun s k hk h => ⟨⟨(h.1.enter hsucc hk h.2).1, (h.1.enter hsucc hk h.2).2.1⟩,
      (h.1.enter hsucc hk h.2).2.2⟩)
    (fun _ hk => hk) ⟨hstart, rfl⟩
  refine ⟨fun k => ⟨fun hk => ?_, fun hk => ?_⟩, ?_, h.ordered⟩
  · exact h.known k ((h.visited_iff k).mpr (mem_append_left _ hk))
  · have := (h.visited_iff k).mp (hvis k (.inl hk))
    rwa [hempty, map_nil, append_nil] at this
  · have := h.nodup
    rwa [hempty, map_nil, append_nil] at this

omit [DecidableEq κ] in
/-- The last node of a path that stays among the nodes finished up to it leads back
to the first. -/
lemma FinishOrdered.leads_back {before after : List κ}
    (h : FinishOrdered succ (before ++ w :: after)) (hw : w ∉ before)
    (hpath : Relation.ReflTransGen (fun a b => b ∈ succ a ∧ a ∈ before ++ [w]) u w) :
    Leads succ w u := by
  -- an edge of the path leaves the nodes finished up to `u`; it goes to a later node
  -- that leads to `u`, and the induction is on how many nodes are later than `u`
  have hlater : ∀ n first u later, later.length = n → before = first ++ u :: later →
      Relation.ReflTransGen (fun a b => b ∈ succ a ∧ a ∈ before ++ [w]) u w →
      Leads succ w u := by
    intro n
    induction n using Nat.strongRecOn with
    | ind n ih =>
      intro first u later hn hbef hpath
      have hexit : ∃ x y, x ∈ first ++ [u] ∧ y ∉ first ++ [u] ∧ y ∈ succ x ∧
          Relation.ReflTransGen (fun a b => b ∈ succ a ∧ a ∈ before ++ [w]) y w := by
        have hstart : u ∈ first ++ [u] := mem_append_right _ (mem_singleton.mpr rfl)
        have hend : w ∉ first ++ [u] := fun hmem => hw (by
          rw [hbef]
          simp only [mem_append, mem_cons] at hmem ⊢
          tauto)
        generalize first ++ [u] = closed at hstart hend
        clear hn hbef ih
        induction hpath using head_induction_on with
        | refl => exact absurd hstart hend
        | head hedge hrest ih =>
          rename_i a c
          by_cases hc : c ∈ closed
          · exact ih hc
          · exact ⟨a, c, hstart, hc, hedge.1, hrest⟩
      obtain ⟨x, y, hx, hy, hedge, hrest⟩ := hexit
      have hback : Leads succ y u := by
        refine (h first u (later ++ w :: after) ?_ x hx y hedge).resolve_left hy
        rw [hbef, append_assoc, cons_append]
      have hlate : y = w ∨ y ∈ later := by
        have hmem : y ∈ before ++ [w] := by
          rcases hrest.cases_head with rfl | ⟨_, hnext, _⟩
          · exact mem_append_right _ (mem_singleton.mpr rfl)
          · exact hnext.2
        rw [hbef] at hmem
        simp only [mem_append, mem_cons] at hmem hy
        tauto
      rcases hlate with rfl | hlate
      · exact hback
      · obtain ⟨middle, last, rfl⟩ := append_of_mem hlate
        refine (ih last.length ?_ (first ++ u :: middle) y last rfl ?_ hrest).trans hback
        · rw [← hn, length_append, length_cons]
          omega
        · rw [hbef, append_assoc, cons_append]
  rcases hpath.cases_head with rfl | ⟨_, hnext, _⟩
  · exact .refl
  · rcases mem_append.mp hnext.2 with hu | hu
    · obtain ⟨first, later, hbef⟩ := append_of_mem hu
      exact hlater _ first u later rfl hbef hpath
    · rw [mem_singleton.mp hu]
      exact .refl

/-- A walk against the edges: the nodes that have a component, those of this
component, and those whose predecessors are still to be looked at. -/
structure Walk (κ : Type) where
  assigned : List κ
  component : List κ
  stack : List κ

def Walk.step (pred : κ → List κ) (w : Walk κ) : Option (Walk κ) :=
  match w.stack with
  | [] => none
  | k :: rest =>
    let new := ((pred k).filter fun p => p ∉ w.assigned).dedup
    some ⟨new ++ w.assigned, w.component ++ new, new ++ rest⟩

def Walk.startAt (pred : κ → List κ) (nodes assigned : List κ) (start : κ) : Walk κ :=
  runUntil (Walk.step pred) (nodes.length + 1) ⟨start :: assigned, [start], [start]⟩

def assignComponent (pred : κ → List κ) (nodes : List κ) (acc : List κ × List (List κ))
    (start : κ) : List κ × List (List κ) :=
  if start ∈ acc.1 then acc
  else
    let w := Walk.startAt pred nodes acc.1 start
    (w.assigned, acc.2 ++ [w.component])

def components (pred : κ → List κ) (nodes order : List κ) : List (List κ) :=
  (order.reverse.foldl (assignComponent pred nodes) ([], [])).2

section Walks

variable {succ pred : κ → List κ} {nodes : List κ}

structure Walked (succ pred : κ → List κ) (nodes earlier : List κ) (start : κ) (w : Walk κ) :
    Prop where
  assigned_iff : ∀ k, k ∈ w.assigned ↔ k ∈ w.component ∨ k ∈ earlier
  started : start ∈ w.component
  within : ∀ k ∈ w.component, k ∈ nodes
  fresh : ∀ k ∈ w.component, k ∉ earlier
  nodup : w.component.Nodup
  pending : ∀ k ∈ w.stack, k ∈ w.component
  path : ∀ k ∈ w.component,
    Relation.ReflTransGen (fun a b => b ∈ succ a ∧ a ∈ nodes ∧ a ∉ earlier) k start
  closed : ∀ k ∈ w.component, k ∈ w.stack ∨ ∀ p ∈ pred k, p ∈ w.assigned

namespace Walked

variable (hpred : ∀ k, ∀ p ∈ pred k, p ∈ nodes ∧ k ∈ succ p)
include hpred

lemma step (w w' : Walk κ)
    (h : Walked succ pred nodes earlier start w) (hs : w.step pred = some w') :
    Walked succ pred nodes earlier start w' := by
  obtain ⟨assigned_iff, started, within, fresh, nodup, pending, path, closed⟩ := h
  unfold Walk.step at hs
  match hstack : w.stack with
  | [] => simp [hstack] at hs
  | k :: rest =>
    simp only [hstack] at hs
    cases hs
    rw [hstack] at pending closed
    have hk : k ∈ w.component := pending k (.head _)
    set new := ((pred k).filter fun p => p ∉ w.assigned).dedup with hnew
    have hmem : ∀ p, p ∈ new ↔ p ∈ pred k ∧ p ∉ w.assigned := fun p => by simp [hnew]
    have huna : ∀ p ∈ new, p ∉ w.component ∧ p ∉ earlier := fun p hp =>
      not_or.mp fun hold => ((hmem p).mp hp).2 ((assigned_iff p).mpr hold)
    refine ⟨fun p => ?_, mem_append_left _ started, fun p hp => ?_, fun p hp => ?_, ?_,
      fun p hp => ?_, fun p hp => ?_, fun p hp => ?_⟩
    · simp only [mem_append, assigned_iff p]
      tauto
    · rcases mem_append.mp hp with hp | hp
      · exact within p hp
      · exact (hpred k p ((hmem p).mp hp).1).1
    · rcases mem_append.mp hp with hp | hp
      · exact fresh p hp
      · exact (huna p hp).2
    · exact nodup.append (nodup_dedup _) fun p hold hp => (huna p hp).1 hold
    · rcases mem_append.mp hp with hp | hp
      · exact mem_append_right _ hp
      · exact mem_append_left _ (pending p (.tail _ hp))
    · rcases mem_append.mp hp with hp | hp
      · exact path p hp
      · have hedge := hpred k p ((hmem p).mp hp).1
        exact .head ⟨hedge.2, hedge.1, (huna p hp).2⟩ (path k hk)
    · rcases mem_append.mp hp with hp | hp
      · rcases closed p hp with hopen | hdone
        · rcases mem_cons.mp hopen with rfl | hopen
          · -- the node that was taken: its predecessors are assigned now
            refine .inr fun q hq => ?_
            by_cases hq' : q ∈ w.assigned
            · exact mem_append_right _ hq'
            · exact mem_append_left _ ((hmem q).mpr ⟨hq, hq'⟩)
          · exact .inl (mem_append_right _ hopen)
        · exact .inr fun q hq => mem_append_right _ (hdone q hq)
      · exact .inl (mem_append_left _ hp)

lemma step_measure (hnodes : nodes.Nodup) (w w' : Walk κ) (hs : w.step pred = some w') :
    w'.stack.length + (nodes.filter fun k => k ∉ w'.assigned).length <
      w.stack.length + (nodes.filter fun k => k ∉ w.assigned).length := by
  unfold Walk.step at hs
  match hstack : w.stack with
  | [] => simp [hstack] at hs
  | k :: rest =>
    simp only [hstack] at hs
    cases hs
    set new := ((pred k).filter fun p => p ∉ w.assigned).dedup with hnew
    have hmem : ∀ p, p ∈ new ↔ p ∈ pred k ∧ p ∉ w.assigned := fun p => by simp [hnew]
    have hnodup : (new ++ nodes.filter fun k => k ∉ new ++ w.assigned).Nodup := by
      refine (nodup_dedup _).append (hnodes.filter _) fun p hp hp' => ?_
      have hkept : p ∉ new ++ w.assigned := of_decide_eq_true (mem_filter.mp hp').2
      exact hkept (mem_append_left _ hp)
    have hsub : (new ++ nodes.filter fun k => k ∉ new ++ w.assigned) ⊆
        nodes.filter fun k => k ∉ w.assigned := by
      intro p hp
      rcases mem_append.mp hp with hp | hp
      · obtain ⟨hedge, hp⟩ := (hmem p).mp hp
        exact mem_filter.mpr ⟨(hpred k p hedge).1, decide_eq_true hp⟩
      · simp only [mem_filter, mem_append, not_or, decide_eq_true_eq] at hp ⊢
        exact ⟨hp.1, hp.2.2⟩
    have hlen := (subperm_of_subset hnodup hsub).length_le
    simp only [length_append, length_cons] at hlen ⊢
    omega

lemma startAt (hnodes : nodes.Nodup) (hstart : start ∈ nodes) (hnew : start ∉ earlier) :
    Walked succ pred nodes earlier start (Walk.startAt pred nodes earlier start) ∧
      (Walk.startAt pred nodes earlier start).stack = [] := by
  have hope : Walked succ pred nodes earlier start ⟨start :: earlier, [start], [start]⟩ :=
    ⟨fun k => by simp, .head _, by simpa using hstart, by simpa using hnew,
      nodup_singleton _, fun _ => id, by simp [refl], fun _ => .inl⟩
  have hfuel : 1 + (nodes.filter fun k => k ∉ start :: earlier).length ≤ nodes.length + 1 := by
    have := length_filter_le (fun k => decide (k ∉ start :: earlier)) nodes
    omega
  have hdone := runUntil_done (Walked.step hpred)
    (fun w w' (_ : Walked succ pred nodes earlier start w) => step_measure hpred hnodes w w')
    hope hfuel
  refine ⟨runUntil_invariant _ (Walked.step hpred) hope, ?_⟩
  unfold Walk.startAt
  generalize runUntil _ _ _ = w at hdone
  unfold Walk.step at hdone
  split at hdone
  · assumption
  · cases hdone

end Walked

/-- What the components assigned so far are: they hold the nodes from the end of the
finish order on, and each is a class of nodes that lead to each other. -/
structure Assigned (succ pred : κ → List κ) (nodes : List κ) (acc : List κ × List (List κ)) :
    Prop where
  assigned_iff : ∀ k, k ∈ acc.1 ↔ ∃ c ∈ acc.2, k ∈ c
  within : ∀ k ∈ acc.1, k ∈ nodes
  closed : ∀ k ∈ acc.1, ∀ p ∈ pred k, p ∈ acc.1
  together : ∀ c ∈ acc.2, ∀ a ∈ c, ∀ b ∈ c, Leads succ a b
  whole : ∀ c ∈ acc.2, ∀ a ∈ c, ∀ b ∈ nodes, Leads succ a b → Leads succ b a → b ∈ c
  nodup : ∀ c ∈ acc.2, c.Nodup
  disjoint : acc.2.Pairwise List.Disjoint

variable (hsucc : ∀ x ∈ nodes, ∀ y ∈ succ x, y ∈ nodes ∧ x ∈ pred y)
include hsucc

omit [DecidableEq κ] in
lemma leads_closed {assigned : List κ} (hclo : ∀ k ∈ assigned, ∀ p ∈ pred k, p ∈ assigned)
    (ha : a ∈ nodes) (hpath : Leads succ a b) (hb : b ∈ assigned) : a ∈ assigned := by
  induction hpath using head_induction_on with
  | refl => exact hb
  | head hedge _ ih =>
    have hnext := hsucc _ ha _ hedge
    exact hclo _ (ih hnext.1) _ hnext.2

variable (hpred : ∀ k, ∀ p ∈ pred k, p ∈ nodes ∧ k ∈ succ p)
include hpred

lemma Assigned.assign (hnodes : nodes.Nodup) {before after : List κ}
    (hord : FinishOrdered succ (before ++ start :: after))
    (hnodup : (before ++ start :: after).Nodup)
    (horder : ∀ k, k ∈ before ++ start :: after ↔ k ∈ nodes) (hafter : ∀ k ∈ after, k ∈ acc.1)
    (h : Assigned succ pred nodes acc) :
    Assigned succ pred nodes (assignComponent pred nodes acc start) ∧
      ∀ k ∈ start :: after, k ∈ (assignComponent pred nodes acc start).1 := by
  unfold assignComponent
  split_ifs with hstart
  · exact ⟨h, forall_mem_cons.mpr ⟨hstart, hafter⟩⟩
  · have hnode : start ∈ nodes := (horder start).mp (by simp)
    obtain ⟨hwalk, hempty⟩ := Walked.startAt hpred hnodes hnode hstart
    generalize Walk.startAt pred nodes acc.1 start = w at hwalk hempty
    obtain ⟨assigned_iff, within, closed, together, whole, nodup, disjoint⟩ := h
    have hclo : ∀ k ∈ w.assigned, ∀ p ∈ pred k, p ∈ w.assigned := by
      intro k hk p hp
      rcases (hwalk.assigned_iff k).mp hk with hk | hk
      · rcases hwalk.closed k hk with hopen | hdone
        · rw [hempty] at hopen
          cases hopen
        · exact hdone p hp
      · exact (hwalk.assigned_iff p).mpr (.inr (closed k hk p hp))
    have hto : ∀ a ∈ w.component, Leads succ a start := fun a ha =>
      mono (fun _ _ hedge => hedge.1) _ _ (hwalk.path a ha)
    have hfrom : ∀ a ∈ w.component, Leads succ start a := by
      intro a ha
      refine hord.leads_back ?_ (mono (fun x _ hedge => ?_) _ _
        (hwalk.path a ha))
      · exact fun hmem => (nodup_append.mp hnodup).2.2 start hmem start (.head _) rfl
      · -- what is not assigned is finished by the time of the start
        have hx := (horder x).mpr hedge.2.1
        refine ⟨hedge.1, ?_⟩
        simp only [mem_append, mem_cons] at hx ⊢
        tauto
    refine ⟨⟨fun k => ?_, fun k hk => ?_, hclo, fun c hc => ?_, fun c hc => ?_, fun c hc => ?_,
      ?_⟩, fun k hk => (hwalk.assigned_iff k).mpr ?_⟩
    · simp only [hwalk.assigned_iff k, assigned_iff k, mem_append, mem_singleton,
        or_and_right, exists_or, exists_eq_left]
      exact or_comm
    · rcases (hwalk.assigned_iff k).mp hk with hk | hk
      · exact hwalk.within k hk
      · exact within k hk
    · rcases mem_append.mp hc with hc | hc
      · exact together c hc
      · obtain rfl := mem_singleton.mp hc
        exact fun a ha b hb => (hto a ha).trans (hfrom b hb)
    · rcases mem_append.mp hc with hc | hc
      · exact whole c hc
      · obtain rfl := mem_singleton.mp hc
        intro a ha b hb hab hba
        have hass := leads_closed hsucc hclo hb hba ((hwalk.assigned_iff a).mpr (.inl ha))
        refine ((hwalk.assigned_iff b).mp hass).resolve_right fun hear => ?_
        exact hwalk.fresh a ha (leads_closed hsucc closed (hwalk.within a ha) hab hear)
    · rcases mem_append.mp hc with hc | hc
      · exact nodup c hc
      · obtain rfl := mem_singleton.mp hc
        exact hwalk.nodup
    · refine pairwise_append.mpr ⟨disjoint, pairwise_singleton _ _, ?_⟩
      intro c hc c' hc' k hk hk'
      obtain rfl := mem_singleton.mp hc'
      exact hwalk.fresh k hk' ((assigned_iff k).mpr ⟨c, hc, hk⟩)
    · rcases mem_cons.mp hk with rfl | hk
      · exact .inl hwalk.started
      · exact .inr (hafter k hk)

omit hsucc hpred in
lemma components_ne_nil (hc : c ∈ components pred nodes order) : c ≠ [] := by
  refine foldlRecOn (motive := fun acc => ∀ c ∈ acc.2, c ≠ []) order.reverse
    (assignComponent pred nodes) (by simp) (fun acc h start _ => ?_) c hc
  unfold assignComponent
  split_ifs
  · exact h
  · intro c hc
    rcases mem_append.mp hc with hc | hc
    · exact h c hc
    · rw [mem_singleton.mp hc]
      refine runUntil_invariant (fun w : Walk κ => w.component ≠ []) (fun w w' hw hs => ?_)
        (cons_ne_nil start [])
      unfold Walk.step at hs
      split at hs <;> cases hs
      exact append_ne_nil_of_left_ne_nil hw _

/-- The components of a graph: they partition its nodes into the classes of those that
lead to each other. -/
structure IsComponents (succ : κ → List κ) (nodes : List κ) (components : List (List κ)) :
    Prop where
  covers : ∀ k ∈ nodes, ∃ c ∈ components, k ∈ c
  within : ∀ c ∈ components, ∀ k ∈ c, k ∈ nodes
  nonempty : ∀ c ∈ components, c ≠ []
  nodup : ∀ c ∈ components, c.Nodup
  disjoint : components.Pairwise List.Disjoint
  mem_iff : ∀ c ∈ components, ∀ a ∈ c, ∀ b ∈ nodes, b ∈ c ↔ Leads succ a b ∧ Leads succ b a

/-- The walks from the end of a finish order give the components, however their members
are arranged. -/
lemma components_spec (hnodes : nodes.Nodup) (hord : FinishOrdered succ order)
    (hnodup : order.Nodup) (horder : ∀ k, k ∈ order ↔ k ∈ nodes)
    (hmem : ∀ {c k}, k ∈ arrange c ↔ k ∈ c) (harr : ∀ c : List κ, c.Nodup → (arrange c).Nodup) :
    IsComponents succ nodes ((components pred nodes order).map arrange) := by
  have hfold : ∀ before after acc, order = before ++ after → (∀ k ∈ after, k ∈ acc.1) →
      Assigned succ pred nodes acc →
      Assigned succ pred nodes (before.reverse.foldl (assignComponent pred nodes) acc) ∧
      ∀ k ∈ order, k ∈ (before.reverse.foldl (assignComponent pred nodes) acc).1 := by
    intro before
    induction before using reverseRecOn with
    | nil =>
      rintro after acc rfl hafter h
      exact ⟨h, hafter⟩
    | append_singleton before start ih =>
      intro after acc heq hafter h
      rw [append_assoc, singleton_append] at heq
      subst heq
      obtain ⟨h', hafter'⟩ := h.assign hsucc hpred hnodes hord hnodup horder hafter
      rw [reverse_append, reverse_singleton, singleton_append, foldl_cons]
      exact ih (start :: after) _ rfl hafter' h'
  have hstart : Assigned succ pred nodes ([], []) :=
    ⟨by simp, by simp, by simp, by simp, by simp, by simp, .nil⟩
  obtain ⟨h, hall⟩ := hfold order [] ([], []) (append_nil order).symm (by simp) hstart
  refine ⟨fun k hk => ?_, forall_mem_map.mpr fun c hc k hk => ?_,
    forall_mem_map.mpr fun c hc hnil => ?_, forall_mem_map.mpr fun c hc => harr c (h.nodup c hc),
    pairwise_map.mpr (h.disjoint.imp fun hdisj k hk hk' => hdisj (hmem.mp hk) (hmem.mp hk')),
    forall_mem_map.mpr fun c hc a ha b hb => ⟨fun hb => ?_, fun hboth => ?_⟩⟩
  · obtain ⟨c, hc, hkc⟩ := (h.assigned_iff k).mp (hall k ((horder k).mpr hk))
    exact ⟨_, mem_map_of_mem hc, hmem.mpr hkc⟩
  · exact h.within k ((h.assigned_iff k).mpr ⟨c, hc, hmem.mp hk⟩)
  · obtain ⟨k, hk⟩ := exists_mem_of_ne_nil c (components_ne_nil hc)
    rw [← hmem, hnil] at hk
    cases hk
  · rw [hmem] at ha hb
    exact ⟨h.together c hc a ha b hb, h.together c hc b hb a ha⟩
  · rw [hmem] at ha ⊢
    exact h.whole c hc a ha b hb hboth.1 hboth.2

end Walks

end Stasis.Graph
