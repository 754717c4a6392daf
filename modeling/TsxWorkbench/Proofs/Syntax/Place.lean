/-
Places in a tree. A place is the path that leads to it: the number of an item, then at each node the number of a part.

- `mem_forestWalk`: a walk over the trees of a list comes to what stands at their places, and to nothing else.
- `sorted_forestWalk`: it comes to each place once, in the order of the tree.
- `map_snd_forestWalk`: the nodes are those of `preorder`, in their order.
- `map_snd_forestWalk_until`: a walk that stops at some nodes comes to the places that no such node stands above.
-/
import Mathlib.Data.List.Lex
import TsxWorkbench.Syntax.Node

namespace TsxWorkbench.Syntax

/-! ## Places -/

/-- the node that a path leads to -/
def Node.at? : Node → List Nat → Option Node
  | n, [] => some n
  | n, i :: path => n.children[i]?.bind (at? · path)

/-- the node at a place of a list: the first step picks an entry, the rest leads down from there -/
def forestAt? (ns : List Node) : List Nat → Option Node
  | [] => none
  | i :: path => ns[i]?.bind (·.at? path)

/-- the node at a place of a module; nothing stands at the empty place -/
def Module.at? (m : Module) : List Nat → Option Node := forestAt? m.items

theorem forestAt?_cons {ns : List Node} {i : Nat} {c : Node} (h : ns[i]? = some c) (path : List Nat) :
    forestAt? ns (i :: path) = c.at? path := by
  rw [forestAt?, h, Option.bind_some]

theorem Node.at?_of_forest {n c : Node} {place : List Nat} (h : forestAt? n.children place = some c) :
    n.at? place = some c := by
  cases place with
  | nil => cases h
  | cons i path => exact h

theorem mem_of_forestAt? {ns : List Node} {n : Node} {place : List Nat} (h : forestAt? ns place = some n) :
    n ∈ ns.flatMap Node.preorder := by
  induction place generalizing ns with
  | nil => cases h
  | cons i path ih =>
    obtain ⟨c, hc, hn⟩ := Option.bind_eq_some_iff.1 h
    refine List.mem_flatMap.2 ⟨c, List.mem_of_getElem? hc, ?_⟩
    rw [Node.preorder_eq]
    cases path with
    | nil => exact List.mem_cons.2 (.inl (Option.some.inj hn).symm)
    | cons j path => exact List.mem_cons_of_mem c (ih hn)

/-! ## Walks -/

/-- the places at and below a node with what stands there, parents before their parts -/
def Node.walk (n : Node) : List (List Nat × Node) :=
  ([], n) :: n.children.attach.zipIdx.flatMap fun c => c.1.1.walk.map fun e => (c.2 :: e.1, e.2)
termination_by sizeOf n
decreasing_by exact sizeOf_lt_of_mem_children c.1.2

/-- the places in a list of trees with what stands there -/
def forestWalk (ns : List Node) : List (List Nat × Node) :=
  ns.zipIdx.flatMap fun c => c.1.walk.map fun e => (c.2 :: e.1, e.2)

theorem Node.walk_eq (n : Node) : n.walk = ([], n) :: forestWalk n.children := by
  rw [walk, forestWalk]
  conv_rhs => rw [← List.attach_map_subtype_val n.children, List.zipIdx_map, List.flatMap_map]
  rfl

/-- what holds of the trees of a list holds of the list -/
theorem mem_forestWalk_of {ns : List Node} {place : List Nat} {n : Node}
    (h : ∀ c ∈ ns, ∀ path m, (path, m) ∈ c.walk ↔ c.at? path = some m) :
    (place, n) ∈ forestWalk ns ↔ forestAt? ns place = some n := by
  simp only [forestWalk, List.mem_flatMap, List.mem_map]
  constructor
  · rintro ⟨⟨c, i⟩, hc, ⟨path, m⟩, hm, ⟨⟩⟩
    have hget := List.mem_zipIdx_iff_getElem?.1 hc
    rw [forestAt?_cons hget]
    exact (h c (List.mem_of_getElem? hget) path m).1 hm
  · intro hn
    cases place with
    | nil => cases hn
    | cons i path =>
      obtain ⟨c, hc, hn⟩ := Option.bind_eq_some_iff.1 hn
      exact ⟨(c, i), List.mem_zipIdx_iff_getElem?.2 hc, (path, n), (h c (List.mem_of_getElem? hc) path n).2 hn, rfl⟩

theorem Node.mem_walk {n m : Node} {path : List Nat} : (path, m) ∈ n.walk ↔ n.at? path = some m := by
  induction n using Node.preorder.induct generalizing path m with
  | case1 n ih =>
    rw [walk_eq, List.mem_cons, mem_forestWalk_of fun c hc path m => ih ⟨c, hc⟩]
    cases path with
    | nil => simp [at?, forestAt?, eq_comm]
    | cons i path => simp [at?, forestAt?]

theorem mem_forestWalk {ns : List Node} {place : List Nat} {n : Node} :
    (place, n) ∈ forestWalk ns ↔ forestAt? ns place = some n :=
  mem_forestWalk_of fun _ _ _ _ => Node.mem_walk

theorem sorted_forestWalk_of {ns : List Node} (h : ∀ c ∈ ns, c.walk.Pairwise fun a b => a.1 < b.1) :
    (forestWalk ns).Pairwise fun a b => a.1 < b.1 := by
  refine List.pairwise_flatMap.2 ⟨fun c hc => ?_, ?_⟩
  · have hmem := List.mem_of_getElem? (List.mem_zipIdx_iff_getElem?.1 hc)
    exact List.pairwise_map.2 ((h c.1 hmem).imp fun hlt => List.cons_lt_cons_iff.2 (.inr ⟨rfl, hlt⟩))
  · have hindices : ns.zipIdx.Pairwise fun a b => a.2 < b.2 := by
      rw [← List.pairwise_map (f := Prod.snd), List.zipIdx_map_snd]
      exact List.pairwise_lt_range'
    refine hindices.imp fun hlt a ha b hb => ?_
    obtain ⟨a, -, rfl⟩ := List.mem_map.1 ha
    obtain ⟨b, -, rfl⟩ := List.mem_map.1 hb
    exact List.cons_lt_cons_iff.2 (.inl hlt)

theorem Node.sorted_walk (n : Node) : n.walk.Pairwise fun a b => a.1 < b.1 := by
  induction n using Node.preorder.induct with
  | case1 n ih =>
    rw [walk_eq]
    refine List.pairwise_cons.2 ⟨fun e he => ?_, sorted_forestWalk_of fun c hc => ih ⟨c, hc⟩⟩
    obtain ⟨c, -, he⟩ := List.mem_flatMap.1 he
    obtain ⟨e, -, rfl⟩ := List.mem_map.1 he
    exact List.nil_lt_cons _ _

theorem sorted_forestWalk (ns : List Node) : (forestWalk ns).Pairwise fun a b => a.1 < b.1 :=
  sorted_forestWalk_of fun c _ => c.sorted_walk

theorem map_snd_forestWalk_of {ns : List Node} (h : ∀ c ∈ ns, c.walk.map Prod.snd = c.preorder) :
    (forestWalk ns).map Prod.snd = ns.flatMap Node.preorder := by
  conv_rhs => rw [← List.zipIdx_map_fst 0 ns, List.flatMap_map]
  rw [forestWalk, List.map_flatMap]
  refine List.flatMap_congr fun c hc => ?_
  rw [List.map_map]
  exact h c.1 (List.mem_of_getElem? (List.mem_zipIdx_iff_getElem?.1 hc))

theorem Node.map_snd_walk (n : Node) : n.walk.map Prod.snd = n.preorder := by
  induction n using Node.preorder.induct with
  | case1 n ih => rw [walk_eq, preorder_eq, List.map_cons, map_snd_forestWalk_of fun c hc => ih ⟨c, hc⟩]

theorem map_snd_forestWalk (ns : List Node) : (forestWalk ns).map Prod.snd = ns.flatMap Node.preorder :=
  map_snd_forestWalk_of fun c _ => c.map_snd_walk

/-! ## Walks that stop -/

/-- no node where the walk stops stands above the end of a path -/
def Node.isOpen (stops : Node → Bool) : Node → List Nat → Bool
  | _, [] => true
  | n, i :: path => !stops n && (n.children[i]?).all (isOpen stops · path)

/-- no node where the walk stops stands above a place of a list -/
def isOpenForest (stops : Node → Bool) (ns : List Node) : List Nat → Bool
  | [] => true
  | i :: path => (ns[i]?).all (·.isOpen stops path)

theorem isOpenForest_cons {stops : Node → Bool} {ns : List Node} {i : Nat} {c : Node} (h : ns[i]? = some c)
    (path : List Nat) : isOpenForest stops ns (i :: path) = c.isOpen stops path := by
  rw [isOpenForest, h, Option.all_some]

theorem map_snd_forestWalk_until_of {stops : Node → Bool} {ns : List Node}
    (h : ∀ c ∈ ns, (c.walk.filter fun e => c.isOpen stops e.1).map Prod.snd = c.preorderUntil stops) :
    ((forestWalk ns).filter fun e => isOpenForest stops ns e.1).map Prod.snd =
      ns.flatMap (Node.preorderUntil stops) := by
  conv_rhs => rw [← List.zipIdx_map_fst 0 ns, List.flatMap_map]
  rw [forestWalk, List.filter_flatMap, List.map_flatMap]
  refine List.flatMap_congr fun c hc => ?_
  have hget := List.mem_zipIdx_iff_getElem?.1 hc
  rw [← h c.1 (List.mem_of_getElem? hget), List.filter_map, List.map_map]
  simp only [Function.comp_def, isOpenForest_cons hget]

theorem Node.map_snd_walk_until (stops : Node → Bool) (n : Node) :
    (n.walk.filter fun e => n.isOpen stops e.1).map Prod.snd = n.preorderUntil stops := by
  induction n using Node.preorder.induct with
  | case1 n ih =>
    rw [walk_eq, preorderUntil_eq, List.filter_cons_of_pos rfl, List.map_cons]
    congr 1
    have hforest (e : List Nat × Node) (he : e ∈ forestWalk n.children) :
        n.isOpen stops e.1 = (!stops n && isOpenForest stops n.children e.1) := by
      obtain ⟨place, m⟩ := e
      cases place with
      | nil => exact absurd (mem_forestWalk.1 he) (by simp [forestAt?])
      | cons i path => rfl
    rw [List.filter_congr hforest]
    split
    · simp [*]
    · simp only [*, Bool.not_false, Bool.true_and]
      exact map_snd_forestWalk_until_of fun c hc => ih ⟨c, hc⟩

theorem map_snd_forestWalk_until (stops : Node → Bool) (ns : List Node) :
    ((forestWalk ns).filter fun e => isOpenForest stops ns e.1).map Prod.snd =
      ns.flatMap (Node.preorderUntil stops) :=
  map_snd_forestWalk_until_of fun c _ => c.map_snd_walk_until stops

theorem Node.isOpen_iff {stops : Node → Bool} {n : Node} {path : List Nat} : n.isOpen stops path = true ↔
    ∀ upper lower m, path = upper ++ lower → lower ≠ [] → n.at? upper = some m → stops m = false := by
  induction path generalizing n with
  | nil =>
    refine iff_of_true rfl fun upper lower m heq hlower _ => ?_
    exact absurd (List.append_eq_nil_iff.1 heq.symm).2 hlower
  | cons i path ih =>
    rw [isOpen, Bool.and_eq_true, Bool.not_eq_true', Option.all_eq_true]
    constructor
    · rintro ⟨hn, hbelow⟩ upper lower m heq hlower hm
      cases upper with
      | nil => exact Option.some.inj hm ▸ hn
      | cons j upper =>
        obtain ⟨rfl, hpath⟩ := List.cons.inj heq
        obtain ⟨c, hc, hm⟩ := Option.bind_eq_some_iff.1 hm
        exact ih.1 (hbelow c hc) upper lower m hpath hlower hm
    · intro h
      refine ⟨h [] (i :: path) n rfl (List.cons_ne_nil _ _) rfl, fun c hc => ih.2 fun upper lower m heq hlower hm => ?_⟩
      refine h (i :: upper) lower m (by rw [heq, List.cons_append]) hlower ?_
      rw [at?, hc, Option.bind_some, hm]

/-- a node where a walk stops stands above a place of a module -/
def Module.Below (m : Module) (stops : Node → Bool) (place : List Nat) : Prop :=
  ∃ upper lower n, place = upper ++ lower ∧ lower ≠ [] ∧ m.at? upper = some n ∧ stops n = true

theorem Module.isOpenForest_iff {m : Module} {stops : Node → Bool} {place : List Nat} :
    isOpenForest stops m.items place = true ↔ ¬m.Below stops place := by
  cases place with
  | nil =>
    refine iff_of_true rfl ?_
    rintro ⟨upper, lower, n, heq, hlower, -⟩
    exact hlower (List.append_eq_nil_iff.1 heq.symm).2
  | cons i path =>
    simp only [isOpenForest, Option.all_eq_true, Node.isOpen_iff]
    constructor
    · rintro h ⟨upper, lower, n, heq, hlower, hn, hstops⟩
      cases upper with
      | nil => cases hn
      | cons j upper =>
        obtain ⟨rfl, hpath⟩ := List.cons.inj heq
        obtain ⟨c, hc, hn⟩ := Option.bind_eq_some_iff.1 hn
        exact Bool.noConfusion (hstops.symm.trans (h c hc upper lower n hpath hlower hn))
    · intro h c hc upper lower n heq hlower hn
      refine Bool.eq_false_iff.2 fun hstops => h ⟨i :: upper, lower, n, by rw [heq, List.cons_append], hlower, ?_, hstops⟩
      exact (forestAt?_cons hc upper).trans hn

/-! ## Nodes of a module -/

/-- the nodes of a module are what stands at its places -/
theorem Module.mem_preorder_iff {m : Module} {n : Node} : n ∈ m.preorder ↔ ∃ place, m.at? place = some n := by
  rw [Module.preorder, ← map_snd_forestWalk, List.mem_map]
  simp only [Prod.exists, mem_forestWalk, exists_eq_right]
  rfl

end TsxWorkbench.Syntax
