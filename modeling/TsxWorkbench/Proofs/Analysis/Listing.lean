/-
What the index of a module lists, whatever its depth. The elements and fragments around a place are those on the way to
it (`jsxAround`), so how deep a place stands is read off the module, and not off a walk.

`Lists` ties a list of nodes to places: they are all those where an element or fragment stands not too deep, in the
order of the tree, and the nodes stand there. `jsxWithin` lists the elements and fragments at and below a node, by
induction on the tree (`exists_lists_jsxWithin`); the lists of the parts of a node make up one list
(`exists_lists_flatMap`), and a node that is listed itself comes before them (`Lists.root`).

- `ofModule_lists`: the entries of the index stand for the elements and fragments with at most `maxJsxDepth` others
  around them, each for one, after all those around it, with its range, its kind and its name.
-/
import Mathlib.Data.List.Infix
import Mathlib.Data.List.Forall2
import TsxWorkbench.Proofs.Analysis.Inspection
import TsxWorkbench.Proofs.Syntax.Place

namespace TsxWorkbench.Analysis

open Text Syntax

/-- number of elements and fragments on the way to a place, without the one that stands there -/
def jsxAround (node? : List Nat → Option Node) (place : List Nat) : Nat :=
  (List.range place.length).countP fun k => (node? (place.take k)).any isJsx

theorem jsxAround_cons (node? : List Nat → Option Node) (i : Nat) (path : List Nat) :
    jsxAround node? (i :: path) =
      jsxAround (fun q => node? (i :: q)) path + if (node? []).any isJsx then 1 else 0 := by
  rw [jsxAround, List.length_cons, List.range_succ_eq_map, List.countP_cons, List.countP_map]
  rfl

/-- on the way to a place there are no more of them than on a way that goes on from there -/
theorem jsxAround_le_append (node? : List Nat → Option Node) (place rest : List Nat) :
    jsxAround node? place ≤ jsxAround node? (place ++ rest) := by
  rw [jsxAround, jsxAround, List.length_append, List.range_add, List.countP_append]
  refine Nat.le_add_right_of_le (le_of_eq (List.countP_congr fun k hk => ?_))
  rw [List.take_append_of_le_length (List.mem_range.1 hk).le]

/-- an element or a fragment stands at a place, with no more than so many around it -/
def JsxAt (node? : List Nat → Option Node) (depth : Nat) (place : List Nat) : Prop :=
  (∃ n, node? place = some n ∧ isJsx n = true) ∧ jsxAround node? place ≤ depth

section

variable {depth i : Nat} {path : List Nat} {ns : List Node} {c n : Node}

theorem jsxAt_forest_cons (h : ns[i]? = some c) :
    JsxAt (forestAt? ns) depth (i :: path) ↔ JsxAt c.at? depth path := by
  simp only [JsxAt, jsxAround_cons, forestAt?_cons h]
  rfl

/-- a place in a list is a place in one of its entries -/
theorem jsxAt_forest_iff {place : List Nat} : JsxAt (forestAt? ns) depth place ↔
    ∃ i path c, place = i :: path ∧ ns[i]? = some c ∧ JsxAt c.at? depth path := by
  refine ⟨fun h => ?_, ?_⟩
  · obtain ⟨n, hn, -⟩ := h.1
    cases place with
    | nil => cases hn
    | cons i path =>
      obtain ⟨c, hc, -⟩ := Option.bind_eq_some_iff.1 hn
      exact ⟨i, path, c, rfl, hc, (jsxAt_forest_cons hc).1 h⟩
  · rintro ⟨i, path, c, rfl, hc, h⟩
    exact (jsxAt_forest_cons hc).2 h

theorem jsxAround_at_cons (n : Node) (i : Nat) (path : List Nat) :
    jsxAround n.at? (i :: path) = jsxAround (forestAt? n.children) (i :: path) + if isJsx n then 1 else 0 := by
  rw [jsxAround_cons, jsxAround_cons]
  rfl

theorem jsxAt_self : JsxAt n.at? depth [] ↔ isJsx n = true := by
  simp [JsxAt, jsxAround, Node.at?]

/-- below a node that is listed itself there is one level less -/
theorem jsxAt_below (hn : isJsx n = true) :
    JsxAt n.at? depth (i :: path) ↔ ∃ k, depth = k + 1 ∧ JsxAt (forestAt? n.children) k (i :: path) := by
  rw [JsxAt, jsxAround_at_cons, if_pos hn]
  constructor
  · rintro ⟨hnode, hle⟩
    exact ⟨depth - 1, by omega, hnode, by omega⟩
  · rintro ⟨k, rfl, hnode, hle⟩
    exact ⟨hnode, Nat.succ_le_succ hle⟩

theorem jsxAt_through (hn : ¬isJsx n = true) :
    JsxAt n.at? depth (i :: path) ↔ JsxAt (forestAt? n.children) depth (i :: path) := by
  rw [JsxAt, jsxAround_at_cons, if_neg hn]
  rfl

end

/-! ## Lists of nodes -/

/-- nodes that stand, in the order of the tree, at the places where elements and fragments stand that have no more than
so many around them -/
structure Lists (node? : List Nat → Option Node) (depth : Nat) (places : List (List Nat)) (nodes : List Node) :
    Prop where
  sorted : places.Pairwise (· < ·)
  mem_iff : ∀ place, place ∈ places ↔ JsxAt node? depth place
  stands : List.Forall₂ (fun place n => node? place = some n) places nodes

theorem Lists.stands_jsx {node? : List Nat → Option Node} {depth : Nat} {places : List (List Nat)} {nodes : List Node}
    (h : Lists node? depth places nodes) :
    List.Forall₂ (fun place n => node? place = some n ∧ isJsx n = true) places nodes := by
  have hjsx : ∀ place ∈ places, ∃ n, node? place = some n ∧ isJsx n = true :=
    fun place hplace => ((h.mem_iff place).1 hplace).1
  refine ((List.forall₂_and_left places nodes).2 ⟨hjsx, h.stands⟩).imp fun place n ⟨⟨n', hn', hjsx⟩, hn⟩ => ?_
  obtain rfl : n = n' := Option.some.inj (hn.symm.trans hn')
  exact ⟨hn, hjsx⟩

theorem Lists.forest_nil {depth : Nat} : Lists (forestAt? []) depth [] [] :=
  ⟨.nil, fun place => by simp [jsxAt_forest_iff], .nil⟩

/-- an entry of a longer list is one of the list, or the last one -/
theorem getElem?_concat_eq_some {ns : List Node} {c d : Node} {i : Nat} :
    (ns ++ [c])[i]? = some d ↔ ns[i]? = some d ∨ i = ns.length ∧ c = d := by
  rcases lt_trichotomy i ns.length with h | rfl | h
  · simp [List.getElem?_append_left h, h.ne]
  · simp
  · simp [List.getElem?_append_right h.le, h.le, h.ne', Nat.sub_ne_zero_of_lt h]

/-- what is listed of one more entry of a list comes after the rest -/
theorem Lists.concat {depth : Nat} {ns : List Node} {c : Node} {ps qs : List (List Nat)} {above below : List Node}
    (hns : Lists (forestAt? ns) depth ps above) (hc : Lists c.at? depth qs below) :
    Lists (forestAt? (ns ++ [c])) depth (ps ++ qs.map (ns.length :: ·)) (above ++ below) := by
  have hlast : (ns ++ [c])[ns.length]? = some c := getElem?_concat_eq_some.2 (.inr ⟨rfl, rfl⟩)
  refine ⟨List.pairwise_append.2 ⟨hns.sorted, ?_, fun p hp q hq => ?_⟩, fun place => ?_, List.rel_append ?_ ?_⟩
  · exact List.pairwise_map.2 (hc.sorted.imp fun h => List.cons_lt_cons_iff.2 (.inr ⟨rfl, h⟩))
  · obtain ⟨i, path, d, rfl, hd, -⟩ := jsxAt_forest_iff.1 ((hns.mem_iff p).1 hp)
    obtain ⟨q, -, rfl⟩ := List.mem_map.1 hq
    exact List.cons_lt_cons_iff.2 (.inl (List.getElem?_eq_some_iff.1 hd).1)
  · rw [List.mem_append, List.mem_map, hns.mem_iff, jsxAt_forest_iff, jsxAt_forest_iff]
    constructor
    · rintro (⟨i, path, d, rfl, hd, h⟩ | ⟨q, hq, rfl⟩)
      · exact ⟨i, path, d, rfl, getElem?_concat_eq_some.2 (.inl hd), h⟩
      · exact ⟨ns.length, q, c, rfl, hlast, (hc.mem_iff q).1 hq⟩
    · rintro ⟨i, path, d, rfl, hd, h⟩
      rcases getElem?_concat_eq_some.1 hd with hd | ⟨rfl, rfl⟩
      · exact .inl ⟨i, path, d, rfl, hd, h⟩
      · exact .inr ⟨path, (hc.mem_iff path).2 h, rfl⟩
  · refine hns.stands.imp fun place n hn => ?_
    cases place with
    | nil => cases hn
    | cons i path =>
      obtain ⟨d, hd, hn⟩ := Option.bind_eq_some_iff.1 hn
      rwa [forestAt?_cons (getElem?_concat_eq_some.2 (.inl hd))]
  · exact List.forall₂_map_left_iff.2 (hc.stands.imp fun q n hn => (forestAt?_cons hlast q).trans hn)

/-- what is listed of the entries of a list, one after the other -/
theorem exists_lists_flatMap {depth : Nat} {list : Node → List Node} (ns : List Node)
    (h : ∀ c ∈ ns, ∃ places, Lists c.at? depth places (list c)) :
    ∃ places, Lists (forestAt? ns) depth places (ns.flatMap list) := by
  induction ns using List.reverseRecOn with
  | nil => exact ⟨[], .forest_nil⟩
  | append_singleton ns c ih =>
    obtain ⟨ps, hps⟩ := ih fun d hd => h d (List.mem_append_left _ hd)
    obtain ⟨qs, hqs⟩ := h c (List.mem_append_right _ (List.mem_singleton_self c))
    exact ⟨_, by simpa only [List.flatMap_append, List.flatMap_singleton] using hps.concat hqs⟩

theorem not_jsxAt_forest_nil {ns : List Node} {depth : Nat} : ¬JsxAt (forestAt? ns) depth [] := by
  rintro ⟨⟨n, hn, -⟩, -⟩
  cases hn

/-- no place below a listed node stands too deep if the node is as deep as they may be -/
theorem Lists.alone {n : Node} (hn : isJsx n = true) : Lists n.at? 0 [[]] [n] := by
  refine ⟨List.pairwise_singleton _ _, fun place => ?_, .cons rfl .nil⟩
  cases place with
  | nil => simp [jsxAt_self, hn]
  | cons i path => simp [jsxAt_below hn]

/-- a listed node comes before what is listed below it, with one level less -/
theorem Lists.root {n : Node} {depth : Nat} {places : List (List Nat)} {nodes : List Node} (hn : isJsx n = true)
    (h : Lists (forestAt? n.children) depth places nodes) :
    Lists n.at? (depth + 1) ([] :: places) (n :: nodes) := by
  refine ⟨List.pairwise_cons.2 ⟨fun place hplace => ?_, h.sorted⟩, fun place => ?_, .cons rfl ?_⟩
  · cases place with
    | nil => exact absurd ((h.mem_iff []).1 hplace) not_jsxAt_forest_nil
    | cons i path => exact List.nil_lt_cons i path
  · cases place with
    | nil => simp [jsxAt_self, hn]
    | cons i path => simp [jsxAt_below hn, h.mem_iff]
  · exact h.stands.imp fun _ _ => Node.at?_of_forest

/-- a node that is not listed passes on what is listed below it -/
theorem Lists.through {n : Node} {depth : Nat} {places : List (List Nat)} {nodes : List Node} (hn : ¬isJsx n = true)
    (h : Lists (forestAt? n.children) depth places nodes) : Lists n.at? depth places nodes := by
  refine ⟨h.sorted, fun place => ?_, h.stands.imp fun _ _ => Node.at?_of_forest⟩
  rw [h.mem_iff]
  cases place with
  | nil => simp [not_jsxAt_forest_nil, jsxAt_self, hn]
  | cons i path => exact (jsxAt_through hn).symm

theorem exists_lists_jsxWithin (depth : Nat) (n : Node) : ∃ places, Lists n.at? depth places (jsxWithin depth n) := by
  induction n using Node.preorder.induct generalizing depth with
  | case1 n ih =>
    have hparts (k : Nat) : ∃ places, Lists (forestAt? n.children) k places (n.children.flatMap (jsxWithin k)) :=
      exists_lists_flatMap n.children fun c hc => ih ⟨c, hc⟩ k
    rw [jsxWithin_eq]
    split_ifs with hn
    · cases depth with
      | zero => exact ⟨_, .alone hn⟩
      | succ k =>
        obtain ⟨places, h⟩ := hparts k
        exact ⟨_, h.root hn⟩
    · obtain ⟨places, h⟩ := hparts depth
      exact ⟨places, h.through hn⟩

/-! ## The index -/

/-- the name that an entry gives a node, which also tells its kind: none for a fragment, and for an element the name of
its tag as it is written, with its dots or its colon -/
inductive Named : Node → Option String → Prop
  | fragment {span : Span} {children : List Node} : Named (.fragment span children) none
  | plain {span : Span} {name : String} {opening : TagSpans} {closing : Option Span}
      {attributes types children : List Node} :
      Named (.element span (.plain name) opening closing attributes types children) (some name)
  | dotted {span : Span} {path : String} {opening : TagSpans} {closing : Option Span}
      {attributes types children : List Node} :
      Named (.element span (.dotted path) opening closing attributes types children) (some path)
  | namespaced {span : Span} {space name : String} {opening : TagSpans} {closing : Option Span}
      {attributes types children : List Node} :
      Named (.element span (.namespaced space name) opening closing attributes types children)
        (some (space ++ ":" ++ name))

theorem named_jsxName? {n : Node} (h : isJsx n = true) : Named n (jsxName? n) := by
  cases n with
  | element span tag => cases tag <;> constructor
  | fragment => constructor
  | _ => cases h

theorem mem_jsxOf_of_at? {m : Module} {place : List Nat} {n : Node} (h : m.at? place = some n) (hjsx : isJsx n = true) :
    n ∈ jsxOf m := List.mem_filter.2 ⟨mem_of_forestAt? h, hjsx⟩

/-- only elements and fragments of the module are listed -/
theorem mem_jsxOf_of_mem_jsxWithin {m : Module} {depth : Nat} {n : Node} (h : n ∈ m.items.flatMap (jsxWithin depth)) :
    n ∈ jsxOf m := by
  obtain ⟨places, hlists⟩ := exists_lists_flatMap m.items fun c _ => exists_lists_jsxWithin depth c
  have hmem : List.Forall₂ (fun n place => n ∈ jsxOf m ∧ m.at? place = some n) _ places :=
    hlists.stands_jsx.flip.imp fun _ _ ⟨hn, hjsx⟩ => ⟨mem_jsxOf_of_at? hn hjsx, hn⟩
  exact ((List.forall₂_and_left _ _).1 hmem).1 n h

/-- an entry is about the node at a place: it has the range of the node, as far as that lies in the source, and its
name. The ranges of a module that was read lie in the source -/
structure Entry (source : List Char) (m : Module) (place : List Nat) (e : InspectElement) (n : Node) : Prop where
  stands : m.at? place = some n
  range : e.range = rangeOf source (n.span.clamp (byteLen source))
  range_of_read : parseModule source = .ok m → e.range = rangeOf source n.span
  named : Named n e.name

/-- the entries of an index stand for places of a module, each for one: for all those where an element or a fragment
stands with at most `maxJsxDepth` others around it, and for nothing else. Before each place come all those around it -/
structure Listing (source : List Char) (m : Module) (places : List (List Nat)) (index : InspectIndex) : Prop where
  mem_iff : ∀ place, place ∈ places ↔
    (∃ n, m.at? place = some n ∧ isJsx n = true) ∧ jsxAround m.at? place ≤ maxJsxDepth
  nodup : places.Nodup
  outer_first : ∀ before place after, places = before ++ place :: after → ∀ outer, outer <+: place → outer ≠ place →
    (∃ n, m.at? outer = some n ∧ isJsx n = true) → outer ∈ before
  entries : List.Forall₂ (fun place e => ∃ n, Entry source m place e n) places index

theorem ofModule_lists (source : List Char) (limit : Nat) (m : Module) :
    ∃ places, Listing source m places (InspectIndex.ofModule source limit m) := by
  obtain ⟨places, h⟩ := exists_lists_flatMap m.items fun c _ => exists_lists_jsxWithin maxJsxDepth c
  refine ⟨places, h.mem_iff, h.sorted.imp ne_of_lt, ?_, ?_⟩
  · rintro before _ after rfl outer ⟨rest, rfl⟩ hne hjsx
    have hjsx : JsxAt m.at? maxJsxDepth outer :=
      ⟨hjsx, (jsxAround_le_append _ outer rest).trans ((h.mem_iff _).1 List.mem_append_cons_self).2⟩
    have hlt : outer < outer ++ rest := by
      cases rest with
      | nil => exact absurd (List.append_nil outer).symm hne
      | cons i rest =>
        have happend : outer ++ [] < outer ++ i :: rest := List.append_left_lt (List.nil_lt_cons i rest)
        rwa [List.append_nil] at happend
    rcases List.mem_append.1 ((h.mem_iff outer).2 hjsx) with hbefore | hafter
    · exact hbefore
    · rcases List.mem_cons.1 hafter with heq | hafter
      · exact absurd heq hlt.ne
      -- a place that comes later is greater, and this one is less
      · have hsorted := (List.pairwise_append.1 h.sorted).2.1
        exact absurd ((List.pairwise_cons.1 hsorted).1 outer hafter) hlt.asymm
  · refine List.forall₂_map_right_iff.2 (h.stands_jsx.imp fun place n ⟨hn, hjsx⟩ => ?_)
    exact ⟨n, hn, rfl, fun hm => range_ofNode hm (mem_jsxOf_of_at? hn hjsx) limit, named_jsxName? hjsx⟩

end TsxWorkbench.Analysis
