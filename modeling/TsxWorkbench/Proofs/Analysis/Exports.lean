/-
Which exports of a module are components. An export stands for an expression or for a name of the module. A step leads
from a name to what the module declares under it, and from a call to its first argument; parentheses and type assertions
around an expression cost nothing, and neither does the way from an exported name to its own declaration. Where a
function is reached in at most `maxHops` steps the export is listed.

- `componentOf?_sound`, `componentOf?_complete`: the search finds a function exactly if one is reached in as many steps.
- `not_reaches_of_cycle`: definitions that lead back to themselves reach no function.
- `exports_reach_functions`: the listed exports are those that reach a function, in the order of the exports.
- `deeply_wrapped_export`: behind more than `walkDepth` parentheses in a row a function is not seen.
-/
import Mathlib.Logic.Relation
import TsxWorkbench.Analysis.Props
import TsxWorkbench.Proofs.Analysis.StaticText
import TsxWorkbench.Proofs.Syntax.Parser

namespace TsxWorkbench.Analysis

open Syntax Text

/-! ## Steps -/

/-- a function expression or the function of a declaration, and an arrow function -/
inductive IsFunction : Node → Prop
  | function (span : Span) (params : List Node) (body : Option Node) (types : List Node) :
      IsFunction (.function span params body types)
  | arrow (span : Span) (params : List Node) (body : Node) (types : List Node) :
      IsFunction (.arrow span params body types)

/-- what a module declares under a name at its top level, exported or not: a function, or the expression that a variable
starts with -/
inductive Declares (m : Module) : String → Node → Prop
  | function {item f : Node} {span : Span} {name : String} (hitem : item ∈ m.items)
      (h : declarationOf item = .functionDeclaration span name f) (hf : IsFunction f) : Declares m name f
  | initial {item initial : Node} {type : Option Node} {declarators : List Node} {span whole target : Span}
      {name : String} (hitem : item ∈ m.items) (h : declarationOf item = .variableList span declarators)
      (hd : .declarator whole (.binding target name type) (some initial) ∈ declarators) : Declares m name initial

/-- no name of a module has two declarations -/
def DeclaredOnce (m : Module) : Prop := ∀ name e e', Declares m name e → Declares m name e' → e = e'

/-- the first argument of a call -/
inductive FirstArgument : Node → Node → Prop
  | call (span : Span) (callee first : Node) (rest types : List Node) :
      FirstArgument (.call span callee (first :: rest) types) first
  | importCall (span : Span) (first : Node) (rest : List Node) : FirstArgument (.importCall span (first :: rest)) first

/-- one step of a search: from a name to its declaration, or from a call to its first argument unless that is spread -/
inductive Step (m : Module) : Node → Node → Prop
  | name {n e : Node} {span : Span} {name : String} (h : Wraps walkDepth n (.ident span name))
      (hname : Declares m name e) : Step m n e
  | argument {n call first : Node} (h : Wraps walkDepth n call) (hfirst : FirstArgument call first)
      (hplain : ∀ span inner, first ≠ .spread span inner) : Step m n first

/-- an expression leads to a function in so many steps -/
inductive Reaches (m : Module) : Nat → Node → Node → Prop
  | here {n f : Node} (h : Wraps walkDepth n f) (hf : IsFunction f) : Reaches m 0 n f
  | step {k : Nat} {n e f : Node} (h : Step m n e) (hrest : Reaches m k e f) : Reaches m (k + 1) n f

variable {m : Module} {n e f : Node} {name : String} {c : Component} {k most : Nat} {declared : Option Node}

theorem IsFunction.wrappers (h : IsFunction f) : f.wrappers = 0 := by
  cases h <;> rfl

theorem isFunction_iff : IsFunction f ↔ ∃ c, Component.ofFunction? f = some c := by
  constructor
  · rintro (_ | _) <;> exact ⟨_, rfl⟩
  · rintro ⟨c, h⟩
    unfold Component.ofFunction? at h
    split at h
    · exact .function ..
    · exact .arrow ..
    · cases h

theorem FirstArgument.wrappers {first : Node} (h : FirstArgument n first) : n.wrappers = 0 := by
  cases h <;> rfl

theorem firstArgument?_eq_some {first : Node} : firstArgument? n = some first ↔ FirstArgument n first := by
  constructor
  · intro h
    unfold firstArgument? at h
    split at h
    · cases h
      exact .call ..
    · cases h
      exact .importCall ..
    · cases h
  · rintro (_ | _) <;> rfl

/-! ## Names of a module -/

theorem functionNamed?_sound (h : (Locals.ofModule m).functionNamed? name = some c) :
    ∃ f, Declares m name f ∧ IsFunction f := by
  obtain ⟨⟨x, c'⟩, hfind, rfl⟩ := Option.map_eq_some_iff.1 h
  obtain rfl : x = name := by simpa using List.find?_some hfind
  obtain ⟨item, hitem, hx⟩ := List.mem_filterMap.1 (List.mem_reverse.1 (List.mem_of_find?_eq_some hfind))
  unfold localFunction? at hx
  split at hx
  · rename_i span x' f hdeclared
    obtain ⟨c'', hc, heq⟩ := Option.map_eq_some_iff.1 hx
    cases heq
    have hf := isFunction_iff.2 ⟨_, hc⟩
    exact ⟨f, .function hitem hdeclared hf, hf⟩
  · cases hx

theorem variableNamed?_sound {v : LocalVariable} (h : (Locals.ofModule m).variableNamed? name = some v) :
    Declares m name v.initial := by
  obtain ⟨⟨x, v'⟩, hfind, rfl⟩ := Option.map_eq_some_iff.1 h
  obtain rfl : x = name := by simpa using List.find?_some hfind
  obtain ⟨item, hitem, hx⟩ := List.mem_flatMap.1 (List.mem_reverse.1 (List.mem_of_find?_eq_some hfind))
  unfold localVariables at hx
  split at hx
  · rename_i span declarators hdeclared
    obtain ⟨d, hd, hlocal⟩ := List.mem_filterMap.1 hx
    unfold localVariable? at hlocal
    split at hlocal
    · cases hlocal
      exact .initial hitem hdeclared hd
    · cases hlocal
  · cases hx

theorem isSome_of_mem_find? {α : Type} {l : List (String × α)} {a : α} (h : (name, a) ∈ l) :
    ((l.find? (·.1 == name)).map (·.2)).isSome := by
  rw [Option.isSome_map, List.find?_isSome]
  exact ⟨_, h, beq_self_eq_true name⟩

/-- a declared name is found among the functions or among the variables -/
theorem isSome_named (h : Declares m name e) : ((Locals.ofModule m).functionNamed? name).isSome ∨
    ((Locals.ofModule m).variableNamed? name).isSome := by
  cases h with
  | @function item _ _ _ hitem hdeclared hf =>
    obtain ⟨c, hc⟩ := isFunction_iff.1 hf
    have hlocal : localFunction? item = some (name, c) := by simp [localFunction?, hdeclared, hc]
    exact .inl (isSome_of_mem_find? (List.mem_reverse.2 (List.mem_filterMap.2 ⟨item, hitem, hlocal⟩)))
  | @initial item _ type _ _ _ _ _ hitem hdeclared hd =>
    have hlocal : (name, ⟨e, type.bind declaredPropsType?⟩) ∈ localVariables item := by
      rw [localVariables, hdeclared]
      exact List.mem_filterMap.2 ⟨_, hd, rfl⟩
    exact .inr (isSome_of_mem_find? (List.mem_reverse.2 (List.mem_flatMap.2 ⟨item, hitem, hlocal⟩)))

/-! ## The search -/

theorem reaches_of_unwrap (h : Component.ofFunction? (unwrap n) = some c) : Reaches m 0 n (unwrap n) :=
  have hf := isFunction_iff.2 ⟨c, h⟩
  .here ((unwrap_eq_iff hf.wrappers).1 rfl) hf

theorem IsFunction.reaches (h : IsFunction f) : Reaches m 0 f f :=
  .here ⟨by rw [h.wrappers]; exact Nat.zero_le _, eq_bare_of_wrappers h.wrappers⟩ h

/-- **What the search finds is reached.** -/
theorem componentOf?_sound (h : componentOf? (Locals.ofModule m) most n declared = some c) :
    ∃ k ≤ most, ∃ f, Reaches m k n f := by
  induction most generalizing n declared with
  | zero =>
    rw [componentOf?.eq_def] at h
    dsimp only at h
    split at h
    · rename_i hn
      exact ⟨0, le_rfl, unwrap n, reaches_of_unwrap hn⟩
    · cases h
  | succ most ih =>
    rw [componentOf?.eq_def] at h
    dsimp only at h
    split at h
    · rename_i hn
      exact ⟨0, Nat.zero_le _, unwrap n, reaches_of_unwrap hn⟩
    · split at h
      · rename_i span name heq
        have hname : Wraps walkDepth n (.ident span name) := (unwrap_eq_iff rfl).1 heq
        split at h
        · rename_i hfunction
          obtain ⟨f, hdeclared, hf⟩ := functionNamed?_sound hfunction
          exact ⟨1, by omega, f, .step (.name hname hdeclared) hf.reaches⟩
        · obtain ⟨v, hv, hrest⟩ := Option.bind_eq_some_iff.1 h
          obtain ⟨k, hk, f, hreach⟩ := ih hrest
          exact ⟨k + 1, by omega, f, .step (.name hname (variableNamed?_sound hv)) hreach⟩
      · split at h
        · cases h
        · rename_i argument hplain hargument
          obtain ⟨k, hk, f, hreach⟩ := ih h
          have hfirst := firstArgument?_eq_some.1 hargument
          have hcall : Wraps walkDepth n (unwrap n) := (unwrap_eq_iff hfirst.wrappers).1 rfl
          have hother : ∀ span inner, argument ≠ .spread span inner := by
            rintro span inner rfl
            exact hplain span inner rfl
          exact ⟨k + 1, by omega, f, .step (.argument hcall hfirst hother) hreach⟩
        · cases h

/-- **What is reached is found.** -/
theorem componentOf?_complete (honce : DeclaredOnce m) (h : Reaches m k n f) (hk : k ≤ most) (declared : Option Node) :
    (componentOf? (Locals.ofModule m) most n declared).isSome := by
  induction h generalizing most declared with
  | @here n f h hf =>
    obtain ⟨c, hc⟩ := isFunction_iff.1 hf
    rw [componentOf?.eq_def]
    simp only [(unwrap_eq_iff hf.wrappers).2 h, hc, Option.isSome_some]
  | @step k n e f h hrest ih =>
    obtain ⟨most, rfl⟩ := Nat.exists_eq_add_one.2 (Nat.lt_of_lt_of_le k.succ_pos hk)
    have hnext (declared : Option Node) := ih (Nat.le_of_succ_le_succ hk) declared
    rw [componentOf?.eq_def]
    cases h with
    | @name _ span x h hx =>
      simp only [(unwrap_eq_iff rfl).2 h, Component.ofFunction?]
      cases hfunction : (Locals.ofModule m).functionNamed? x with
      | some c => rfl
      | none =>
        have hvariable : ((Locals.ofModule m).variableNamed? x).isSome :=
          (isSome_named hx).resolve_left (by rw [hfunction]; exact Bool.false_ne_true)
        obtain ⟨v, hv⟩ := Option.isSome_iff_exists.1 hvariable
        obtain rfl := honce x v.initial e (variableNamed?_sound hv) hx
        rw [hv]
        exact hnext v.declaredProps
    | argument h hfirst hplain =>
      have hcall := (unwrap_eq_iff hfirst.wrappers).2 h
      cases hfirst <;> simpa only [hcall, Component.ofFunction?, firstArgument?] using hnext declared

/-! ## Cycles -/

theorem Wraps.unique {most : Nat} {a b : Node} (ha : Wraps most n a) (hb : Wraps most n b) : a = b :=
  ha.2.symm.trans hb.2

theorem FirstArgument.unique {a b : Node} (ha : FirstArgument n a) (hb : FirstArgument n b) : a = b := by
  cases ha <;> cases hb <;> rfl

/-- a step leads to one place only -/
theorem Step.unique (honce : DeclaredOnce m) {a b : Node} (ha : Step m n a) (hb : Step m n b) : a = b := by
  cases ha with
  | name ha hx =>
    cases hb with
    | name hb hy =>
      cases ha.unique hb
      exact honce _ _ _ hx hy
    | argument hb hfirst =>
      cases ha.unique hb
      cases hfirst
  | argument ha hfirst =>
    cases hb with
    | name hb =>
      cases ha.unique hb
      cases hfirst
    | argument hb hfirst' =>
      cases ha.unique hb
      exact hfirst.unique hfirst'

/-- no step leads on from a function -/
theorem not_step_of_function (h : Wraps walkDepth n f) (hf : IsFunction f) : ¬ Step m n e := by
  rintro (⟨h', -⟩ | ⟨h', hfirst, -⟩)
  · cases h.unique h'
    cases hf
  · cases h.unique h'
    cases hfirst <;> cases hf

/-- **Cycles.** Definitions that lead back to themselves reach no function. -/
theorem not_reaches_of_cycle (honce : DeclaredOnce m) (h : Relation.TransGen (Step m) e e) (k : Nat) (f : Node) :
    ¬ Reaches m k e f := by
  induction k generalizing e with
  | zero =>
    rintro (⟨hwraps, hf⟩)
    obtain ⟨next, hstep, -⟩ := Relation.TransGen.head'_iff.1 h
    exact not_step_of_function hwraps hf hstep
  | succ k ih =>
    intro hreach
    cases hreach with
    | @step _ _ next _ hstep hrest =>
      -- the next expression stands on the cycle, too
      obtain ⟨next', hstep', hback⟩ := Relation.TransGen.head'_iff.1 h
      obtain rfl := hstep.unique honce hstep'
      exact ih (Relation.TransGen.tail' hback hstep) hrest

/-! ## Exports -/

/-- what an export stands for: a function that is declared with it, an expression, or a name of the module -/
inductive Origin where
  | function (f : Node)
  | value (n : Node)
  | name (local_ : String)

/-- an exported variable, if the pattern of its declaration is a name -/
def variableOrigin? : Node → Option (String × Origin)
  | .declarator _ (.binding _ name _) _ => some (name, .name name)
  | _ => none

/-- an entry of an export list; one of a type only does not count -/
def entryOrigin? : Node → Option (String × Origin)
  | .exportName _ (some local_) exported false => some (exported, .name local_)
  | _ => none

/-- names that an item exports from the module itself, with what they stand for. A list of types and what is exported
from another module do not count -/
def exportOrigins : Node → List (String × Origin)
  | .exportDefaultDeclaration _ (.function span params body types) =>
    [(defaultName, .function (.function span params body types))]
  | .exportDefaultExpression _ inner => [(defaultName, .value inner)]
  | .exportDeclaration _ (.functionDeclaration _ name f) => [(name, .function f)]
  | .exportDeclaration _ (.variableList _ declarators) => declarators.filterMap variableOrigin?
  | .exportNames _ names none _ false => names.filterMap entryOrigin?
  | _ => []

/-- a function is reached in at most `maxHops` steps. The way from a name to its own declaration costs nothing -/
def LeadsToFunction (m : Module) : Origin → Prop
  | .function f => IsFunction f
  | .value n => ∃ k ≤ maxHops, ∃ f, Reaches m k n f
  | .name x => ∃ e, Declares m x e ∧ ∃ k ≤ maxHops, ∃ f, Reaches m k e f

theorem isSome_ofFunction?_iff : (Component.ofFunction? f).isSome ↔ LeadsToFunction m (.function f) := by
  rw [Option.isSome_iff_exists, ← isFunction_iff]
  rfl

theorem isSome_componentOf?_iff (honce : DeclaredOnce m) (declared : Option Node) :
    (componentOf? (Locals.ofModule m) maxHops n declared).isSome ↔ LeadsToFunction m (.value n) := by
  constructor
  · intro h
    obtain ⟨c, hc⟩ := Option.isSome_iff_exists.1 h
    exact componentOf?_sound hc
  · rintro ⟨k, hk, f, hreach⟩
    exact componentOf?_complete honce hreach hk declared

theorem isSome_componentNamed?_iff (honce : DeclaredOnce m) :
    (componentNamed? (Locals.ofModule m) name).isSome ↔ LeadsToFunction m (.name name) := by
  unfold componentNamed?
  constructor
  · intro h
    split at h
    · rename_i hfunction
      obtain ⟨f, hdeclared, hf⟩ := functionNamed?_sound hfunction
      exact ⟨f, hdeclared, 0, Nat.zero_le _, f, hf.reaches⟩
    · obtain ⟨c, hc⟩ := Option.isSome_iff_exists.1 h
      obtain ⟨v, hv, hrest⟩ := Option.bind_eq_some_iff.1 hc
      exact ⟨v.initial, variableNamed?_sound hv, componentOf?_sound hrest⟩
  · rintro ⟨e, hdeclared, k, hk, f, hreach⟩
    split
    · rfl
    · rename_i hfunction
      have hvariable : ((Locals.ofModule m).variableNamed? name).isSome :=
        (isSome_named hdeclared).resolve_left (by rw [hfunction]; exact Bool.false_ne_true)
      obtain ⟨v, hv⟩ := Option.isSome_iff_exists.1 hvariable
      obtain rfl := honce name v.initial e (variableNamed?_sound hv) hdeclared
      rw [hv]
      exact componentOf?_complete honce hreach hk v.declaredProps

section

open Classical

/-- a name is kept exactly if its component is found -/
theorem map_fst_found {found : Option Component} {x : String} {origin : Origin}
    (h : found.isSome ↔ LeadsToFunction m origin) : (found.map fun c => (x, c)).map Prod.fst =
      (Option.filter (fun e => LeadsToFunction m e.2) (some (x, origin))).map Prod.fst := by
  cases found with
  | none => simp [Option.filter_some_neg, ← h]
  | some c => simp [Option.filter_some_pos, ← h]

theorem map_fst_toList {found : Option Component} {x : String} {origin : Origin}
    (h : found.isSome ↔ LeadsToFunction m origin) : (found.map fun c => (x, c)).toList.map Prod.fst =
      ([(x, origin)].filter fun e => LeadsToFunction m e.2).map Prod.fst := by
  cases found with
  | none => simp [← h]
  | some c => simp [← h]

theorem map_fst_filterMap {ns : List Node} {found : Node → Option (String × Component)}
    {origin? : Node → Option (String × Origin)} (h : ∀ n, (found n).map Prod.fst =
      ((origin? n).filter fun e => LeadsToFunction m e.2).map Prod.fst) :
    (ns.filterMap found).map Prod.fst =
      ((ns.filterMap origin?).filter fun e => LeadsToFunction m e.2).map Prod.fst := by
  rw [List.map_filterMap, List.filter_filterMap, List.map_filterMap]
  exact List.filterMap_congr fun n _ => h n

/-- an item lists what it exports as far as that leads to a function -/
theorem map_fst_exportsOf (honce : DeclaredOnce m) (item : Node) :
    (exportsOf (Locals.ofModule m) item).map Prod.fst =
      ((exportOrigins item).filter fun e => LeadsToFunction m e.2).map Prod.fst := by
  fun_cases exportOrigins item with
  | case1 span whole params body types =>
    have hfunction : (Component.ofFunction? (.function whole params body types)).isSome ↔
        LeadsToFunction m (.function (.function whole params body types)) := isSome_ofFunction?_iff
    exact map_fst_toList hfunction
  | case2 => exact map_fst_toList (isSome_componentOf?_iff honce none)
  | case3 => exact map_fst_toList isSome_ofFunction?_iff
  | case4 span whole declarators =>
    refine map_fst_filterMap fun n => ?_
    fun_cases variableOrigin? n with
    | case1 => exact map_fst_found (isSome_componentNamed?_iff honce)
    | case2 n hother =>
      unfold exportedVariable
      split
      · exact absurd rfl (hother _ _ _ _ _)
      · rfl
  | case5 span names options =>
    refine map_fst_filterMap fun n => ?_
    fun_cases entryOrigin? n with
    | case1 => exact map_fst_found (isSome_componentNamed?_iff honce)
    | case2 n hother =>
      unfold exportedName
      split
      · exact absurd rfl (hother _ _ _)
      · rfl
  | case6 item hdefault hexpression hfunction hvariables hnames =>
    unfold exportsOf
    split
    · split
      · exact (hdefault _ _ _ _ _ rfl).elim
      · rfl
    · exact (hexpression _ _ rfl).elim
    · split
      · exact (hfunction _ _ _ _ rfl).elim
      · exact (hvariables _ _ _ rfl).elim
      · rfl
    · exact (hnames _ _ _ rfl).elim
    · rfl

/-- **Exports.** A module of names that are declared once lists the exports that lead to a function, in their order, and
no others. Definitions that lead back to themselves lead to no function. -/
theorem exports_reach_functions (honce : DeclaredOnce m) :
    (Props.ofModule m).exports.map (·.name) =
      ((m.items.flatMap exportOrigins).filter fun e => LeadsToFunction m e.2).map Prod.fst ∧
    ∀ e, Relation.TransGen (Step m) e e → ∀ k f, ¬ Reaches m k e f := by
  refine ⟨?_, fun e he k f => not_reaches_of_cycle honce he k f⟩
  have hnames : (Props.ofModule m).exports.map (·.name) = (exportedComponents m).map Prod.fst := by
    rw [Props.ofModule, List.map_map]
    rfl
  rw [hnames, exportedComponents, List.map_flatMap, List.filter_flatMap, List.map_flatMap]
  exact List.flatMap_congr fun item _ => map_fst_exportsOf honce item

/-- a module that exports a memoised function by default, and a variable that is defined by itself -/
def memoModule : Module := ⟨[
  .functionDeclaration ⟨0, 20⟩ "Inner" (.function ⟨0, 20⟩ [] none []),
  .exportDefaultExpression ⟨21, 50⟩ (.call ⟨36, 49⟩ (.ident ⟨36, 40⟩ "memo") [.ident ⟨41, 46⟩ "Inner"] []),
  .exportDeclaration ⟨51, 80⟩ (.variableList ⟨58, 79⟩
    [.declarator ⟨64, 78⟩ (.binding ⟨64, 68⟩ "Loop" none) (some (.ident ⟨71, 75⟩ "Loop"))])]⟩

theorem declares_memoModule (h : Declares memoModule name e) :
    name = "Inner" ∧ e = .function ⟨0, 20⟩ [] none [] ∨ name = "Loop" ∧ e = .ident ⟨71, 75⟩ "Loop" := by
  cases h with
  | function hitem hdeclared hf =>
    simp only [memoModule, List.mem_cons, List.not_mem_nil, or_false] at hitem
    rcases hitem with rfl | rfl | rfl <;> cases hdeclared
    exact .inl ⟨rfl, rfl⟩
  | initial hitem hdeclared hd =>
    simp only [memoModule, List.mem_cons, List.not_mem_nil, or_false] at hitem
    rcases hitem with rfl | rfl | rfl <;> cases hdeclared
    cases List.mem_singleton.1 hd
    exact .inr ⟨rfl, rfl⟩

theorem declaredOnce_memoModule : DeclaredOnce memoModule := by
  intro x e e' h h'
  rcases declares_memoModule h with ⟨rfl, rfl⟩ | ⟨rfl, rfl⟩ <;>
    rcases declares_memoModule h' with ⟨hx, rfl⟩ | ⟨hx, rfl⟩
  · rfl
  · exact absurd hx (by decide)
  · exact absurd hx (by decide)
  · rfl

/-- the memoised function is listed, and the variable that is defined by itself reaches none -/
theorem exports_reach_functions_memo : DeclaredOnce memoModule ∧
    ["default"] =
      ((memoModule.items.flatMap exportOrigins).filter fun e => LeadsToFunction memoModule e.2).map Prod.fst ∧
    ∀ k f, ¬ Reaches memoModule k (.ident ⟨71, 75⟩ "Loop") f := by
  obtain ⟨hlisted, hcycle⟩ := exports_reach_functions declaredOnce_memoModule
  have hloop : Step memoModule (.ident ⟨71, 75⟩ "Loop") (.ident ⟨71, 75⟩ "Loop") :=
    .name ⟨Nat.zero_le _, rfl⟩ (.initial (.tail _ (.tail _ (.head _))) rfl (.head _))
  exact ⟨declaredOnce_memoModule, hlisted, hcycle _ (.single hloop)⟩

end

/-! ## Wrappers in a row -/

/-- an arrow function in 65 parentheses, exported by default -/
def deepExport : List Char :=
  "export default ".toList ++ List.replicate 65 '(' ++ "() => null".toList ++ List.replicate 65 ')'

/-- a module of one item, a default export that is a function with something around it, which lists no export -/
def hidesFunction (m : Module) : Bool :=
  match m.items with
  | [.exportDefaultExpression _ e] => (Component.ofFunction? e.bare).isSome && (Props.ofModule m).exports.isEmpty
  | _ => false

/-- **Wrappers in a row.** They cost no step, but no more than `walkDepth` of them are taken off. -/
theorem deeply_wrapped_export : ∃ m, parseModule deepExport = .ok m ∧ DeclaredOnce m ∧
    (∃ span e, m.items = [.exportDefaultExpression span e] ∧ IsFunction e.bare) ∧ (Props.ofModule m).exports = [] := by
  have hany : (parseModule deepExport).toOption.any hidesFunction = true := by
    decide +kernel
  obtain ⟨m, hm, hhides⟩ := exists_of_toOption_any hany
  unfold hidesFunction at hhides
  split at hhides
  · rename_i span e hitems
    rw [Bool.and_eq_true, List.isEmpty_iff] at hhides
    refine ⟨m, hm, ?_, ⟨span, e, hitems, isFunction_iff.2 (Option.isSome_iff_exists.1 hhides.1)⟩, hhides.2⟩
    rintro name e e' (⟨hitem, hdeclared, -⟩ | ⟨hitem, hdeclared, -⟩) -
    all_goals
      rw [hitems, List.mem_singleton] at hitem
      subst hitem
      cases hdeclared
  · cases hhides

end TsxWorkbench.Analysis
