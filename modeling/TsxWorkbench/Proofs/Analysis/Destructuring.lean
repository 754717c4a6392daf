/-
Keys that a component takes out of a parameter that is a name. They are the keys of the object patterns that stand
against this name anywhere in the body; parentheses and type assertions around the name count for nothing, as far as
`walkDepth` of them in a row. Names are compared, and not what they are bound to: as long as the body does not bind the
name again, each of these names is the parameter.

- `destructured?_eq_some`: which declarators count.
- `destructured_keys`: the keys of a component, place by place in the order of the body.
- `keys_beyond_parameter`: a block that binds the name again has a say, too, and a name behind too many parentheses does
  not.
-/
import TsxWorkbench.Analysis.Props
import TsxWorkbench.Proofs.Analysis.StaticText
import TsxWorkbench.Proofs.Syntax.Parser
import TsxWorkbench.Proofs.Syntax.Place

namespace TsxWorkbench.Analysis

open Syntax Text

/-! ## Patterns -/

/-- key of an entry of an object pattern, if the source shows it. What gathers the rest has no key -/
def keyOf? : Node → Option String
  | .shorthandPattern _ name _ => some name
  | .keyValue _ key _ => staticKey? key
  | _ => none

/-- a declarator takes the entries of an object pattern out of a name; a type may be written on the pattern -/
inductive TakesFrom (name : String) : Node → List Node → Option Node → Prop
  | intro {whole pattern word : Span} {entries : List Node} {type : Option Node} {initial : Node}
      (h : Wraps walkDepth initial (.ident word name)) :
      TakesFrom name (.declarator whole (.objectPattern pattern entries type) (some initial)) entries type

variable {name : String} {n body : Node} {entries : List Node} {type : Option Node} {c : Component} {scope : TypeScope}

theorem destructured?_eq_some : destructured? name n = some (entries, type) ↔ TakesFrom name n entries type := by
  constructor
  · intro h
    unfold destructured? at h
    split at h
    · split at h
      · rename_i heq
        split_ifs at h with hname
        subst hname
        cases h
        exact .intro ((unwrap_eq_iff rfl).1 heq)
      · cases h
    · cases h
  · rintro ⟨h⟩
    rw [destructured?, (unwrap_eq_iff rfl).2 h]
    exact if_pos rfl

theorem map_fst_keyAndDefault? (n : Node) : (keyAndDefault? n).map Prod.fst = keyOf? n := by
  fun_cases keyAndDefault? n with
  | case1 => rfl
  | case2 => exact (Option.map_map _ _ _).trans Option.map_id'
  | case3 => exact (Option.map_map _ _ _).trans Option.map_id'
  | case4 n hshorthand _ hkey =>
    unfold keyOf?
    split
    · exact (hshorthand _ _ _ rfl).elim
    · exact (hkey _ _ _ rfl).elim
    · rfl

theorem key_entryOf (scope : TypeScope) (members : List TypeMember) (key : String) (default : Option Json) :
    (entryOf scope members key default).key = key := by
  unfold entryOf
  split <;> rfl

/-- the keys of a pattern do not depend on its type -/
theorem map_key_patternEntries (scope : TypeScope) (entries : List Node) (type : Option Node) :
    (patternEntries scope entries type).map (·.key) = entries.filterMap keyOf? := by
  rw [patternEntries, List.map_map, ← funext map_fst_keyAndDefault?, ← List.map_filterMap]
  exact List.map_congr_left fun p _ => key_entryOf scope _ p.1 p.2

/-! ## Bodies -/

/-- patterns of a component, each with the type of what it takes apart: its parameter, or what its body takes out of the
name of the parameter -/
def Component.patterns (c : Component) : List (List Node × Option Node) :=
  match c.param.map withoutDefault with
  | some (.objectPattern _ entries type) => [(entries, type <|> c.declaredProps)]
  | some (.binding _ name type) =>
    (destructuredIn name c.body).map fun (entries, own) => (entries, own <|> type <|> c.declaredProps)
  | _ => []

theorem Component.entries_eq (scope : TypeScope) (c : Component) :
    c.entries scope = c.patterns.flatMap fun p => patternEntries scope p.1 p.2 := by
  unfold Component.entries Component.patterns
  cases c.param.map withoutDefault with
  | none => rfl
  | some param =>
    cases param with
    | objectPattern => exact (List.flatMap_singleton _ _).symm
    | binding =>
      dsimp only
      rw [List.flatMap_map]
    | _ => rfl

/-- places in a body where entries are taken out of a name -/
def takenFrom (name : String) (body : Option Node) : List (List Nat × List Node) :=
  ((body.map Node.walk).getD []).filterMap fun e => (destructured? name e.2).map fun p => (e.1, p.1)

theorem mem_takenFrom {body : Option Node} {place : List Nat} : (place, entries) ∈ takenFrom name body ↔
    ∃ b n type, body = some b ∧ b.at? place = some n ∧ TakesFrom name n entries type := by
  cases body with
  | none => simp [takenFrom]
  | some b =>
    simp only [takenFrom, Option.map_some, Option.getD_some, List.mem_filterMap, Option.map_eq_some_iff, Prod.exists,
      Prod.mk.injEq, Node.mem_walk, destructured?_eq_some, Option.some.injEq]
    constructor
    · rintro ⟨place, n, hn, entries, type, htakes, rfl, rfl⟩
      exact ⟨b, n, type, rfl, hn, htakes⟩
    · rintro ⟨_, n, type, rfl, hn, htakes⟩
      exact ⟨place, n, hn, entries, type, htakes, rfl, rfl⟩

theorem sorted_takenFrom (name : String) (body : Option Node) :
    (takenFrom name body).Pairwise fun a b => a.1 < b.1 := by
  have hwalk : ((body.map Node.walk).getD []).Pairwise fun a b => a.1 < b.1 := by
    cases body with
    | none => exact .nil
    | some b => exact b.sorted_walk
  refine List.Pairwise.filterMap _ (fun a a' hlt b hb b' hb' => ?_) hwalk
  obtain ⟨_, -, rfl⟩ := Option.map_eq_some_iff.1 hb
  obtain ⟨_, -, rfl⟩ := Option.map_eq_some_iff.1 hb'
  exact hlt

theorem map_snd_takenFrom (name : String) (body : Option Node) :
    (takenFrom name body).map Prod.snd = (destructuredIn name body).map Prod.fst := by
  cases body with
  | none => rfl
  | some b =>
    simp only [takenFrom, destructuredIn, Option.map_some, Option.getD_some, List.map_filterMap, ← Node.map_snd_walk,
      List.filterMap_map, Option.map_map, Function.comp_def]

/-- **Keys of a component.** This goes by the name of the parameter, whatever the body binds: there is no analysis of
scopes. In a body that does not bind the name again, the patterns against the name are those against the parameter. -/
theorem destructured_keys {word : Span} (hparam : c.param.map withoutDefault = some (.binding word name type))
    (scope : TypeScope) : ∃ taken : List (List Nat × List Node), taken.Pairwise (fun a b => a.1 < b.1) ∧
      (∀ place entries, (place, entries) ∈ taken ↔
        ∃ body n type, c.body = some body ∧ body.at? place = some n ∧ TakesFrom name n entries type) ∧
      (c.entries scope).map (·.key) = taken.flatMap fun t => t.2.filterMap keyOf? := by
  refine ⟨takenFrom name c.body, sorted_takenFrom name c.body, fun _ _ => mem_takenFrom, ?_⟩
  have hkeys : (c.entries scope).map (·.key) = (destructuredIn name c.body).flatMap fun p => p.1.filterMap keyOf? := by
    simp only [Component.entries_eq, Component.patterns, hparam, List.flatMap_map, List.map_flatMap,
      map_key_patternEntries]
  rw [hkeys, ← List.flatMap_map Prod.fst fun es => List.filterMap keyOf? es, ← map_snd_takenFrom, List.flatMap_map]

/-- a component that takes one key out of its parameter at once, and another one in a function within its body -/
def nestedComponent : Component where
  param := some (.binding ⟨0, 5⟩ "props" none)
  body := some (.other ⟨7, 90⟩ [
    .variableList ⟨8, 28⟩ [.declarator ⟨14, 27⟩
      (.objectPattern ⟨14, 19⟩ [.shorthandPattern ⟨16, 17⟩ "a" none] none) (some (.ident ⟨22, 27⟩ "props"))],
    .arrow ⟨29, 60⟩ [] (.other ⟨35, 60⟩ [.variableList ⟨36, 58⟩ [.declarator ⟨42, 57⟩
      (.objectPattern ⟨42, 47⟩ [.keyValue ⟨44, 48⟩ (.strLit ⟨44, 46⟩ "b") (.binding ⟨47, 48⟩ "c" none)] none)
      (some (.wrapped ⟨50, 57⟩ .parentheses (.ident ⟨51, 56⟩ "props") []))]]) []])
  declaredProps := none

theorem destructured_keys_nested : nestedComponent.param.map withoutDefault = some (.binding ⟨0, 5⟩ "props" none) ∧
    ∃ taken : List (List Nat × List Node), taken.Pairwise (fun a b => a.1 < b.1) ∧
      (∀ place entries, (place, entries) ∈ taken ↔ ∃ body n type, nestedComponent.body = some body ∧
        body.at? place = some n ∧ TakesFrom "props" n entries type) ∧
      ["a", "b"] = taken.flatMap fun t => t.2.filterMap keyOf? := by
  have hkeys : (nestedComponent.entries []).map (·.key) = ["a", "b"] := by
    decide +kernel
  exact ⟨rfl, hkeys ▸ destructured_keys rfl []⟩

/-! ## Other names, and the name behind parentheses -/

/-- the body has nothing but a block, which binds the name of the parameter again and takes a key out of that -/
inductive Rebinds : Component → Prop
  | intro {param outer block first declared bound second taken pattern entry word : Span} {other : Node}
      {declaredProps : Option Node} : Rebinds
      { param := some (.binding param "props" none)
        body := some (.other outer [.other block [
          .variableList first [.declarator declared (.binding bound "props" none) (some other)],
          .variableList second [.declarator taken
            (.objectPattern pattern [.shorthandPattern entry "a" none] none) (some (.ident word "props"))]]])
        declaredProps }

/-- the body takes a key out of the parameter, whatever stands around its name -/
inductive TakesWrapped : Component → Prop
  | intro {param outer list taken pattern entry word : Span} {initial : Node} {declaredProps : Option Node}
      (h : initial.bare = .ident word "props") : TakesWrapped
      { param := some (.binding param "props" none)
        body := some (.other outer [.variableList list [.declarator taken
          (.objectPattern pattern [.shorthandPattern entry "a" none] none) (some initial)]])
        declaredProps }

def rebinds : Component → Bool
  | ⟨some (.binding _ "props" none), some (.other _ [.other _ [
      .variableList _ [.declarator _ (.binding _ "props" none) (some _)],
      .variableList _ [.declarator _ (.objectPattern _ [.shorthandPattern _ "a" none] none)
        (some (.ident _ "props"))]]]), _⟩ => true
  | _ => false

theorem rebinds_sound (h : rebinds c = true) : Rebinds c := by
  unfold rebinds at h
  split at h
  · exact .intro
  · cases h

def takesWrapped : Component → Bool
  | ⟨some (.binding _ "props" none), some (.other _ [.variableList _ [.declarator _
      (.objectPattern _ [.shorthandPattern _ "a" none] none) (some initial)]]), _⟩ =>
    match initial.bare with
    | .ident _ "props" => true
    | _ => false
  | _ => false

theorem takesWrapped_sound (h : takesWrapped c = true) : TakesWrapped c := by
  unfold takesWrapped at h
  split at h
  · split at h
    · exact .intro ‹_›
    · cases h
  · cases h

/-- `export function C(props) { { const props = other; const { a } = props; } }` -/
def reboundSource : List Char :=
  "export function C(props) \x7b \x7b const props = other; const \x7b a \x7d = props; \x7d \x7d".toList

/-- `export function C(props) { const { a } = ((props)); }` with 65 pairs of parentheses -/
def deepReference : List Char :=
  "export function C(props) \x7b const \x7b a \x7d = ".toList ++ List.replicate 65 '(' ++ "props".toList ++
    List.replicate 65 ')' ++ "; \x7d".toList

/-- the only component of a module passes a test and takes these keys -/
def onlyTakes (test : Component → Bool) (keys : List String) (m : Module) : Bool :=
  match exportedComponents m with
  | [("C", c)] => test c && (c.entries (TypeScope.ofModule m)).map (·.key) == keys
  | _ => false

theorem onlyTakes_sound {test : Component → Bool} {keys : List String} {m : Module} (h : onlyTakes test keys m = true) :
    ∃ c, exportedComponents m = [("C", c)] ∧ test c = true ∧
      (c.entries (TypeScope.ofModule m)).map (·.key) = keys := by
  unfold onlyTakes at h
  split at h
  · rw [Bool.and_eq_true, beq_iff_eq] at h
    exact ⟨_, ‹_›, h⟩
  · cases h

/-- **Names and parentheses.** A block that binds the name again adds the key that it takes out of its own binding.
Behind more than `walkDepth` parentheses the name of the parameter is not seen, and the key is missing. -/
theorem keys_beyond_parameter :
    (∃ m c, parseModule reboundSource = .ok m ∧ exportedComponents m = [("C", c)] ∧ Rebinds c ∧
      (c.entries (TypeScope.ofModule m)).map (·.key) = ["a"]) ∧
    ∃ m c, parseModule deepReference = .ok m ∧ exportedComponents m = [("C", c)] ∧ TakesWrapped c ∧
      (c.entries (TypeScope.ofModule m)).map (·.key) = [] := by
  have hrebound : (parseModule reboundSource).toOption.any (onlyTakes rebinds ["a"]) = true := by
    decide +kernel
  have hdeep : (parseModule deepReference).toOption.any (onlyTakes takesWrapped []) = true := by
    decide +kernel
  obtain ⟨m, hm, hone⟩ := exists_of_toOption_any hrebound
  obtain ⟨m', hm', hone'⟩ := exists_of_toOption_any hdeep
  obtain ⟨c, hc, hrebinds, hkeys⟩ := onlyTakes_sound hone
  obtain ⟨c', hc', hwrapped, hkeys'⟩ := onlyTakes_sound hone'
  exact ⟨⟨m, c, hm, hc, rebinds_sound hrebinds, hkeys⟩, m', c', hm', hc', takesWrapped_sound hwrapped, hkeys'⟩

end TsxWorkbench.Analysis
