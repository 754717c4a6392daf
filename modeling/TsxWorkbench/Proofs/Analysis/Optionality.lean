/-
When a prop may be left out. A props type is made of object types, parentheses, intersections, wrappers such as
`Partial`, and names of aliases and interfaces; what stands around a member, from the outside in, are its layers
(`Writes`). Of the wrappers that say something the outermost decides whether the member may be left out
(`optionalUnder`); undefined among the branches of its type lets it be left out as well.

- `membersWithin_sound`, `membersWithin_complete`: the reader finds the members that are written, down to `walkDepth`
  layers; `Partial` makes a member optional wherever it stands.
- `find?_members`: a member that is written once is found under its key.
- `isRequired_iff`: a key without a default, of a member that is written once, is required exactly if it may not be
  left out, as long as no `Required` takes anything back and undefined stands without parentheses among the branches.
- `required_flag_beyond`: a member below `walkDepth` layers, and one that may be left out but for `Required`.
-/
import TsxWorkbench.Proofs.Analysis.Destructuring
import TsxWorkbench.Proofs.Analysis.Merging

namespace TsxWorkbench.Analysis

open Syntax Text

/-! ## Layers -/

/-- what stands around a member of a type -/
inductive Layer where
  | parentheses
  | part
  | wrapper (name : String)
  | declaration (name : String)
deriving DecidableEq

/-- a property of an object type, under a word or a string -/
inductive Signature : Node → TypeMember → Prop
  | word {span key : Span} {name : String} {isOptional : Bool} {type : Option Node} :
      Signature (.propertySignature span (.ident key name) false isOptional type) ⟨name, isOptional, type⟩
  | text {span key : Span} {name : String} {isOptional : Bool} {type : Option Node} :
      Signature (.propertySignature span (.strLit key name) false isOptional type) ⟨name, isOptional, type⟩

mutual

/-- a member is written in a type, with these layers around it, the outermost first -/
inductive Writes (scope : TypeScope) : List Layer → Node → TypeMember → Prop
  | literal {span : Span} {elements : List Node} {e : Node} {member : TypeMember} (he : e ∈ elements)
      (h : Signature e member) : Writes scope [] (.objectType span elements) member
  | parentheses {route : List Layer} {span : Span} {inner : Node} {member : TypeMember}
      (h : Writes scope route inner member) :
      Writes scope (.parentheses :: route) (.parenthesizedType span inner) member
  | part {route : List Layer} {span : Span} {parts : List Node} {type : Node} {member : TypeMember}
      (hpart : type ∈ parts) (h : Writes scope route type member) :
      Writes scope (.part :: route) (.intersectionType span parts) member
  | wrapper {route : List Layer} {span : Span} {name : String} {inner : Node} {rest : List Node} {member : TypeMember}
      (hname : name ∈ memberWrappers) (h : Writes scope route inner member) :
      Writes scope (.wrapper name :: route) (.namedType span name (inner :: rest)) member
  | named {route : List Layer} {span : Span} {name : String} {args : List Node} {member : TypeMember}
      (hname : name ∉ memberWrappers) (h : Declared scope route name member) :
      Writes scope (.declaration name :: route) (.namedType span name args) member

/-- a member is written in the declaration of a name: in the type of an alias, in an interface itself, or in one of its
bases -/
inductive Declared (scope : TypeScope) : List Layer → String → TypeMember → Prop
  | aliased {route : List Layer} {name : String} {type : Node} {member : TypeMember}
      (hname : scope.find? name = some (.alias type)) (h : Writes scope route type member) :
      Declared scope route name member
  | own {name : String} {bases elements : List Node} {e : Node} {member : TypeMember}
      (hname : scope.find? name = some (.interface bases elements)) (he : e ∈ elements) (h : Signature e member) :
      Declared scope [] name member
  | base {route : List Layer} {name base : String} {bases elements : List Node} {span : Span} {member : TypeMember}
      (hname : scope.find? name = some (.interface bases elements)) (hbase : .ident span base ∈ bases)
      (h : Declared scope route base member) : Declared scope (.declaration base :: route) name member

end

/-- names of the declarations among layers -/
def declaredNames (route : List Layer) : List String :=
  route.filterMap fun
    | .declaration name => some name
    | _ => none

/-- wrappers among layers -/
def wrappersOf (route : List Layer) : List Layer :=
  route.filter fun
    | .wrapper _ => true
    | _ => false

/-- whether a member may be left out: the outermost of `Partial` and `Required` around it decides, else the way it is
written -/
def optionalUnder : List Layer → Bool → Bool
  | [], written => written
  | .wrapper name :: route, written =>
    if name = "Partial" then true else if name = "Required" then false else optionalUnder route written
  | _ :: route, written => optionalUnder route written

/-! ## Members that the reader finds -/

/-- a member as the reader sees it: optional if it is written so, or if `Partial` stands anywhere around it -/
def TypeMember.under (member : TypeMember) (route : List Layer) : TypeMember :=
  { member with isOptional := member.isOptional || route.contains (.wrapper "Partial") }

variable {scope : TypeScope} {route : List Layer} {t n : Node} {member : TypeMember} {name : String}
  {fuel depth : Nat} {open_ : List String}

theorem memberOf?_eq_some : memberOf? n = some member ↔ Signature n member := by
  constructor
  · intro h
    unfold memberOf? at h
    split at h
    · cases h
      exact .word
    · cases h
      exact .text
    · cases h
  · rintro (_ | _) <;> rfl

@[simp] theorem key_under (member : TypeMember) (route : List Layer) : (member.under route).key = member.key := rfl

@[simp] theorem under_nil (member : TypeMember) : member.under [] = member := by
  simp [TypeMember.under]

theorem under_partial (member : TypeMember) (route : List Layer) :
    member.under (.wrapper "Partial" :: route) = { member.under route with isOptional := true } := by
  simp [TypeMember.under]

theorem under_cons (layer : Layer) (h : layer ≠ .wrapper "Partial") (member : TypeMember) (route : List Layer) :
    member.under (layer :: route) = member.under route := by
  simp [TypeMember.under, h.symm]

/-- members of an object type as the reader sees them -/
theorem exists_signature {elements : List Node} {x : TypeMember} (h : x ∈ elements.filterMap memberOf?) :
    ∃ e ∈ elements, Signature e x := by
  obtain ⟨e, he, hx⟩ := List.mem_filterMap.1 h
  exact ⟨e, he, memberOf?_eq_some.1 hx⟩

theorem mem_of_signature {elements : List Node} {e : Node} (he : e ∈ elements) (h : Signature e member) :
    member ∈ elements.filterMap memberOf? :=
  List.mem_filterMap.2 ⟨e, he, memberOf?_eq_some.2 h⟩

/-- a member of the reader stems from one that is written, with the layers that stand around it -/
def Stems (written : List Layer → TypeMember → Prop) (x : TypeMember) : Prop :=
  ∃ route member, written route member ∧ x = member.under route

/-- a layer other than `Partial` leaves a member as it is -/
theorem Stems.layer {inner outer : List Layer → TypeMember → Prop} {x : TypeMember} (layer : Layer)
    (hlayer : layer ≠ .wrapper "Partial") (houter : ∀ route member, inner route member → outer (layer :: route) member)
    (h : Stems inner x) : Stems outer x := by
  obtain ⟨route, member, hinner, rfl⟩ := h
  exact ⟨layer :: route, member, houter route member hinner, (under_cons layer hlayer member route).symm⟩

/-- with so much fuel the reader finds only members that are written -/
structure FindsWritten (scope : TypeScope) (fuel : Nat) : Prop where
  types : ∀ depth open_ t, ∀ x ∈ membersWithin scope fuel depth open_ t, Stems (fun route => Writes scope route t) x
  names : ∀ depth open_ name, ∀ x ∈ namedMembersWithin scope fuel depth open_ name,
    Stems (fun route => Declared scope route name) x

theorem FindsWritten.types_succ (ih : FindsWritten scope fuel) {x : TypeMember}
    (h : x ∈ membersWithin scope (fuel + 1) depth open_ t) : Stems (fun route => Writes scope route t) x := by
  simp only [membersWithin] at h
  split at h
  · exact absurd h List.not_mem_nil
  split at h
  · obtain ⟨e, he, hx⟩ := exists_signature h
    exact ⟨[], x, .literal he hx, (under_nil x).symm⟩
  · exact (ih.types _ _ _ x h).layer .parentheses (nofun) fun _ _ => .parentheses
  · obtain ⟨type, htype, hx⟩ := List.mem_flatMap.1 h
    exact (ih.types _ _ _ x hx).layer .part (nofun) fun _ _ => .part htype
  · rename_i span name args
    split at h
    · rename_i hwrapper
      have hname : name ∈ memberWrappers := List.contains_iff_mem.1 hwrapper
      split at h
      · split at h
        · rename_i hpartial
          obtain ⟨y, hy, rfl⟩ := List.mem_map.1 h
          obtain ⟨route, member, hwritten, rfl⟩ := ih.types _ _ _ y hy
          subst hpartial
          exact ⟨_, member, .wrapper hname hwritten, (under_partial member route).symm⟩
        · rename_i hpartial
          exact (ih.types _ _ _ x h).layer (.wrapper name) (by simpa using hpartial) fun _ _ => .wrapper hname
      · exact absurd h List.not_mem_nil
    · rename_i hwrapper
      have hname : name ∉ memberWrappers := fun hmem => hwrapper (List.contains_iff_mem.2 hmem)
      exact (ih.names _ _ _ x h).layer (.declaration name) (nofun) fun _ _ => .named hname
  · exact absurd h List.not_mem_nil

theorem FindsWritten.names_succ (ih : FindsWritten scope fuel) {x : TypeMember}
    (h : x ∈ namedMembersWithin scope (fuel + 1) depth open_ name) :
    Stems (fun route => Declared scope route name) x := by
  simp only [namedMembersWithin] at h
  split at h
  · exact absurd h List.not_mem_nil
  split at h
  · rename_i hfind
    obtain ⟨route, member, hwritten, rfl⟩ := ih.types _ _ _ x h
    exact ⟨route, member, .aliased hfind hwritten, rfl⟩
  · rename_i bases elements hfind
    rcases List.mem_append.1 h with hbase | hown
    · obtain ⟨b, hb, hx⟩ := List.mem_flatMap.1 hbase
      split at hx
      · exact (ih.names _ _ _ x hx).layer (.declaration _) (nofun) fun _ _ => .base hfind hb
      · exact absurd hx List.not_mem_nil
    · obtain ⟨e, he, hx⟩ := exists_signature hown
      exact ⟨[], x, .own hfind he hx, (under_nil x).symm⟩
  · exact absurd h List.not_mem_nil

/-- **Members that are found are written.** -/
theorem membersWithin_sound (scope : TypeScope) (fuel : Nat) : FindsWritten scope fuel := by
  induction fuel with
  | zero => exact ⟨fun _ _ _ _ h => absurd h List.not_mem_nil, fun _ _ _ _ h => absurd h List.not_mem_nil⟩
  | succ fuel ih => exact ⟨fun _ _ _ _ h => ih.types_succ h, fun _ _ _ _ h => ih.names_succ h⟩

/-- with so much fuel the reader finds the members that are written, if they are not too deep and no declaration stands
around itself -/
structure FindsAll (scope : TypeScope) (fuel : Nat) : Prop where
  types : ∀ depth open_ {route member t}, Writes scope route t member → (declaredNames route).Nodup →
    (∀ x ∈ declaredNames route, x ∉ open_) → depth + route.length ≤ walkDepth → 2 * route.length + 1 ≤ fuel →
    member.under route ∈ membersWithin scope fuel depth open_ t
  names : ∀ depth open_ {route member name}, Declared scope route name member → (name :: declaredNames route).Nodup →
    (∀ x ∈ name :: declaredNames route, x ∉ open_) → depth + 1 + route.length ≤ walkDepth →
    2 * route.length + 2 ≤ fuel → member.under route ∈ namedMembersWithin scope fuel depth open_ name

theorem FindsAll.types_succ (ih : FindsAll scope fuel) (hwritten : Writes scope route t member)
    (hnodup : (declaredNames route).Nodup) (hopen : ∀ x ∈ declaredNames route, x ∉ open_)
    (hdepth : depth + route.length ≤ walkDepth) (hfuel : 2 * route.length + 1 ≤ fuel + 1) :
    member.under route ∈ membersWithin scope (fuel + 1) depth open_ t := by
  have hwalk : ¬ walkDepth < depth := by omega
  simp only [membersWithin, if_neg hwalk]
  cases hwritten with
  | literal he hx =>
    rw [under_nil]
    exact mem_of_signature he hx
  | parentheses h =>
    rw [under_cons .parentheses nofun]
    rw [List.length_cons] at hdepth hfuel
    exact ih.types _ _ h hnodup hopen (by omega) (by omega)
  | part hpart h =>
    rw [under_cons .part nofun]
    rw [List.length_cons] at hdepth hfuel
    exact List.mem_flatMap.2 ⟨_, hpart, ih.types _ _ h hnodup hopen (by omega) (by omega)⟩
  | @wrapper route _ name inner rest _ hname h =>
    rw [List.length_cons] at hdepth hfuel
    have hinner := ih.types (depth + 1) open_ h hnodup hopen (by omega) (by omega)
    dsimp only
    rw [if_pos (List.contains_iff_mem.2 hname)]
    by_cases hpartial : name = "Partial"
    · subst hpartial
      rw [if_pos rfl, under_partial]
      exact List.mem_map_of_mem hinner
    · rw [if_neg hpartial, under_cons (.wrapper name) (by simpa using hpartial)]
      exact hinner
  | @named route _ name _ _ hname h =>
    rw [List.length_cons] at hdepth hfuel
    dsimp only
    rw [if_neg (fun hmem => hname (List.contains_iff_mem.1 hmem)), under_cons (.declaration name) nofun]
    exact ih.names _ _ h hnodup hopen (by omega) (by omega)

theorem FindsAll.names_succ (ih : FindsAll scope fuel) (hdeclared : Declared scope route name member)
    (hnodup : (name :: declaredNames route).Nodup) (hopen : ∀ x ∈ name :: declaredNames route, x ∉ open_)
    (hdepth : depth + 1 + route.length ≤ walkDepth) (hfuel : 2 * route.length + 2 ≤ fuel + 1) :
    member.under route ∈ namedMembersWithin scope (fuel + 1) depth open_ name := by
  have hname : open_.contains name ≠ true := by
    intro hmem
    exact hopen name List.mem_cons_self (List.contains_iff_mem.1 hmem)
  have hinner : ∀ x ∈ declaredNames route, x ∉ name :: open_ := by
    intro x hx hmem
    rcases List.mem_cons.1 hmem with rfl | hmem
    · exact (List.nodup_cons.1 hnodup).1 hx
    · exact hopen x (List.mem_cons_of_mem _ hx) hmem
  simp only [namedMembersWithin, if_neg hname]
  cases hdeclared with
  | aliased hfind h =>
    rw [hfind]
    exact ih.types _ _ h (List.nodup_cons.1 hnodup).2 hinner (by omega) (by omega)
  | own hfind he hx =>
    rw [hfind, under_nil]
    exact List.mem_append_right _ (mem_of_signature he hx)
  | base hfind hbase h =>
    rw [hfind, under_cons (.declaration _) nofun]
    rw [List.length_cons] at hdepth hfuel
    refine List.mem_append_left _ (List.mem_flatMap.2 ⟨_, hbase, ?_⟩)
    exact ih.names _ _ h (List.nodup_cons.1 hnodup).2 hinner (by omega) (by omega)

/-- **Members that are written are found,** if they are not too deep and no declaration stands around itself. -/
theorem membersWithin_complete (scope : TypeScope) (fuel : Nat) : FindsAll scope fuel := by
  induction fuel with
  | zero => exact ⟨by omega, by omega⟩
  | succ fuel ih => exact ⟨fun _ _ => ih.types_succ, fun _ _ => ih.names_succ⟩

/-! ## Leaving a member out -/

/-- no `Required` stands around a member that may be left out without it -/
def NothingRestored (route : List Layer) (written : Bool) : Prop :=
  ∀ rest, .wrapper "Required" :: rest <:+ route → optionalUnder rest written = false

theorem NothingRestored.tail {layer : Layer} {written : Bool} (h : NothingRestored (layer :: route) written) :
    NothingRestored route written :=
  fun rest hrest => h rest (hrest.trans (List.suffix_cons _ _))

/-- where nothing is restored, a member may be left out if it is written so, or under `Partial` -/
theorem optionalUnder_eq {written : Bool} (h : NothingRestored route written) :
    optionalUnder route written = (written || route.contains (.wrapper "Partial")) := by
  induction route with
  | nil => simp [optionalUnder]
  | cons layer route ih =>
    have hroute := ih h.tail
    cases layer with
    | parentheses | part | declaration => simp [optionalUnder, hroute]
    | wrapper name =>
      by_cases hpartial : name = "Partial"
      · simp [optionalUnder, hpartial]
      by_cases hrequired : name = "Required"
      · subst hrequired
        have hfalse : optionalUnder route written = false := h route (List.suffix_refl _)
        rw [hroute] at hfalse
        simp [optionalUnder, ← hfalse]
      · simp [optionalUnder, hroute, hpartial, hrequired, Ne.symm hpartial]

theorem contains_wrappersOf (route : List Layer) (name : String) :
    (wrappersOf route).contains (.wrapper name) = route.contains (.wrapper name) := by
  rw [Bool.eq_iff_iff, List.contains_iff_mem, List.contains_iff_mem, wrappersOf, List.mem_filter]
  exact and_iff_left rfl

/-- only the wrappers around a member count -/
theorem under_congr {other : List Layer} (h : wrappersOf other = wrappersOf route) :
    member.under other = member.under route := by
  rw [TypeMember.under, TypeMember.under, ← contains_wrappersOf other, h, contains_wrappersOf]

/-- a type has one member under a key. Wherever it is written, it is this one, and these are the wrappers around it -/
structure SoleMember (scope : TypeScope) (t : Node) (key : String) (route : List Layer) (member : TypeMember) :
    Prop where
  named : member.key = key
  written : Writes scope route t member
  once : ∀ r m, Writes scope r t m → m.key = key → m = member ∧ wrappersOf r = wrappersOf route
  /-- no declaration stands around itself -/
  acyclic : (declaredNames route).Nodup

namespace SoleMember

theorem literal {span : Span} {elements : List Node} {e : Node} (he : e ∈ elements) (h : Signature e member)
    (honce : ∀ e ∈ elements, ∀ m, Signature e m → m.key = member.key → m = member) :
    SoleMember scope (.objectType span elements) member.key [] member where
  named := rfl
  written := .literal he h
  once := by
    rintro r m ⟨he, hs⟩ hkey
    exact ⟨honce _ he m hs hkey, rfl⟩
  acyclic := .nil

theorem parentheses {span : Span} (h : SoleMember scope t name route member) :
    SoleMember scope (.parenthesizedType span t) name (.parentheses :: route) member where
  named := h.named
  written := .parentheses h.written
  once := by
    rintro r m (_ | hwritten) hkey
    have hsame := h.once _ m hwritten hkey
    exact hsame
  acyclic := h.acyclic

theorem wrapper {span : Span} {w : String} {rest : List Node} (hw : w ∈ memberWrappers)
    (h : SoleMember scope t name route member) :
    SoleMember scope (.namedType span w (t :: rest)) name (.wrapper w :: route) member where
  named := h.named
  written := .wrapper hw h.written
  once := by
    intro r m hwritten hkey
    cases hwritten with
    | named hother => exact absurd hw hother
    | wrapper _ hinner =>
      obtain ⟨rfl, hwrappers⟩ := h.once _ m hinner hkey
      exact ⟨rfl, congrArg (Layer.wrapper w :: ·) hwrappers⟩
  acyclic := h.acyclic

theorem aliased {span : Span} {alias_ : String} {args : List Node} (hname : alias_ ∉ memberWrappers)
    (hfind : scope.find? alias_ = some (.alias t)) (h : SoleMember scope t name route member)
    (hnew : alias_ ∉ declaredNames route) :
    SoleMember scope (.namedType span alias_ args) name (.declaration alias_ :: route) member where
  named := h.named
  written := .named hname (.aliased hfind h.written)
  once := by
    intro r m hwritten hkey
    cases hwritten with
    | wrapper hother => exact absurd hother hname
    | named _ hdeclared =>
      cases hdeclared with
      | aliased hother hinner =>
        cases hfind.symm.trans hother
        have hsame := h.once _ m hinner hkey
        exact hsame
      | own hother => cases hfind.symm.trans hother
      | base hother => cases hfind.symm.trans hother
  acyclic := List.nodup_cons.2 ⟨hnew, h.acyclic⟩

end SoleMember

/-- **A member that is written once** is the one that the reader finds under its key. -/
theorem find?_members (h : SoleMember scope t name route member) (hshallow : route.length ≤ walkDepth) :
    (scope.members t).reverse.find? (·.key == name) = some (member.under route) := by
  have hmem : member.under route ∈ scope.members t :=
    (membersWithin_complete scope _).types 0 [] h.written h.acyclic (fun _ _ => List.not_mem_nil) (by omega) (by omega)
  cases hfind : (scope.members t).reverse.find? (·.key == name) with
  | none =>
    have hkey := List.find?_eq_none.1 hfind _ (List.mem_reverse.2 hmem)
    exact absurd (beq_iff_eq.2 h.named) hkey
  | some x =>
    obtain ⟨r, m, hwritten, rfl⟩ :=
      (membersWithin_sound scope _).types _ _ t x (List.mem_reverse.1 (List.mem_of_find?_eq_some hfind))
    have hkey : m.key = name := by simpa using List.find?_some hfind
    obtain ⟨rfl, hwrappers⟩ := h.once r m hwritten hkey
    rw [under_congr hwrappers]

/-! ## Undefined among the branches of a union -/

/-- a branch that lets undefined in: the keyword, or a union with such a branch, in any number of parentheses -/
inductive AllowsUndefined : Node → Prop
  | keyword {span : Span} : AllowsUndefined (.keywordType span "undefined")
  | parentheses {span : Span} {inner : Node} (h : AllowsUndefined inner) :
      AllowsUndefined (.parenthesizedType span inner)
  | branch {span : Span} {branches : List Node} {b : Node} (hb : b ∈ branches) (h : AllowsUndefined b) :
      AllowsUndefined (.unionType span branches)

/-- a union, in any number of parentheses, with a branch that lets undefined in -/
inductive UndefinedBranch : Node → Prop
  | union {span : Span} {branches : List Node} {b : Node} (hb : b ∈ branches) (h : AllowsUndefined b) :
      UndefinedBranch (.unionType span branches)
  | parentheses {span : Span} {inner : Node} (h : UndefinedBranch inner) :
      UndefinedBranch (.parenthesizedType span inner)

/-- a union, in any number of parentheses, has undefined for a branch itself if one of its branches lets it in -/
def PlainUndefined : Node → Prop
  | .unionType _ branches => ∀ b ∈ branches, AllowsUndefined b → ∃ span, b = .keywordType span "undefined"
  | .parenthesizedType _ inner => PlainUndefined inner
  | _ => True

theorem admitsUndefined_iff (h : PlainUndefined t) : admitsUndefined t = true ↔ UndefinedBranch t := by
  fun_induction admitsUndefined t with
  | case1 span branches =>
    rw [List.any_eq_true]
    constructor
    · rintro ⟨b, hb, hundefined⟩
      split at hundefined
      · rw [beq_iff_eq] at hundefined
        subst hundefined
        exact .union hb .keyword
      · cases hundefined
    · rintro (⟨hb, hallows⟩ | _)
      obtain ⟨_, rfl⟩ := h _ hb hallows
      exact ⟨_, hb, beq_self_eq_true _⟩
  | case2 span inner ih =>
    rw [ih h]
    constructor
    · exact .parentheses
    · rintro (_ | h)
      exact h
  | case3 t hunion hparentheses =>
    refine iff_of_false Bool.false_ne_true ?_
    rintro (_ | _)
    · exact hunion _ _ rfl
    · exact hparentheses _ _ rfl

/-! ## Required keys -/

variable {m : Syntax.Module} {c : Component} {entries : List Node} {e : PropEntry}

/-- a member may be left out, or its type is a union that lets undefined in -/
def MayBeMissing (route : List Layer) (member : TypeMember) : Prop :=
  optionalUnder route member.isOptional = true ∨ ∃ type, member.type = some type ∧ UndefinedBranch type

theorem isOptional_entryOf (h : SoleMember scope t name route member) (hshallow : route.length ≤ walkDepth)
    (hrestored : NothingRestored route member.isOptional)
    (hplain : ∀ type, member.type = some type → PlainUndefined type) (default : Option Json) :
    (entryOf scope (scope.members t) name default).isOptional = true ↔ MayBeMissing route member := by
  have hentry : (entryOf scope (scope.members t) name default).isOptional =
      (optionalUnder route member.isOptional || member.type.any admitsUndefined) := by
    rw [entryOf, find?_members h hshallow, optionalUnder_eq hrestored]
    rfl
  rw [hentry, Bool.or_eq_true, MayBeMissing, Option.any_eq_true]
  refine or_congr_right (exists_congr fun type => and_congr_right fun htype => ?_)
  exact admitsUndefined_iff (hplain type htype)

/-- an entry under a type that has one member under its key -/
theorem isOptional_of_mem_patternEntries (he : e ∈ patternEntries scope entries (some t))
    (h : SoleMember scope t e.key route member) (hshallow : route.length ≤ walkDepth)
    (hrestored : NothingRestored route member.isOptional)
    (hplain : ∀ type, member.type = some type → PlainUndefined type) :
    e.isOptional = true ↔ MayBeMissing route member := by
  obtain ⟨⟨key, default⟩, -, rfl⟩ := List.mem_map.1 he
  rw [key_entryOf] at h
  exact isOptional_entryOf h hshallow hrestored hplain default

theorem mem_exportEntries (hc : (name, c) ∈ exportedComponents m) (hpattern : (entries, some t) ∈ c.patterns)
    (he : e ∈ patternEntries (TypeScope.ofModule m) entries (some t)) : e ∈ (exportEntries m).flatten := by
  refine List.mem_flatten.2 ⟨_, List.mem_map.2 ⟨_, hc, rfl⟩, ?_⟩
  rw [Component.entries_eq]
  exact List.mem_flatMap.2 ⟨_, hpattern, he⟩

/-- the definition of a key is what its entries say -/
theorem find?_ofModule (he : e ∈ (exportEntries m).flatten) : (Props.ofModule m).find? e.key =
    some (summary (entriesOf (exportEntries m).flatten e.key) e.key) := by
  have hkey : e.key ∈ keysOf (exportEntries m).flatten := List.mem_eraseDups.2 (List.mem_map_of_mem he)
  have hsome : ((Props.ofModule m).find? e.key).isSome := by
    rw [Props.find?, ofModule_definitions, List.find?_isSome]
    exact ⟨_, List.mem_map_of_mem hkey, beq_self_eq_true _⟩
  obtain ⟨d, hd⟩ := Option.isSome_iff_exists.1 hsome
  rw [hd]
  rw [Props.find?, ofModule_definitions] at hd
  obtain ⟨key, -, rfl⟩ := List.mem_map.1 (List.mem_of_find?_eq_some hd)
  have hsame : key = e.key := by simpa [summary] using List.find?_some hd
  rw [hsame]

/-- **Required keys.** What an entry says of its key, and what the module says of it if all its entries are alike. -/
theorem isRequired_iff (hc : (name, c) ∈ exportedComponents m) (hpattern : (entries, some t) ∈ c.patterns)
    (he : e ∈ patternEntries (TypeScope.ofModule m) entries (some t)) (hdefault : e.default = none)
    (hmember : SoleMember (TypeScope.ofModule m) t e.key route member) (hshallow : route.length ≤ walkDepth)
    (hrestored : NothingRestored route member.isOptional)
    (hplain : ∀ type, member.type = some type → PlainUndefined type) :
    (e.definition.isRequired = false ↔ MayBeMissing route member) ∧
    ((∀ other ∈ (exportEntries m).flatten, other.key = e.key → other = e) →
      ∃ d, (Props.ofModule m).find? e.key = some d ∧ (d.isRequired = false ↔ MayBeMissing route member)) := by
  have hoptional := isOptional_of_mem_patternEntries he hmember hshallow hrestored hplain
  rw [← hoptional]
  constructor
  · simp [PropEntry.definition, hdefault]
  intro honly
  have hlisted := mem_exportEntries hc hpattern he
  refine ⟨_, find?_ofModule hlisted, ?_⟩
  rw [← Bool.not_eq_true, isRequired_summary]
  constructor
  · intro hnot
    by_contra hopt
    exact hnot ⟨fun other hother hkey => honly other hother hkey ▸ hdefault, e, hlisted, rfl, eq_false_of_ne_true hopt⟩
  · rintro hopt ⟨-, other, hother, hkey, hfalse⟩
    rw [honly other hother hkey, hopt] at hfalse
    cases hfalse

/-- `{ a: string }` -/
def baseType : Node := .objectType ⟨12, 25⟩
  [.propertySignature ⟨14, 23⟩ (.ident ⟨14, 15⟩ "a") false false (some (.keywordType ⟨17, 23⟩ "string"))]

/-- `Partial<(Base)>` -/
def partialType : Node :=
  .namedType ⟨53, 68⟩ "Partial" [.parenthesizedType ⟨61, 67⟩ (.namedType ⟨62, 66⟩ "Base" [])]

/-- `type Base = { a: string };` and `export function C({ a }: Partial<(Base)>) {}` -/
def partialModule : Syntax.Module := ⟨[
  .typeAlias ⟨0, 26⟩ "Base" [] baseType,
  .exportDeclaration ⟨27, 72⟩ (.functionDeclaration ⟨34, 72⟩ "C" (.function ⟨34, 72⟩
    [.objectPattern ⟨45, 50⟩ [.shorthandPattern ⟨47, 48⟩ "a" none] (some partialType)] none []))]⟩

theorem soleMember_partial : SoleMember (TypeScope.ofModule partialModule) partialType "a"
    [.wrapper "Partial", .parentheses, .declaration "Base"] ⟨"a", false, some (.keywordType ⟨17, 23⟩ "string")⟩ := by
  refine .wrapper (by decide) (.parentheses (.aliased (by decide) rfl ?_ (by decide)))
  refine .literal (.head _) .word fun e he m hs _ => ?_
  cases List.mem_singleton.1 he
  cases hs
  rfl

/-- under `Partial` the key is not required -/
theorem isRequired_iff_partial : SoleMember (TypeScope.ofModule partialModule) partialType "a"
      [.wrapper "Partial", .parentheses, .declaration "Base"] ⟨"a", false, some (.keywordType ⟨17, 23⟩ "string")⟩ ∧
    ∃ d, (Props.ofModule partialModule).find? "a" = some d ∧ (d.isRequired = false ↔ MayBeMissing
      [.wrapper "Partial", .parentheses, .declaration "Base"] ⟨"a", false, some (.keywordType ⟨17, 23⟩ "string")⟩) := by
  have hentries : (exportEntries partialModule).flatten = [⟨"a", none, some .string, true⟩] := rfl
  have honly : ∀ other ∈ (exportEntries partialModule).flatten, other.key = "a" →
      other = ⟨"a", none, some .string, true⟩ := by
    intro other hother _
    rw [hentries] at hother
    exact List.mem_singleton.1 hother
  have hrestored : NothingRestored [.wrapper "Partial", .parentheses, .declaration "Base"] false := by
    intro rest hrest
    have hmem : .wrapper "Required" ∈ [Layer.wrapper "Partial", .parentheses, .declaration "Base"] :=
      hrest.subset List.mem_cons_self
    exact absurd hmem (by decide)
  have hplain : ∀ type, some (.keywordType ⟨17, 23⟩ "string") = some type → PlainUndefined type := by
    rintro _ ⟨⟩
    trivial
  refine ⟨soleMember_partial, ?_⟩
  exact (isRequired_iff (e := ⟨"a", none, some .string, true⟩) (c := ⟨some (.objectPattern ⟨45, 50⟩
    [.shorthandPattern ⟨47, 48⟩ "a" none] (some partialType)), none, none⟩) (.head _) (.head _) (.head _) rfl
    soleMember_partial (by decide) hrestored hplain).2 honly

/-! ## Deeper, and restored -/

/-- a module has one export, which takes its key `a` out of a type with one member of that name; the member may be left
out exactly if the key is required, and undefined is no branch of its type -/
def Disagrees (m : Syntax.Module) (mayBeLeftOut : Bool) : Prop :=
  ∃ c word t route type d, exportedComponents m = [("C", c)] ∧
    c.patterns = [([.shorthandPattern word "a" none], some t)] ∧
    SoleMember (TypeScope.ofModule m) t "a" route ⟨"a", true, some type⟩ ∧ ¬ UndefinedBranch type ∧
    optionalUnder route true = mayBeLeftOut ∧ (Props.ofModule m).find? "a" = some d ∧ d.isRequired = mayBeLeftOut

/-- `{ a?: string }`, in parentheses -/
def optionalInside : Node → Bool
  | .parenthesizedType _ inner => optionalInside inner
  | .objectType _ [.propertySignature _ (.ident _ "a") false true (some (.keywordType _ "string"))] => true
  | _ => false

theorem soleMember_inside (h : optionalInside t = true) : ∃ count span, SoleMember scope t "a"
    (List.replicate count .parentheses) ⟨"a", true, some (.keywordType span "string")⟩ := by
  fun_induction optionalInside t with
  | case1 span inner ih =>
    obtain ⟨count, span, hinner⟩ := ih h
    exact ⟨count + 1, span, hinner.parentheses⟩
  | case2 whole signature key span =>
    refine ⟨0, span, .literal (.head _) .word fun e he m hs _ => ?_⟩
    cases List.mem_singleton.1 he
    cases hs
    rfl
  | case3 => cases h

theorem optionalUnder_parentheses (count : Nat) (written : Bool) :
    optionalUnder (List.replicate count .parentheses) written = written := by
  induction count with
  | zero => rfl
  | succ count ih => exact ih

/-- the only export takes its key `a` out of a type that passes a test, and the key is required or not -/
def takesA (test : Node → Bool) (required : Bool) (m : Syntax.Module) : Bool :=
  match exportedComponents m with
  | [("C", ⟨some (.objectPattern _ [.shorthandPattern _ "a" none] (some t)), _, _⟩)] =>
    test t && ((Props.ofModule m).find? "a").any (·.isRequired == required)
  | _ => false

theorem takesA_sound {test : Node → Bool} {required : Bool} (h : takesA test required m = true) :
    ∃ c word t d, exportedComponents m = [("C", c)] ∧ c.patterns = [([.shorthandPattern word "a" none], some t)] ∧
      test t = true ∧ (Props.ofModule m).find? "a" = some d ∧ d.isRequired = required := by
  unfold takesA at h
  split at h
  · rw [Bool.and_eq_true, Option.any_eq_true] at h
    obtain ⟨htest, d, hd, hrequired⟩ := h
    exact ⟨_, _, _, d, ‹_›, rfl, htest, hd, beq_iff_eq.1 hrequired⟩
  · cases h

/-- `export function C({ a }: ({ a?: string })) {}` with 65 pairs of parentheses -/
def deepType : List Char :=
  "export function C(\x7b a \x7d: ".toList ++ List.replicate 65 '(' ++ "\x7b a?: string \x7d".toList ++
    List.replicate 65 ')' ++ ") \x7b\x7d".toList

/-- `export function C({ a }: Required<{ a?: string }>) {}` -/
def restoredType : List Char :=
  "export function C(\x7b a \x7d: Required<\x7b a?: string \x7d>) \x7b\x7d".toList

def optionalRestored : Node → Bool
  | .namedType _ "Required" [inner] => optionalInside inner
  | _ => false

/-- **Other types.** Below `walkDepth` layers a member is not found, and its key is required although it may be left
out; `Required` does not make a key required that may be left out without it. -/
theorem required_flag_beyond : (∃ m, parseModule deepType = .ok m ∧ Disagrees m true) ∧
    ∃ m, parseModule restoredType = .ok m ∧ Disagrees m false := by
  have hdeep : (parseModule deepType).toOption.any (takesA optionalInside true) = true := by
    decide +kernel
  have hrestored : (parseModule restoredType).toOption.any (takesA optionalRestored false) = true := by
    decide +kernel
  have hplain : ∀ span, ¬ UndefinedBranch (.keywordType span "string") := nofun
  constructor
  · obtain ⟨m, hm, htakes⟩ := exists_of_toOption_any hdeep
    obtain ⟨c, word, t, d, hc, hpatterns, hinside, hd, hrequired⟩ := takesA_sound htakes
    obtain ⟨count, span, hsole⟩ := soleMember_inside hinside
    exact ⟨m, hm, c, word, t, _, _, d, hc, hpatterns, hsole, hplain span, optionalUnder_parentheses count true, hd,
      hrequired⟩
  · obtain ⟨m, hm, htakes⟩ := exists_of_toOption_any hrestored
    obtain ⟨c, word, t, d, hc, hpatterns, hinside, hd, hrequired⟩ := takesA_sound htakes
    unfold optionalRestored at hinside
    split at hinside
    · obtain ⟨count, span, hsole⟩ := soleMember_inside hinside
      exact ⟨m, hm, c, word, _, _, _, d, hc, hpatterns, hsole.wrapper (by decide), hplain span, rfl, hd, hrequired⟩
    · cases hinside

end TsxWorkbench.Analysis
