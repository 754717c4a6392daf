/-
Aliases of types. A reference to an alias says what the type in its declaration says: written out in parentheses,
anywhere in a type or in the declarations of a module (`Unfolds`), it leaves all kinds as they are, as long as no alias
leads back to itself and no union gains a branch that is null or undefined by it.

- `resolveWithin_unfolded`: what a number of steps finds before and after.
- `resolveWithin_group`: a union behind parentheses and aliases, whatever steps are left for its branches.
- `resolve?_transparent`: the kinds of types, references written out or not, and groups of branches taken apart.
- `nullish_alias_resolves`: an alias of null among the branches of a union is not left out.
-/
import TsxWorkbench.Proofs.Analysis.Unions
import TsxWorkbench.Proofs.Syntax.Parts
import Mathlib.Data.List.Forall2
import Mathlib.Logic.Relation

namespace TsxWorkbench.Analysis

open Syntax Text

variable {m m' : Syntax.Module} {scope : TypeScope} {n n' t t' body : Node} {span span' : Span} {x y name : String}
  {open_ open_' : List String} {args branches parts : List Node} {k : Nat}

/-! ## References written out -/

/-- a name stands for a type by an alias without parameters -/
structure LocalAlias (m : Syntax.Module) (name : String) (body : Node) : Prop where
  declared : ∃ item ∈ m.items, ∃ span, declarationOf item = .typeAlias span name [] body
  found : (TypeScope.ofModule m).find? name = some (.alias body)

/-- parts of a union may be put for its branches if as many are null or undefined, in the same places -/
def KeepsNullish : Node → List Node → Prop
  | .unionType _ branches, parts => parts.map isNullish = branches.map isNullish
  | _, _ => True

/-- some references to aliases are written out, each as the type that the alias stands for, in parentheses -/
inductive Unfolds (m : Syntax.Module) : Node → Node → Prop
  | reference {span span' : Span} {name : String} {body body' : Node} (halias : LocalAlias m name body)
      (hbody : Unfolds m body body') : Unfolds m (.namedType span name []) (.parenthesizedType span' body')
  | parts {n : Node} {ps : List Node} (hparts : List.Forall₂ (Unfolds m) n.children ps) (hnullish : KeepsNullish n ps) :
      Unfolds m n (n.withParts ps)

theorem Unfolds.refl (m : Syntax.Module) (n : Node) : Unfolds m n n := by
  have hparts : List.Forall₂ (Unfolds m) n.children n.children :=
    List.forall₂_same.2 fun c _ => Unfolds.refl m c
  have hnullish : KeepsNullish n n.children := by
    cases n <;> trivial
  have h := Unfolds.parts hparts hnullish
  rwa [Node.withParts_children] at h
termination_by sizeOf n
decreasing_by exact Node.sizeOf_lt_of_mem_children ‹_›

/-! ## Names that a type comes to -/

/-- the kind of a type hangs on the declaration of a name -/
inductive Leads : Node → String → Prop
  | name {span : Span} {name : String} {args : List Node} : Leads (.namedType span name args) name
  | parentheses {span : Span} {inner : Node} {name : String} (h : Leads inner name) :
      Leads (.parenthesizedType span inner) name
  | modified {span : Span} {inner : Node} {name : String} (h : Leads inner name) : Leads (.modifiedType span inner) name
  | branch {span : Span} {branches : List Node} {b : Node} {name : String} (hb : b ∈ branches) (h : Leads b name) :
      Leads (.unionType span branches) name

/-- an alias stands for a type whose kind hangs on another name -/
def Refers (scope : TypeScope) (x y : String) : Prop := ∃ body, scope.find? x = some (.alias body) ∧ Leads body y

/-- no alias without parameters leads back to itself, and none has the name of a type that needs no declaration -/
structure SoundAliases (m : Syntax.Module) : Prop where
  acyclic : ∀ name body, LocalAlias m name body → ¬ Relation.TransGen (Refers (TypeScope.ofModule m)) name name
  distinct : ∀ name body, LocalAlias m name body → builtinKind? name = none

/-! ## Declarations -/

/-- a declaration before and after: what an alias stands for has references written out -/
inductive UnfoldsDeclaration (m : Syntax.Module) : TypeDeclaration → TypeDeclaration → Prop
  | aliased {body body' : Node} (h : Unfolds m body body') : UnfoldsDeclaration m (.alias body) (.alias body')
  | interface {bases bases' members members' : List Node} :
      UnfoldsDeclaration m (.interface bases members) (.interface bases' members')

/-- declared types before and after -/
def UnfoldsEntry (m : Syntax.Module) (d d' : String × TypeDeclaration) : Prop :=
  d.1 = d'.1 ∧ UnfoldsDeclaration m d.2 d'.2

theorem declarationOf_unfolded (h : Unfolds m n n') : Unfolds m (declarationOf n) (declarationOf n') := by
  cases h with
  | reference halias hbody => exact .reference halias hbody
  | @parts _ ps hparts hnullish =>
    cases n with
    | exportDeclaration span declaration =>
      obtain _ | ⟨hdeclaration, _ | _⟩ := hparts
      exact hdeclaration
    | _ => exact .parts hparts hnullish

theorem declared?_unfolded (h : Unfolds m n n') :
    Option.Rel (UnfoldsEntry m) (TypeScope.declared? n) (TypeScope.declared? n') := by
  have hdeclaration := declarationOf_unfolded h
  unfold TypeScope.declared?
  generalize declarationOf n = d at hdeclaration
  generalize declarationOf n' = d' at hdeclaration
  cases hdeclaration with
  | reference => exact .none
  | @parts _ ps hparts hnullish =>
    cases d with
    | typeAlias span name params type =>
      have htype := List.forall₂_drop params.length hparts
      simp only [Node.children, List.drop_left] at htype
      generalize hps : ps.drop params.length = rest at htype
      obtain _ | ⟨htype, _ | _⟩ := htype
      simp only [Node.withParts, hps, List.headD_cons]
      exact .some ⟨rfl, .aliased htype⟩
    | interface span name params bases members => exact .some ⟨rfl, .interface⟩
    | _ => exact .none

theorem find?_rel {l l' : TypeScope} (h : List.Forall₂ (UnfoldsEntry m) l l') (name : String) :
    Option.Rel (UnfoldsDeclaration m) (l.find? name) (l'.find? name) := by
  induction h with
  | nil => exact .none
  | @cons d d' l l' hd hrest ih =>
    have hsame : d.1 = d'.1 := hd.1
    unfold TypeScope.find? at ih ⊢
    rw [List.find?_cons, List.find?_cons, ← hsame]
    split
    · exact .some hd.2
    · exact ih

theorem find?_unfolded (h : List.Forall₂ (Unfolds m) m.items m'.items) (name : String) :
    Option.Rel (UnfoldsDeclaration m) ((TypeScope.ofModule m).find? name) ((TypeScope.ofModule m').find? name) := by
  refine find?_rel ?_ name
  refine List.forall₂_reverse_iff.2 ?_
  exact List.rel_filterMap (fun _ _ hitem => declared?_unfolded hitem) h

/-! ## Names on the way -/

/-- names passed on the way to a type, before and after. Each leads to the names that the type comes to, and those that
are passed only before do not lead back to themselves -/
structure Passed (m : Syntax.Module) (open_ open_' : List String) (t : Node) : Prop where
  subset : open_' ⊆ open_
  acyclic : ∀ x ∈ open_, x ∉ open_' → ¬ Relation.TransGen (Refers (TypeScope.ofModule m)) x x
  ahead : ∀ x ∈ open_, ∀ y, Leads t y → Relation.TransGen (Refers (TypeScope.ofModule m)) x y

namespace Passed

theorem start (m : Syntax.Module) (t : Node) : Passed m [] [] t :=
  ⟨List.Subset.refl _, fun _ h => absurd h List.not_mem_nil, fun _ h => absurd h List.not_mem_nil⟩

/-- on to a part of the type -/
theorem inner (h : Passed m open_ open_' t) (hleads : ∀ y, Leads n y → Leads t y) : Passed m open_ open_' n :=
  ⟨h.subset, h.acyclic, fun x hx y hy => h.ahead x hx y (hleads y hy)⟩

/-- a name that the type comes to was passed before exactly if it was passed after -/
theorem mem_iff (h : Passed m open_ open_' t) (hleads : Leads t y) : y ∈ open_ ↔ y ∈ open_' := by
  refine ⟨fun hy => ?_, fun hy => h.subset hy⟩
  by_contra hnew
  exact h.acyclic y hy hnew (h.ahead y hy y hleads)

theorem ahead_body (h : Passed m open_ open_' t) (hleads : Leads t y)
    (hfind : (TypeScope.ofModule m).find? y = some (.alias body)) :
    ∀ x ∈ y :: open_, ∀ z, Leads body z → Relation.TransGen (Refers (TypeScope.ofModule m)) x z := by
  intro x hx z hz
  have hstep : Refers (TypeScope.ofModule m) y z := ⟨body, hfind, hz⟩
  rcases List.mem_cons.1 hx with rfl | hx
  · exact .single hstep
  · exact (h.ahead x hx y hleads).tail hstep

/-- on to what an alias stands for -/
theorem enter (h : Passed m open_ open_' t) (hleads : Leads t y)
    (hfind : (TypeScope.ofModule m).find? y = some (.alias body)) : Passed m (y :: open_) (y :: open_') body where
  subset := List.cons_subset_cons y h.subset
  acyclic := by
    intro x hx hnew
    rw [List.mem_cons, not_or] at hnew
    exact h.acyclic x ((List.mem_cons.1 hx).resolve_left hnew.1) hnew.2
  ahead := h.ahead_body hleads hfind

/-- on to what an alias stands for, which is written out after -/
theorem unfold (h : Passed m open_ open_' t) (hleads : Leads t y)
    (hfind : (TypeScope.ofModule m).find? y = some (.alias body))
    (hacyclic : ¬ Relation.TransGen (Refers (TypeScope.ofModule m)) y y) : Passed m (y :: open_) open_' body where
  subset := fun _ hx => List.mem_cons_of_mem _ (h.subset hx)
  acyclic := by
    intro x hx hnew
    rcases List.mem_cons.1 hx with rfl | hx
    · exact hacyclic
    · exact h.acyclic x hx hnew
  ahead := h.ahead_body hleads hfind

end Passed

/-- a reference to an alias takes a step to what the alias stands for -/
theorem resolveWithin_reference (hm : SoundAliases m) (halias : LocalAlias m name body)
    (h : Passed m open_ open_' (.namedType span name [])) (k : Nat) :
    resolveWithin (TypeScope.ofModule m) (k + 1) open_ (.namedType span name []) =
      resolveWithin (TypeScope.ofModule m) k (name :: open_) body ∧ Passed m (name :: open_) open_' body := by
  have hacyclic := hm.acyclic name body halias
  have hnew : name ∉ open_ := fun hmem => hacyclic (h.ahead name hmem name .name)
  refine ⟨?_, h.unfold .name halias.found hacyclic⟩
  simp only [resolveWithin, hm.distinct name body halias, halias.found, List.contains_iff_mem, hnew, if_false]

theorem literalKind?_unfolded (h : Unfolds m n n') : literalKind? n' = literalKind? n := by
  cases h with
  | reference => rfl
  | parts => cases n <;> rfl

/-- branches before and after -/
theorem map_branches {ps : List Node} {f f' : Node → Option PropType} (hparts : List.Forall₂ (Unfolds m) branches ps)
    (hnullish : ps.map isNullish = branches.map isNullish)
    (hf : ∀ b ∈ branches, ∀ b', Unfolds m b b' → f' b' = f b) :
    (ps.filter (!isNullish ·)).map f' = (branches.filter (!isNullish ·)).map f := by
  induction hparts with
  | nil => rfl
  | @cons b p branches ps hb _ ih =>
    rw [List.map_cons, List.map_cons, List.cons.injEq] at hnullish
    have hrest := ih hnullish.2 fun c hc => hf c (List.mem_cons_of_mem _ hc)
    have hhead := hf b List.mem_cons_self p hb
    rw [List.filter_cons, List.filter_cons, hnullish.1]
    split
    · rw [List.map_cons, List.map_cons, hhead, hrest]
    · exact hrest

/-- **A number of steps.** They find the same kind before references are written out and after. -/
theorem resolveWithin_unfolded (hm : SoundAliases m) (hitems : List.Forall₂ (Unfolds m) m.items m'.items) (k : Nat) :
    ∀ open_ open_' t t', Unfolds m t t' → Passed m open_ open_' t →
      resolveWithin (TypeScope.ofModule m') k open_' t' = resolveWithin (TypeScope.ofModule m) k open_ t := by
  induction k with
  | zero => exact fun _ _ _ _ _ _ => rfl
  | succ k ih =>
    intro open_ open_' t t' hunfolds hpassed
    cases hunfolds with
    | reference halias hbody =>
      obtain ⟨hstep, hinner⟩ := resolveWithin_reference hm halias hpassed k
      rw [hstep]
      exact ih _ _ _ _ hbody hinner
    | @parts _ ps hparts hnullish =>
      cases t with
      | parenthesizedType span inner =>
        obtain _ | ⟨hinner, _ | _⟩ := hparts
        exact ih _ _ _ _ hinner (hpassed.inner fun y => .parentheses)
      | modifiedType span inner =>
        obtain _ | ⟨hinner, _ | _⟩ := hparts
        exact ih _ _ _ _ hinner (hpassed.inner fun y => .modified)
      | literalType span literal =>
        obtain _ | ⟨hliteral, _ | _⟩ := hparts
        exact literalKind?_unfolded hliteral
      | unionType span branches =>
        simp only [Node.withParts, resolveWithin]
        refine congrArg unionKind? (map_branches hparts hnullish fun b hb b' hb' => ?_)
        exact ih _ _ _ _ hb' (hpassed.inner fun y => .branch hb)
      | namedType span name args =>
        have hmem := hpassed.mem_iff .name
        have hfind := find?_unfolded hitems name
        simp only [Node.withParts, resolveWithin, List.contains_iff_mem, hmem]
        generalize hfound : (TypeScope.ofModule m).find? name = found at hfind
        generalize (TypeScope.ofModule m').find? name = found' at hfind
        cases hfind with
        | none => rfl
        | some hd =>
          cases hd with
          | aliased hbody => simp only [ih _ _ _ _ hbody (hpassed.enter .name hfound)]
          | interface => rfl
      | _ => rfl

/-! ## Groups of branches -/

/-- a type is nested less than a number of levels, with all aliases written out -/
def NestedBelow (scope : TypeScope) : Nat → Node → Prop
  | 0, _ => False
  | k + 1, t =>
    match t with
    | .parenthesizedType _ inner => NestedBelow scope k inner
    | .modifiedType _ inner => NestedBelow scope k inner
    | .unionType _ branches => ∀ b ∈ branches, NestedBelow scope k b
    | .namedType _ name _ => ∀ body, scope.find? name = some (.alias body) → NestedBelow scope k body
    | _ => True

/-- a type has a level -/
theorem NestedBelow.exists_succ {d : Nat} (h : NestedBelow scope d t) (hk : d ≤ k) :
    ∃ d' k', d = d' + 1 ∧ k = k' + 1 ∧ d' ≤ k' := by
  obtain _ | d := d
  · exact h.elim
  · obtain ⟨k, rfl⟩ := Nat.exists_eq_add_one_of_ne_zero (Nat.ne_zero_of_lt hk)
    exact ⟨d, k, rfl, rfl, Nat.le_of_succ_le_succ hk⟩

/-- more steps than there are levels find no more -/
theorem resolveWithin_of_nested {d : Nat} (h : NestedBelow scope d t) (hk : d ≤ k) (open_ : List String) :
    resolveWithin scope k open_ t = resolveWithin scope d open_ t := by
  induction d generalizing t k open_ with
  | zero => exact h.elim
  | succ d ih =>
    obtain ⟨_, k, ⟨⟩, rfl, hle⟩ := h.exists_succ hk
    cases t with
    | parenthesizedType span inner => exact ih h hle open_
    | modifiedType span inner => exact ih h hle open_
    | unionType span branches =>
      refine congrArg unionKind? (List.map_congr_left fun b hb => ?_)
      exact ih (h b (List.mem_of_mem_filter hb)) hle open_
    | namedType span name args =>
      simp only [resolveWithin]
      rcases hfind : scope.find? name with _ | body | ⟨bases, members⟩
      · rfl
      · simp only [ih (h body hfind) hle (name :: open_)]
      · rfl
    | _ => rfl

/-- a union, behind parentheses and aliases -/
inductive Group (m : Syntax.Module) : Node → List Node → Prop
  | union {span : Span} {branches : List Node} : Group m (.unionType span branches) branches
  | parentheses {span : Span} {inner : Node} {branches : List Node} (h : Group m inner branches) :
      Group m (.parenthesizedType span inner) branches
  | reference {span : Span} {name : String} {body : Node} {branches : List Node} (halias : LocalAlias m name body)
      (h : Group m body branches) : Group m (.namedType span name []) branches

theorem Group.not_nullish (h : Group m t branches) : isNullish t = false := by
  induction h with
  | union => rfl
  | parentheses _ ih => exact ih
  | reference => rfl

/-- the kind of a name does not depend on the names passed before -/
theorem resolveWithin_passed (hm : SoundAliases m) (h : Passed m open_ [] t) (k : Nat) :
    resolveWithin (TypeScope.ofModule m) k open_ t = resolveWithin (TypeScope.ofModule m) k [] t := by
  have hitems : List.Forall₂ (Unfolds m) m.items m.items := List.forall₂_same.2 fun n _ => Unfolds.refl m n
  exact (resolveWithin_unfolded hm hitems k open_ [] t t (Unfolds.refl m t) h).symm

/-- a group has the kind of the union in it, however many steps are left for its branches -/
theorem resolveWithin_group (hm : SoundAliases m) (h : Group m t branches) : ∀ {d k j : Nat} {open_ : List String},
    NestedBelow (TypeScope.ofModule m) d t → d ≤ k → d ≤ j → Passed m open_ [] t →
    resolveWithin (TypeScope.ofModule m) k open_ t =
      unionKind? ((branches.filter (!isNullish ·)).map (resolveWithin (TypeScope.ofModule m) j [])) := by
  induction h with
  | union =>
    intro d k j open_ hnested hk hj hpassed
    obtain ⟨d, k, rfl, rfl, hle⟩ := hnested.exists_succ hk
    refine congrArg unionKind? (List.map_congr_left fun b hb => ?_)
    have hb := List.mem_of_mem_filter hb
    have hinner : Passed m open_ [] b := hpassed.inner fun y => .branch hb
    rw [resolveWithin_of_nested (hnested b hb) hle, resolveWithin_of_nested (hnested b hb) (Nat.le_of_succ_le hj),
      resolveWithin_passed hm hinner]
  | parentheses _ ih =>
    intro d k j open_ hnested hk hj hpassed
    obtain ⟨d, k, rfl, rfl, hle⟩ := hnested.exists_succ hk
    exact ih hnested hle (Nat.le_of_succ_le hj) (hpassed.inner fun y => .parentheses)
  | reference halias _ ih =>
    intro d k j open_ hnested hk hj hpassed
    obtain ⟨d, k, rfl, rfl, hle⟩ := hnested.exists_succ hk
    obtain ⟨hstep, hinner⟩ := resolveWithin_reference hm halias hpassed k
    rw [hstep]
    exact ih (hnested _ halias.found) hle (Nat.le_of_succ_le hj) hinner

/-- **Groups of branches.** A union behind parentheses and aliases among the branches of another may be taken apart, if
it has a branch that is not null or undefined. -/
theorem resolve?_group (hm : SoundAliases m) {xs ys : List Node} (hgroup : Group m t branches)
    (hsome : ∃ b ∈ branches, isNullish b = false)
    (hnested : NestedBelow (TypeScope.ofModule m) walkDepth (.unionType span (xs ++ t :: ys))) :
    (TypeScope.ofModule m).resolve? (.unionType span (xs ++ t :: ys)) =
      (TypeScope.ofModule m).resolve? (.unionType span' (xs ++ (branches ++ ys))) := by
  have ht : NestedBelow (TypeScope.ofModule m) (walkDepth - 1) t :=
    hnested t (List.mem_append_right xs List.mem_cons_self)
  have hkind := resolveWithin_group hm hgroup ht (Nat.sub_le walkDepth 1) (Nat.sub_le walkDepth 1) (.start m t)
  have hkinds : (branches.filter (!isNullish ·)).map (resolveWithin (TypeScope.ofModule m) walkDepth []) ≠ [] := by
    obtain ⟨b, hb, hnullish⟩ := hsome
    have hmem : b ∈ branches.filter (!isNullish ·) := List.mem_filter.2 ⟨hb, by rw [hnullish]; rfl⟩
    exact List.ne_nil_of_mem (List.mem_map_of_mem hmem)
  have hlisted : ∀ kind ∈ (branches.filter (!isNullish ·)).map (resolveWithin (TypeScope.ofModule m) walkDepth []),
      Listed kind := by
    intro kind hmem
    obtain ⟨b, -, rfl⟩ := List.mem_map.1 hmem
    exact listed_resolveWithin _ _ _ _
  have hkeep : (!isNullish t) = true := by
    rw [hgroup.not_nullish]
    rfl
  simp only [TypeScope.resolve?, resolveWithin, List.filter_append, List.filter_cons, hkeep, if_true, List.map_append,
    List.map_cons, hkind, unionKind?_group hkinds hlisted]

/-- **Aliases say what they stand for.** Written out or not, references leave the kinds of all types as they are, and a
union may be taken out of its parentheses and aliases into the union around it. -/
theorem resolve?_transparent (hm : SoundAliases m) :
    (∀ m' t t', List.Forall₂ (Unfolds m) m.items m'.items → Unfolds m t t' →
      (TypeScope.ofModule m').resolve? t' = (TypeScope.ofModule m).resolve? t) ∧
    ∀ span span' xs ys t branches, Group m t branches → (∃ b ∈ branches, isNullish b = false) →
      NestedBelow (TypeScope.ofModule m) walkDepth (.unionType span (xs ++ t :: ys)) →
      (TypeScope.ofModule m).resolve? (.unionType span (xs ++ t :: ys)) =
        (TypeScope.ofModule m).resolve? (.unionType span' (xs ++ (branches ++ ys))) :=
  ⟨fun _ t t' hitems ht => resolveWithin_unfolded hm hitems _ [] [] t t' ht (.start m t),
    fun _ _ _ _ _ _ hgroup hsome hnested => resolve?_group hm hgroup hsome hnested⟩

/-- a text of one character, as a type -/
def textType (start : Nat) (value : String) : Node :=
  .literalType ⟨start, start + 3⟩ (.strLit ⟨start, start + 3⟩ value)

/-- `"a" | "b"` -/
def letters : Node := .unionType ⟨10, 19⟩ [textType 10 "a", textType 16 "b"]

/-- `null` -/
def nullType : Node := .keywordType ⟨30, 34⟩ "null"

/-- `type AB = "a" | "b";` and `type N = null;` -/
def lettersModule : Syntax.Module := ⟨[.typeAlias ⟨0, 20⟩ "AB" [] letters, .typeAlias ⟨21, 35⟩ "N" [] nullType]⟩

theorem localAlias_letters (h : LocalAlias lettersModule name body) :
    name = "AB" ∧ body = letters ∨ name = "N" ∧ body = nullType := by
  obtain ⟨item, hitem, span, hdeclared⟩ := h.declared
  simp only [lettersModule, List.mem_cons, List.not_mem_nil, or_false] at hitem
  rcases hitem with rfl | rfl <;> cases hdeclared
  · exact .inl ⟨rfl, rfl⟩
  · exact .inr ⟨rfl, rfl⟩

theorem soundAliases_letters : SoundAliases lettersModule where
  acyclic := by
    intro name body halias hcycle
    obtain ⟨y, ⟨_, hfind, hleads⟩, -⟩ := Relation.TransGen.head'_iff.1 hcycle
    cases halias.found.symm.trans hfind
    rcases localAlias_letters halias with ⟨rfl, rfl⟩ | ⟨rfl, rfl⟩
    · obtain _ | _ | _ | ⟨hb, hleads⟩ := hleads
      simp only [List.mem_cons, List.not_mem_nil, or_false] at hb
      rcases hb with rfl | rfl <;> cases hleads
    · cases hleads
  distinct := by
    intro name body halias
    rcases localAlias_letters halias with ⟨rfl, -⟩ | ⟨rfl, -⟩ <;> decide

theorem localAlias_ab : LocalAlias lettersModule "AB" letters :=
  ⟨⟨_, .head _, ⟨0, 20⟩, rfl⟩, rfl⟩

/-- `AB | "c"`, `("a" | "b") | "c"` and `"a" | "b" | "c"` -/
theorem resolve?_transparent_letters : SoundAliases lettersModule ∧
    (TypeScope.ofModule lettersModule).resolve?
        (.unionType ⟨45, 53⟩ [.parenthesizedType ⟨45, 47⟩ letters, textType 50 "c"]) =
      (TypeScope.ofModule lettersModule).resolve?
        (.unionType ⟨45, 53⟩ [.namedType ⟨45, 47⟩ "AB" [], textType 50 "c"]) ∧
    (TypeScope.ofModule lettersModule).resolve?
        (.unionType ⟨45, 53⟩ [.namedType ⟨45, 47⟩ "AB" [], textType 50 "c"]) =
      (TypeScope.ofModule lettersModule).resolve?
        (.unionType ⟨10, 53⟩ [textType 10 "a", textType 16 "b", textType 50 "c"]) := by
  obtain ⟨hunfolded, hgrouped⟩ := resolve?_transparent soundAliases_letters
  refine ⟨soundAliases_letters, hunfolded lettersModule _ _ ?_ ?_, ?_⟩
  · exact List.forall₂_same.2 fun n _ => .refl lettersModule n
  · exact .parts (.cons (.reference localAlias_ab (.refl _ _)) (.cons (.refl _ _) .nil)) rfl
  · refine hgrouped ⟨45, 53⟩ ⟨10, 53⟩ [] [textType 50 "c"] _ _ (.reference localAlias_ab .union) ⟨_, .head _, rfl⟩ ?_
    intro b hb
    simp only [List.nil_append, List.mem_cons, List.not_mem_nil, or_false] at hb
    rcases hb with rfl | rfl
    · intro body hfind
      cases localAlias_ab.found.symm.trans hfind
      intro b hb
      simp only [List.mem_cons, List.not_mem_nil, or_false] at hb
      rcases hb with rfl | rfl <;> trivial
    · trivial

/-- **Null by another name.** Among the branches of a union null is left out; an alias of null is not, and counts as a
branch that has no kind. -/
theorem nullish_alias_resolves : SoundAliases lettersModule ∧ LocalAlias lettersModule "N" nullType ∧
    (TypeScope.ofModule lettersModule).resolve?
        (.unionType ⟨45, 52⟩ [textType 45 "a", .namedType ⟨51, 52⟩ "N" []]) = some .string ∧
    (TypeScope.ofModule lettersModule).resolve?
        (.unionType ⟨45, 52⟩ [textType 45 "a", .parenthesizedType ⟨51, 52⟩ nullType]) =
      some (.enumeration [.string "a"]) :=
  ⟨soundAliases_letters, ⟨⟨_, .tail _ (.head _), ⟨21, 35⟩, rfl⟩, rfl⟩, rfl, rfl⟩

end TsxWorkbench.Analysis
