/-
Kinds of unions. The kind of a union is an enumeration of all values if its branches are enumerations of texts or of
numbers, and else the kind of the first branch that has one (`unionKind?_eq`).

- `unionKind?_group`: branches in a group of their own count as if they stood among the others.
- `listed_resolveWithin`: an enumeration that a type is found to be lists a value.
-/
import TsxWorkbench.Analysis.TypeScope
import TsxWorkbench.Proofs.Text.Sorting

namespace TsxWorkbench.Analysis

open Syntax Text

variable {ks a g b : List (Option PropType)}

/-! ## Enumerations -/

/-- values of the enumerations among kinds -/
def valuesOf (ks : List (Option PropType)) : List Json := (ks.filterMap id).flatMap fun p => (p.values?).getD []

/-- kinds are all enumerations, and their values all texts or all numbers -/
def enumerates (ks : List (Option PropType)) : Bool :=
  ks.all (fun k => k.any PropType.isEnumeration) && ((valuesOf ks).all isTextValue || (valuesOf ks).all isNumberValue)

theorem valuesOf_enumeration (vs : List Json) (ks : List (Option PropType)) :
    valuesOf (some (.enumeration vs) :: ks) = vs ++ valuesOf ks := rfl

theorem valuesOf_append (ks ls : List (Option PropType)) : valuesOf (ks ++ ls) = valuesOf ks ++ valuesOf ls := by
  simp [valuesOf]

/-- a union is an enumeration, or it has the kind of its first branch that has one -/
theorem unionKind?_eq (h : ks ≠ []) : unionKind? ks =
    if enumerates ks then some (.enumeration (valuesOf ks).eraseDups)
    else (ks.filterMap id).head?.map PropType.base := by
  obtain ⟨k, rest, rfl⟩ := List.exists_cons_of_ne_nil h
  have hunfold : unionKind? (k :: rest) =
      if enumerates (k :: rest) then some (.enumeration (valuesOf (k :: rest)).eraseDups)
      else if (k :: rest).all fun b => b == some .boolean then some .boolean
      else ((k :: rest).filterMap id).head?.map PropType.base := rfl
  rw [hunfold]
  split
  · rfl
  · split
    · rename_i hboolean
      rw [List.all_cons, Bool.and_eq_true] at hboolean
      obtain _ | p := k
      · cases hboolean.1
      · cases p with
        | boolean => rfl
        | _ => cases hboolean.1
    · rfl

theorem unionKind?_of_enumerates (h : ks ≠ []) (henum : enumerates ks = true) :
    unionKind? ks = some (.enumeration (valuesOf ks).eraseDups) := by
  rw [unionKind?_eq h, if_pos henum]

theorem isEnumeration_base (p : PropType) : p.base.isEnumeration = false := by
  cases p with
  | enumeration vs => cases hnumbers : vs.all isNumberValue <;> simp [PropType.base, hnumbers, PropType.isEnumeration]
  | _ => rfl

theorem base_base (p : PropType) : p.base.base = p.base := by
  have h := isEnumeration_base p
  cases hp : p.base with
  | enumeration vs =>
    rw [hp] at h
    cases h
  | _ => rfl

theorem any_isEnumeration_unionKind? (h : ks ≠ []) : (unionKind? ks).any PropType.isEnumeration = enumerates ks := by
  rw [unionKind?_eq h]
  split
  · rename_i henum
    rw [henum]
    rfl
  · rename_i henum
    rw [eq_false_of_ne_true henum]
    cases (ks.filterMap id).head? with
    | none => rfl
    | some p => exact isEnumeration_base p

/-- an enumeration lists a value -/
def Listed (k : Option PropType) : Prop := k ≠ some (.enumeration [])

theorem isNumberValue_of_isTextValue {v : Json} (h : isTextValue v = true) : isNumberValue v = false := by
  cases v <;> first | rfl | cases h

/-- the first of several enumerations -/
theorem enumeration_of_enumerates {k : Option PropType} (h : enumerates (k :: ks) = true) :
    ∃ vs, k = some (.enumeration vs) ∧ ∀ v ∈ vs, v ∈ valuesOf (k :: ks) := by
  unfold enumerates at h
  rw [List.all_cons, Bool.and_eq_true, Bool.and_eq_true] at h
  obtain _ | _ | _ | _ | _ | _ | vs := k <;> try cases h.1.1
  exact ⟨vs, rfl, fun v hv => valuesOf_enumeration vs ks ▸ List.mem_append_left _ hv⟩

/-- a union has the base of its first branch that has a kind -/
theorem map_base_unionKind? (h : ks ≠ []) (hlisted : ∀ k ∈ ks, Listed k) :
    (unionKind? ks).map PropType.base = (ks.filterMap id).head?.map PropType.base := by
  rw [unionKind?_eq h]
  split
  · rename_i henum
    obtain ⟨k, rest, rfl⟩ := List.exists_cons_of_ne_nil h
    obtain ⟨vs, rfl, hmem⟩ := enumeration_of_enumerates henum
    have hvalues := Bool.or_eq_true_iff.1 (Bool.and_eq_true_iff.1 henum).2
    obtain ⟨v, hv⟩ := List.exists_mem_of_ne_nil vs fun hnil => hlisted _ List.mem_cons_self (by rw [hnil])
    -- the values of the first branch tell whether all are numbers, because there is one
    have hnumbers : (valuesOf (some (.enumeration vs) :: rest)).all isNumberValue = vs.all isNumberValue := by
      rw [Bool.eq_iff_iff, List.all_eq_true, List.all_eq_true]
      refine ⟨fun hall w hw => hall w (hmem w hw), fun hall => ?_⟩
      refine List.all_eq_true.1 (hvalues.resolve_left fun htexts => ?_)
      have hnumber := hall v hv
      rw [isNumberValue_of_isTextValue (List.all_eq_true.1 htexts v (hmem v hv))] at hnumber
      cases hnumber
    simp only [Option.map_some, PropType.base, all_eraseDups, hnumbers]
    rfl
  · rw [Option.map_map]
    exact congrArg (Option.map · _) (funext base_base)

theorem enumerates_of_group (h : enumerates (a ++ (g ++ b)) = true) : enumerates g = true := by
  unfold enumerates at h ⊢
  simp only [valuesOf_append, List.all_append, Bool.and_eq_true, Bool.or_eq_true] at h ⊢
  exact ⟨h.1.2.1, h.2.imp (fun h => h.2.1) fun h => h.2.1⟩

theorem enumerates_group (hg : g ≠ []) : enumerates (a ++ unionKind? g :: b) = enumerates (a ++ (g ++ b)) := by
  cases henum : enumerates g with
  | true =>
    have hall : g.all (fun k => k.any PropType.isEnumeration) = true := (Bool.and_eq_true_iff.1 henum).1
    simp only [enumerates, unionKind?_of_enumerates hg henum, valuesOf_append, valuesOf_enumeration, List.all_append,
      List.all_cons, all_eraseDups, hall, Option.any_some, PropType.isEnumeration, Bool.true_and]
  | false =>
    have hkind := any_isEnumeration_unionKind? hg
    have hright : enumerates (a ++ (g ++ b)) = false := by
      refine eq_false_of_ne_true fun h => ?_
      rw [enumerates_of_group h] at henum
      cases henum
    rw [hright, enumerates, List.all_append, List.all_cons, hkind, henum, Bool.false_and, Bool.and_false,
      Bool.false_and]

/-- **Groups.** Branches in a group of their own count as if they stood among the others. -/
theorem unionKind?_group (hg : g ≠ []) (hlisted : ∀ k ∈ g, Listed k) :
    unionKind? (a ++ unionKind? g :: b) = unionKind? (a ++ (g ++ b)) := by
  have hleft : a ++ unionKind? g :: b ≠ [] := by simp
  have hright : a ++ (g ++ b) ≠ [] := by simp [hg]
  rw [unionKind?_eq hleft, unionKind?_eq hright, enumerates_group hg]
  split
  · rename_i henum
    rw [unionKind?_of_enumerates hg (enumerates_of_group henum), valuesOf_append, valuesOf_append, valuesOf_append,
      valuesOf_enumeration, eraseDups_group]
  · have hhead : ((unionKind? g :: b).filterMap id).head? = (unionKind? g).or (b.filterMap id).head? := by
      cases unionKind? g <;> rfl
    simp only [List.filterMap_append, List.head?_append, hhead, Option.map_or, map_base_unionKind? hg hlisted]

/-! ## Types -/

theorem listed_unionKind? (hlisted : ∀ k ∈ ks, Listed k) : Listed (unionKind? ks) := by
  by_cases h : ks = []
  · subst h
    exact nofun
  rw [unionKind?_eq h]
  split
  · rename_i henum
    intro heq
    obtain ⟨k, rest, rfl⟩ := List.exists_cons_of_ne_nil h
    obtain ⟨vs, rfl, hmem⟩ := enumeration_of_enumerates henum
    obtain ⟨v, hv⟩ := List.exists_mem_of_ne_nil vs fun hnil => hlisted _ List.mem_cons_self (by rw [hnil])
    have hnone := List.mem_eraseDups.2 (hmem v hv)
    rw [PropType.enumeration.inj (Option.some.inj heq)] at hnone
    cases hnone
  · intro heq
    obtain ⟨p, -, hp⟩ := Option.map_eq_some_iff.1 heq
    have hbase := isEnumeration_base p
    rw [hp] at hbase
    cases hbase

theorem listed_keywordKind? (name : String) : Listed (keywordKind? name) := by
  unfold keywordKind?
  repeat' split
  all_goals exact nofun

theorem listed_builtinKind? (name : String) : Listed (builtinKind? name) := by
  unfold builtinKind?
  repeat' split
  all_goals exact nofun

theorem listed_literalKind? (n : Node) : Listed (literalKind? n) := by
  intro h
  unfold literalKind? at h
  split at h
  · cases h
  · obtain ⟨v, -, hv⟩ := Option.map_eq_some_iff.1 h
    cases hv
  · cases h
  · cases h
  · cases h

/-- an enumeration that a type is found to be lists a value -/
theorem listed_resolveWithin (scope : TypeScope) (k : Nat) (open_ : List String) (t : Node) :
    Listed (resolveWithin scope k open_ t) := by
  induction k generalizing open_ t with
  | zero => exact nofun
  | succ k ih =>
    cases t with
    | keywordType span name => exact listed_keywordKind? name
    | literalType span literal => exact listed_literalKind? literal
    | parenthesizedType span inner => exact ih open_ inner
    | modifiedType span inner => exact ih open_ inner
    | unionType span branches =>
      refine listed_unionKind? fun kind hkind => ?_
      obtain ⟨b, -, rfl⟩ := List.mem_map.1 hkind
      exact ih open_ b
    | namedType span name args =>
      simp only [resolveWithin]
      have hbuiltin := listed_builtinKind? name
      cases hname : builtinKind? name with
      | some kind =>
        rw [hname] at hbuiltin
        exact hbuiltin
      | none =>
        dsimp only
        split
        · exact nofun
        · split
          · exact ih _ _
          · exact nofun
          · exact nofun
    | _ => exact nofun

end TsxWorkbench.Analysis
