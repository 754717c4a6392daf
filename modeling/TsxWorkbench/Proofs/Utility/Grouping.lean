/-
Rules in a style sheet. They are sorted by the rank of their conditions and neighbours with one condition share a
block, so the sheet has the rules without a condition first and then one block for each condition that occurs.

- `mergeSort_eq_flatMap`: sorting by a number puts the lists of all items with one number one after the other, each in
  the order that it had.
- `sheetText_flatMap`: groups of rules with different conditions are blocks of their own.
- `Variants.ofNames_holds`: a condition holds for a page if and only if all variants that it was gathered from do.
- `compile_grouped`: the style sheet of a list of classes.
-/
import Mathlib.Data.Rat.Cast.Order
import TsxWorkbench.Proofs.Utility.Sheet

namespace TsxWorkbench.Utility

/-! ## Sorting by a number -/

section

variable {α : Type} {key : α → Nat} {l : List α} {n : Nat}

/-- a sorted list is what is below a bound and then what is at it, if there is nothing above -/
theorem filter_append_of_sorted (hsorted : l.Pairwise fun a b => key a ≤ key b) (hlt : ∀ a ∈ l, key a < n + 1) :
    (l.filter fun a => key a < n) ++ (l.filter fun a => key a = n) = l := by
  induction l with
  | nil => rfl
  | cons a l ih =>
    rw [List.pairwise_cons] at hsorted
    rw [List.forall_mem_cons] at hlt
    by_cases ha : key a < n
    · simp [ha, Nat.ne_of_lt ha, ih hsorted.2 hlt.2]
    · have hlast : ∀ b ∈ a :: l, key b = n := by
        rw [List.forall_mem_cons]
        refine ⟨by omega, fun b hb => ?_⟩
        have hle := hsorted.1 b hb
        have hbound := hlt.2 b hb
        omega
      rw [List.filter_eq_nil_iff.2 fun b hb => by simp [hlast b hb],
        List.filter_eq_self.2 fun b hb => by simp [hlast b hb], List.nil_append]

theorem eq_flatMap_of_sorted (hsorted : l.Pairwise fun a b => key a ≤ key b) (hlt : ∀ a ∈ l, key a < n) :
    l = (List.range n).flatMap fun k => l.filter fun a => key a = k := by
  induction n generalizing l with
  | zero => exact List.eq_nil_iff_forall_not_mem.2 fun a ha => Nat.not_lt_zero _ (hlt a ha)
  | succ n ih =>
    have hbelow := ih (hsorted.filter fun a => key a < n) fun a ha => by simpa using (List.mem_filter.1 ha).2
    have hsame : ∀ k ∈ List.range n, ((l.filter fun a => key a < n).filter fun a => key a = k) =
        l.filter fun a => key a = k := by
      intro k hk
      rw [List.filter_filter]
      refine List.filter_congr fun a _ => ?_
      have := List.mem_range.1 hk
      rw [Bool.eq_iff_iff, Bool.and_eq_true, decide_eq_true_eq, decide_eq_true_eq]
      omega
    rw [List.flatMap_congr hsame] at hbelow
    rw [List.range_succ, List.flatMap_append, List.flatMap_singleton, ← hbelow]
    exact (filter_append_of_sorted hsorted hlt).symm

/-- sorting keeps the order of items with one number -/
theorem filter_mergeSort (k : Nat) : ((l.mergeSort fun a b => key a ≤ key b).filter fun a => key a = k) =
    l.filter fun a => key a = k := by
  have hequal : (l.filter fun a => key a = k).Pairwise fun a b => decide (key a ≤ key b) = true := by
    refine List.pairwise_of_forall_mem_list fun a ha b hb => ?_
    have ha := (List.mem_filter.1 ha).2
    have hb := (List.mem_filter.1 hb).2
    rw [decide_eq_true_eq] at ha hb ⊢
    omega
  have hsub : (l.filter fun a => key a = k).Sublist (l.mergeSort fun a b => key a ≤ key b) :=
    List.sublist_mergeSort (by simp; omega) (by simp; omega) hequal List.filter_sublist
  have hinside := hsub.filter fun a => decide (key a = k)
  rw [List.filter_filter] at hinside
  simp only [Bool.and_self] at hinside
  exact (hinside.eq_of_length ((List.mergeSort_perm l _).filter _).length_eq.symm).symm

/-- **Sorting by a number.** -/
theorem mergeSort_eq_flatMap (hlt : ∀ a ∈ l, key a < n) :
    (l.mergeSort fun a b => key a ≤ key b) = (List.range n).flatMap fun k => l.filter fun a => key a = k := by
  have hsorted : (l.mergeSort fun a b => key a ≤ key b).Pairwise fun a b => decide (key a ≤ key b) = true :=
    List.pairwise_mergeSort (by simp; omega) (by simp; omega) l
  calc (l.mergeSort fun a b => key a ≤ key b)
      = (List.range n).flatMap fun k => (l.mergeSort fun a b => key a ≤ key b).filter fun a => key a = k :=
        eq_flatMap_of_sorted (by simpa using hsorted) fun a ha => hlt a (List.mem_mergeSort.1 ha)
    _ = _ := List.flatMap_congr fun k _ => filter_mergeSort k

end

/-! ## Conditions -/

/-- what a media condition asks of a page -/
inductive Feature where
  | minWidth (px : Nat)
  | dark
deriving DecidableEq, Repr

def Feature.text : Feature → List Char
  | .minWidth px => ("(min-width: " ++ toString px ++ "px)").toList
  | .dark => "(prefers-color-scheme: dark)".toList

/-- a page by its width in pixels, and whether its reader prefers dark colours -/
structure Page where
  width : ℚ
  dark : Bool
deriving DecidableEq, Repr

def Feature.Holds (page : Page) : Feature → Prop
  | .minWidth px => px ≤ page.width
  | .dark => page.dark = true

/-- width of a breakpoint in pixels -/
def breakpointWidth (i : Nat) : Nat := (breakpoints[i]?.map Prod.snd).getD 0

/-- the feature that a variant asks for -/
def variantFeature? (name : List Char) : Option Feature :=
  if String.ofList name = "dark" then some .dark else (breakpoints.lookup (String.ofList name)).map .minWidth

namespace Media

def features (m : Media) : List Feature :=
  (m.breakpoint.elim [] fun i => [.minWidth (breakpointWidth i)]) ++ if m.dark then [.dark] else []

/-- a condition holds for a page if all its features do -/
def Holds (page : Page) (m : Media) : Prop := ∀ f ∈ m.features, f.Holds page

theorem holds_iff {page : Page} {m : Media} : m.Holds page ↔
    (∀ i ∈ m.breakpoint, (Feature.minWidth (breakpointWidth i)).Holds page) ∧ (m.dark = true → page.dark = true) := by
  obtain ⟨breakpoint, dark⟩ := m
  cases breakpoint <;> cases dark <;> simp [Holds, features, Feature.Holds]

/-- text of a condition with features -/
def conditionText (m : Media) : List Char := List.intercalate " and ".toList (m.features.map Feature.text)

theorem text?_eq (m : Media) : m.text? = if m.features = [] then none else some m.conditionText := by
  obtain ⟨breakpoint, dark⟩ := m
  cases breakpoint <;> cases dark <;> rfl

/-- the conditions of a style sheet in their order -/
def conditions : List Media :=
  ⟨none, true⟩ :: (List.range breakpoints.length).flatMap fun i => [⟨some i, false⟩, ⟨some i, true⟩]

example : conditions.map conditionText = ["(prefers-color-scheme: dark)".toList, "(min-width: 640px)".toList,
    "(min-width: 640px) and (prefers-color-scheme: dark)".toList, "(min-width: 768px)".toList,
    "(min-width: 768px) and (prefers-color-scheme: dark)".toList, "(min-width: 1024px)".toList,
    "(min-width: 1024px) and (prefers-color-scheme: dark)".toList, "(min-width: 1280px)".toList,
    "(min-width: 1280px) and (prefers-color-scheme: dark)".toList, "(min-width: 1536px)".toList,
    "(min-width: 1536px) and (prefers-color-scheme: dark)".toList] := by
  decide +kernel

theorem rank_injective {m m' : Media} (h : m.rank = m'.rank) : m = m' := by
  obtain ⟨breakpoint, dark⟩ := m
  obtain ⟨breakpoint', dark'⟩ := m'
  cases breakpoint <;> cases breakpoint' <;> cases dark <;> cases dark' <;> simp [rank] at h ⊢ <;> omega

theorem map_rank_conditions : (always :: conditions).map rank = List.range 12 := by
  decide

/-- a condition of a known breakpoint, or of none -/
def Known (m : Media) : Prop := ∀ i ∈ m.breakpoint, i < breakpoints.length

theorem Known.rank_lt {m : Media} (h : m.Known) : m.rank < 12 := by
  obtain ⟨breakpoint, dark⟩ := m
  cases breakpoint with
  | none => cases dark <;> simp [rank]
  | some i =>
    have hi : i < 5 := h i rfl
    cases dark <;> simp [rank] <;> omega

end Media

/-! ## Variants -/

variable {page : Page}

theorem breakpointWidth_max : ∀ i < breakpoints.length, ∀ j < breakpoints.length,
    breakpointWidth (max i j) = max (breakpointWidth i) (breakpointWidth j) := by
  decide

theorem lookup_eq_findIdx? (table : List (String × Nat)) (word : String) :
    table.lookup word = (table.findIdx? fun b => b.1 == word).map fun i => (table[i]?.map Prod.snd).getD 0 := by
  induction table with
  | nil => rfl
  | cons b table ih =>
    rw [List.lookup_cons, List.findIdx?_cons]
    by_cases hb : word = b.1
    · simp [hb]
    · simp [beq_false_of_ne hb, Ne.symm hb, ih, Function.comp_def]

/-- a variant adds what it asks for to the condition -/
theorem Variants.add_holds {v v' : Variants} {name : List Char} (hknown : v.media.Known) (h : v.add name = some v') :
    v'.media.Known ∧ (v'.media.Holds page ↔ v.media.Holds page ∧ ∀ f ∈ variantFeature? name, f.Holds page) := by
  unfold Variants.add at h
  dsimp only at h
  rw [Media.holds_iff, Media.holds_iff]
  split at h
  · rename_i hdark
    cases h
    have hfeature : variantFeature? name = some .dark := by rw [variantFeature?, if_pos hdark]
    refine ⟨hknown, ?_⟩
    simp only [hfeature, Option.mem_some_iff, forall_eq', Feature.Holds, forall_const, and_assoc, and_congr_right_iff]
    exact fun _ => ⟨fun h => ⟨fun _ => h, h⟩, And.right⟩
  rename_i hdark
  split at h
  · rename_i i hfound
    cases h
    obtain ⟨hi, -, -⟩ := List.findIdx?_eq_some_iff_getElem.1 hfound
    have hfeature : variantFeature? name = some (.minWidth (breakpointWidth i)) := by
      rw [variantFeature?, if_neg hdark, lookup_eq_findIdx?, hfound]
      rfl
    rw [hfeature]
    cases hbreakpoint : v.media.breakpoint with
    | none =>
      refine ⟨fun j hj => ?_, by simp [and_comm]⟩
      cases hj
      exact hi
    | some j =>
      have hj : j < breakpoints.length := hknown j hbreakpoint
      refine ⟨fun k hk => ?_, ?_⟩
      · cases hk
        exact Nat.max_lt.2 ⟨hj, hi⟩
      · have hboth : (Feature.minWidth (breakpointWidth (max j i))).Holds page ↔
            (Feature.minWidth (breakpointWidth j)).Holds page ∧ (Feature.minWidth (breakpointWidth i)).Holds page := by
          simp only [Feature.Holds, breakpointWidth_max j hj i hi, Nat.cast_max, max_le_iff]
        simp only [Option.elim_some, Option.mem_some_iff, forall_eq', hboth]
        exact and_right_comm
  · rename_i hnone
    obtain ⟨p, -, rfl⟩ := Option.map_eq_some_iff.1 h
    have hfeature : variantFeature? name = none := by
      rw [variantFeature?, if_neg hdark, lookup_eq_findIdx?, hnone]
      rfl
    exact ⟨hknown, by simp [hfeature]⟩

/-- **Conditions.** The condition of variants holds for a page if and only if everything holds that they ask for. -/
theorem Variants.ofNames_holds (page : Page) {names : List (List Char)} {v : Variants}
    (h : Variants.ofNames names = some v) :
    v.media.Known ∧ (v.media.Holds page ↔ ∀ name ∈ names, ∀ f ∈ variantFeature? name, f.Holds page) := by
  induction names using List.reverseRecOn generalizing v with
  | nil =>
    cases h
    refine ⟨fun i hi => ?_, by simp [Media.holds_iff, Media.always]⟩
    cases hi
  | append_singleton names name ih =>
    rw [Variants.ofNames_concat] at h
    obtain ⟨before, hbefore, hadd⟩ := Option.bind_eq_some_iff.1 h
    obtain ⟨hknown, hholds⟩ := ih hbefore
    obtain ⟨hknown', hholds'⟩ := Variants.add_holds hknown hadd
    exact ⟨hknown', by rw [hholds', hholds, List.forall_mem_append, List.forall_mem_singleton]⟩

/-- the condition of a rule is a known one -/
theorem compileClass?_known {raw : List Char} {rule : Rule} (h : compileClass? raw = some rule) : rule.media.Known := by
  obtain ⟨variants, -, -, -, hvariants, -, -, hmedia, -, -⟩ := compileClass?_shape h
  rw [hmedia]
  exact (Variants.ofNames_holds ⟨0, false⟩ hvariants).1

/-! ## Groups -/

theorem flatMap_filter_of_eq_nil {α β : Type} {p : α → Bool} {f : α → List β} (h : ∀ a, p a = false → f a = [])
    (l : List α) : (l.filter p).flatMap f = l.flatMap f := by
  induction l with
  | nil => rfl
  | cons a l ih =>
    cases ha : p a with
    | true => rw [List.filter_cons_of_pos ha, List.flatMap_cons, List.flatMap_cons, ih]
    | false => rw [List.filter_cons_of_neg (by simp [ha]), List.flatMap_cons, h a ha, List.nil_append, ih]

variable {group : Media → List Rule} {ms : List Media}

/-- groups of rules with different conditions are not merged, and rules of one condition are not parted -/
theorem splitBy_flatMap (hnodup : ms.Nodup) (hgroup : ∀ m, ∀ rule ∈ group m, rule.media = m) :
    ((ms.flatMap group).splitBy fun a b => a.media == b.media) = (ms.map group).filter fun rules => !rules.isEmpty := by
  have hflat : ms.flatMap group = ((ms.map group).filter fun rules => !rules.isEmpty).flatten := by
    rw [List.flatten_filter_not_isEmpty, List.flatMap_def]
  have hfull : ∀ rules ∈ (ms.map group).filter fun rules => !rules.isEmpty, rules ≠ [] := by
    intro rules hrules hnil
    simpa [hnil] using (List.mem_filter.1 hrules).2
  have hmedia : (ms.map group).Pairwise fun a b => ∀ x ∈ a, ∀ y ∈ b, x.media ≠ y.media := by
    rw [List.pairwise_map]
    refine hnodup.imp fun {m m'} hne x hx y hy heq => hne ?_
    rw [← hgroup m x hx, ← hgroup m' y hy, heq]
  rw [hflat]
  apply List.splitBy_flatten
  · exact fun hnil => hfull [] hnil rfl
  · intro rules hrules
    obtain ⟨m, -, rfl⟩ := List.mem_map.1 (List.mem_filter.1 hrules).1
    refine (List.pairwise_of_forall_mem_list fun x hx y hy => ?_).isChain
    rw [hgroup m x hx, hgroup m y hy]
    exact beq_self_eq_true m
  · refine ((hmedia.filter _).imp_of_mem fun {a b} ha hb hne => ?_).isChain
    refine ⟨hfull a ha, hfull b hb, beq_eq_false_iff_ne.2 ?_⟩
    exact hne _ (List.getLast_mem _) _ (List.head_mem _)

/-- **Blocks.** Groups of rules with different conditions are blocks of their own. -/
theorem sheetText_flatMap (hnodup : ms.Nodup) (hgroup : ∀ m, ∀ rule ∈ group m, rule.media = m) :
    sheetText (ms.flatMap group) = ms.flatMap fun m => groupText (group m) := by
  have hempty : ∀ rules : List Rule, (!rules.isEmpty) = false → groupText rules = [] := by
    intro rules hrules
    have hnil : rules = [] := by simpa using hrules
    rw [hnil]
    rfl
  rw [sheetText_eq, splitBy_flatMap hnodup hgroup, flatMap_filter_of_eq_nil hempty, List.flatMap_map]

/-- text of the rules under a condition; a condition without rules has none -/
def Media.block (m : Media) (rules : List Rule) : List Char :=
  if rules.isEmpty then []
  else "@media ".toList ++ m.conditionText ++ " \x7b\n".toList ++ rules.flatMap (Rule.text "  ".toList) ++
    "\x7d\n".toList

theorem groupText_always {rules : List Rule} (h : ∀ rule ∈ rules, rule.media = .always) :
    groupText rules = rules.flatMap (Rule.text []) := by
  cases rules with
  | nil => rfl
  | cons rule rest =>
    rw [groupText, h rule List.mem_cons_self]
    rfl

theorem groupText_condition {rules : List Rule} {m : Media} (h : ∀ rule ∈ rules, rule.media = m)
    (hm : m ∈ Media.conditions) : groupText rules = m.block rules := by
  cases rules with
  | nil => rfl
  | cons rule rest =>
    have hfeatures : ∀ m ∈ Media.conditions, m.features ≠ [] := by decide
    rw [groupText, h rule List.mem_cons_self, blockText, Media.text?_eq, if_neg (hfeatures m hm)]
    rfl

/-! ## Style sheets -/

/-- rules of the classes that are understood and have a condition, in the order of the classes -/
def rulesUnder (m : Media) (classes : List (List Char)) : List Rule :=
  (classes.filterMap compileClass?).filter fun rule => rule.media = m

theorem media_of_mem_rulesUnder {m : Media} {classes : List (List Char)} :
    ∀ rule ∈ rulesUnder m classes, rule.media = m :=
  fun _ h => by simpa using (List.mem_filter.1 h).2

/-- the rules of a style sheet in their order -/
theorem sorted_rules (classes : List (List Char)) :
    ((classes.filterMap compileClass?).mergeSort fun a b => a.media.rank ≤ b.media.rank) =
      (Media.always :: Media.conditions).flatMap fun m => rulesUnder m classes := by
  have hknown : ∀ rule ∈ classes.filterMap compileClass?, rule.media.rank < 12 := by
    intro rule hrule
    obtain ⟨raw, -, hcompiled⟩ := List.mem_filterMap.1 hrule
    exact (compileClass?_known hcompiled).rank_lt
  rw [mergeSort_eq_flatMap hknown, ← Media.map_rank_conditions, List.flatMap_map]
  refine List.flatMap_congr fun m _ => List.filter_congr fun rule _ => ?_
  exact decide_eq_decide.2 ⟨Media.rank_injective, congrArg Media.rank⟩

/-- a list of classes whose style sheet has the rules that it should have, under the conditions that they should have -/
structure Grouped (classes : List (List Char)) : Prop where
  /-- rules without a condition stand first; then every condition that occurs has one block with the rules under it -/
  text : compile classes = (rulesUnder .always classes).flatMap (Rule.text []) ++
    Media.conditions.flatMap fun m => m.block (rulesUnder m classes)
  /-- no condition heads two blocks -/
  headsOnce : (Media.conditions.map Media.conditionText).Nodup
  /-- every class that is understood has its rule under one condition, once -/
  complete : ((Media.always :: Media.conditions).flatMap fun m => rulesUnder m classes).Perm
    (classes.filterMap compileClass?)
  /-- the condition of a class holds for a page if and only if everything holds that its variants ask for, whatever
  their order and however often they stand there -/
  conjunction : ∀ raw ∈ classes, ∀ rule, compileClass? raw = some rule → ∀ page, rule.media.Holds page ↔
    ∀ name ∈ (splitVariants raw).dropLast, ∀ f ∈ variantFeature? name, f.Holds page

/-- **A style sheet is grouped by conditions.** For every list of classes, the rules without a condition come first and
then one block for each condition that occurs, in the order of the conditions; the rules in each keep the order of their
classes, and none is lost or written twice. The condition of a class is the conjunction of its variants. -/
theorem compile_grouped (classes : List (List Char)) : Grouped classes where
  text := by
    have hnodup : (Media.always :: Media.conditions).Nodup := by decide
    rw [compile, sorted_rules, sheetText_flatMap hnodup fun m => media_of_mem_rulesUnder, List.flatMap_cons,
      groupText_always media_of_mem_rulesUnder]
    congr 1
    exact List.flatMap_congr fun m hm => groupText_condition media_of_mem_rulesUnder hm
  headsOnce := by decide +kernel
  complete := by
    rw [← sorted_rules]
    exact List.mergeSort_perm _ _
  conjunction := by
    intro raw _ rule h page
    obtain ⟨variants, -, -, -, hvariants, -, -, hmedia, -, -⟩ := compileClass?_shape h
    rw [hmedia]
    exact (Variants.ofNames_holds page hvariants).2

end TsxWorkbench.Utility
