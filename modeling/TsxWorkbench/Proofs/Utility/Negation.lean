/-
Negative forms of utilities. A name with a negative form sets all its properties to one value (`resolve?_signed`), and
the negative form sets the same properties to the opposite: where the value denotes a number or a length, the other one
denotes the same with the other sign (`resolve?_opposites`). Levels and orders are the exception: a value in square
brackets and the first and the last order are set as they are (`KeepsSign`).

The compiler resolves utilities on a machine, and so does `Machine.resolve_opposites`: the negative form is the same
there, except that the least level has none, as its opposite has no room. `Machine.resolve_bracketed_level` is a level
that keeps its sign.
-/
import Mathlib.Data.List.Forall2
import TsxWorkbench.Proofs.Utility.Machine.Resolve
import TsxWorkbench.Proofs.Utility.Measure

namespace TsxWorkbench.Utility

open Number Text

section

variable {K : Type} [Field K] [LinearOrder K] {sizes : Sizes K} {q : Quantity K} {value v : List Char} {name : String}

/-! ## Values -/

/-- if the first value denotes a number or a length, the second denotes the opposite of it, and is not the same text
unless it denotes zero -/
def Opposite (sizes : Sizes K) (v v' : List Char) : Prop :=
  ∀ q, measure? sizes v = some q → measure? sizes v' = some (-q) ∧ (q.size ≠ 0 → v' ≠ v)

theorem size_of_zeroPixels (h : measure? sizes "0px".toList = some q) : q.size = 0 := by
  obtain ⟨-, hq⟩ := (measure?_word (w := "0px".toList) (by decide)).1 h
  have hliteral : literal? sizes "0px".toList =
      (sizes.unit "px".toList).map fun size => ⟨((0 : ℕ) : K) * 10 ^ ((0 : Int) - (0 : ℕ)) * size, 1⟩ := rfl
  rw [hliteral] at hq
  obtain ⟨size, -, rfl⟩ := Option.map_eq_some_iff.1 hq
  simp

theorem measure?_auto (sizes : Sizes K) : measure? sizes "auto".toList = none := by
  cases h : measure? sizes "auto".toList with
  | none => rfl
  | some q => cases ((measure?_word (w := "auto".toList) (by decide)).1 h).2

/-- **The opposite of a value** denotes the opposite. -/
theorem opposite_negate (sizes : Sizes K) (v : List Char) : Opposite sizes v (negate v) := by
  intro q h
  unfold negate
  split
  · rename_i hsame
    rcases hsame with rfl | rfl
    · have hzero := size_of_zeroPixels h
      refine ⟨?_, fun hne => absurd hzero hne⟩
      have hopposite : -q = q := by
        apply Quantity.ext
        · rw [Quantity.size_neg, hzero, neg_zero]
        · rfl
      rw [h, hopposite]
    · rw [measure?_auto] at h
      cases h
  · split
    · rename_i hnumeric
      refine ⟨measure?_minus hnumeric h, fun _ heq => ?_⟩
      have hlength := congrArg List.length heq
      rw [List.length_cons] at hlength
      omega
    · refine ⟨measure?_calc h, fun _ heq => ?_⟩
      have hlength := congrArg List.length heq
      rw [List.length_append, List.length_append, show "calc(".toList.length = 5 from rfl] at hlength
      omega

theorem opposite_integer (sizes : Sizes K) (n : Int) :
    Opposite sizes (toString n).toList (toString (-n)).toList := by
  intro q h
  rw [measure?_integer] at h
  cases h
  refine ⟨?_, fun hne heq => ?_⟩
  · rw [measure?_integer, Int.cast_neg]
    rfl
  · have hsame : some (Quantity.number ((-n : Int) : ℚ)) = some (.number (n : ℚ)) := by
      rw [← measure?_integer ⟨fun _ => none, fun _ => none⟩, heq, measure?_integer]
    have hrat : ((-n : Int) : ℚ) = (n : ℚ) := congrArg Quantity.size (Option.some.inj hsame)
    have hzero : n = 0 := by
      have := Int.cast_injective hrat
      omega
    exact hne (by rw [hzero]; exact Int.cast_zero)

/-! ## Readers -/

theorem spacing?_negative (value : List Char) : spacing? value true = (spacing? value false).map negate := by
  rw [spacing?, spacing?, Option.map_map]
  rfl

theorem inset?_negative (value : List Char) : inset? value true = (inset? value false).map negate := by
  unfold inset?
  split
  · rfl
  · exact spacing?_negative value

theorem tracking?_negative (value : List Char) : tracking? value true = (tracking? value false).map negate := by
  rw [tracking?, tracking?, Option.map_map]
  rfl

/-! ## Levels and orders -/

/-- whole numbers whose sign the negative form leaves as it is: those in square brackets -/
def KeepsInteger (value : List Char) : Prop := (arbitrary? value).isSome = true

theorem integer?_kept (h : integer? value false = some v) (hkeeps : KeepsInteger value) :
    integer? value true = some v := by
  obtain ⟨inner, hinner⟩ := Option.isSome_iff_exists.1 hkeeps
  rw [integer?, hinner] at h ⊢
  exact h

theorem integer?_opposite (sizes : Sizes K) (h : integer? value false = some v)
    (hkeeps : ¬KeepsInteger value) : ∃ v', integer? value true = some v' ∧ Opposite sizes v v' := by
  rw [KeepsInteger, Option.not_isSome_iff_eq_none] at hkeeps
  rw [integer?, hkeeps] at h ⊢
  obtain ⟨n, hn, rfl⟩ := Option.map_eq_some_iff.1 h
  refine ⟨(toString (-n)).toList, ?_, opposite_integer sizes n⟩
  dsimp only
  rw [hn]
  rfl

/-- orders whose sign the negative form leaves as it is: also the first and the last -/
def KeepsOrder (value : List Char) : Prop :=
  KeepsInteger value ∨ value = "first".toList ∨ value = "last".toList

/-- a named order is the first, the last or zero -/
theorem order_names (h : named? [("first", "-9999"), ("last", "9999"), ("none", "0")] value = some v) :
    value = "first".toList ∨ value = "last".toList ∨ v = "0".toList := by
  obtain ⟨text, htext, rfl⟩ := Option.map_eq_some_iff.1 h
  have hrow : (String.ofList value, text) ∈ [("first", "-9999"), ("last", "9999"), ("none", "0")] := by
    obtain ⟨before, after, heq, -⟩ := List.lookup_eq_some_iff.1 htext
    rw [heq]
    exact List.mem_append_right _ List.mem_cons_self
  have hchars : (String.ofList value).toList = value := String.toList_ofList
  simp only [List.mem_cons, Prod.mk.injEq, List.not_mem_nil, or_false] at hrow
  rcases hrow with ⟨hname, -⟩ | ⟨hname, -⟩ | ⟨hname, rfl⟩
  · exact .inl (hchars.symm.trans (congrArg _ hname))
  · exact .inr (.inl (hchars.symm.trans (congrArg _ hname)))
  · exact .inr (.inr rfl)

theorem order?_kept (h : order? value false = some v) (hkeeps : KeepsOrder value) :
    order? value true = some v := by
  unfold order? at h ⊢
  split at h
  · exact h
  · rename_i hnames
    rcases hkeeps with hkeeps | rfl | rfl
    · exact integer?_kept h hkeeps
    · cases hnames
    · cases hnames

theorem order?_opposite (sizes : Sizes K) (h : order? value false = some v)
    (hkeeps : ¬KeepsOrder value) : ∃ v', order? value true = some v' ∧ Opposite sizes v v' := by
  rw [KeepsOrder, not_or, not_or] at hkeeps
  unfold order? at h ⊢
  split at h
  · rename_i w hnames
    cases h
    rcases order_names hnames with hfirst | hlast | rfl
    · exact absurd hfirst hkeeps.2.1
    · exact absurd hlast hkeeps.2.2
    · exact ⟨_, rfl, opposite_integer sizes 0⟩
  · exact integer?_opposite sizes h hkeeps.1

/-! ## Values by name -/

/-- value of a name with a negative form -/
def signedValue? (name : String) (value : List Char) (negative : Bool) : Option (List Char) :=
  if (marginSides.lookup name).isSome then
    if value = "auto".toList then some value else spacing? value negative
  else if (insetSides.lookup name).isSome then inset? value negative
  else match name with
    | "tracking" => tracking? value negative
    | "z" => if value = "auto".toList then some value else integer? value negative
    | "order" => order? value negative
    | _ => none

/-- values whose sign the negative form leaves as it is -/
def KeepsSign (name : String) (value : List Char) : Prop :=
  name = "z" ∧ KeepsInteger value ∨ name = "order" ∧ KeepsOrder value

/-- the keyword for an automatic size denotes no length -/
theorem opposite_auto (sizes : Sizes K) (v' : List Char) : Opposite sizes "auto".toList v' := by
  intro q h
  rw [measure?_auto] at h
  cases h

theorem opposite_map_negate (sizes : Sizes K) {read read' : Option (List Char)} (h : read = some v)
    (hread : read' = read.map negate) : ∃ v', read' = some v' ∧ Opposite sizes v v' := by
  rw [h] at hread
  exact ⟨negate v, hread, opposite_negate sizes v⟩

theorem signedValue?_kept (h : signedValue? name value false = some v)
    (hkeeps : KeepsSign name value) : signedValue? name value true = some v := by
  rcases hkeeps with ⟨rfl, hkeeps⟩ | ⟨rfl, hkeeps⟩
  · change (if value = "auto".toList then some value else integer? value false) = some v at h
    change (if value = "auto".toList then some value else integer? value true) = some v
    split at h
    · rename_i hauto
      rw [if_pos hauto, h]
    · rename_i hauto
      rw [if_neg hauto, integer?_kept h hkeeps]
  · exact order?_kept h hkeeps

/-- **Values by name.** The negative form has a value whenever the other form has one, and it is the opposite. -/
theorem signedValue?_opposite (sizes : Sizes K) (h : signedValue? name value false = some v)
    (hkeeps : ¬KeepsSign name value) : ∃ v', signedValue? name value true = some v' ∧ Opposite sizes v v' := by
  rw [KeepsSign, not_or, not_and, not_and] at hkeeps
  -- an automatic size is set by both forms, and no other reader is asked for it
  have hauto {read read' : Option (List Char)} (h : (if value = "auto".toList then some value else read) = some v)
      (hread : read = some v → ∃ v', read' = some v' ∧ Opposite sizes v v') :
      ∃ v', (if value = "auto".toList then some value else read') = some v' ∧ Opposite sizes v v' := by
    split at h
    · rename_i hvalue
      refine ⟨value, if_pos hvalue, ?_⟩
      rw [← Option.some.inj h, hvalue]
      exact opposite_auto sizes _
    · rename_i hvalue
      rw [if_neg hvalue]
      exact hread h
  unfold signedValue? at h ⊢
  by_cases hmargin : (marginSides.lookup name).isSome = true
  · rw [if_pos hmargin] at h ⊢
    exact hauto h fun h => opposite_map_negate sizes h (spacing?_negative value)
  by_cases hinset : (insetSides.lookup name).isSome = true
  · rw [if_neg hmargin, if_pos hinset] at h ⊢
    exact opposite_map_negate sizes h (inset?_negative value)
  rw [if_neg hmargin, if_neg hinset] at h ⊢
  split at h
  · exact opposite_map_negate sizes h (tracking?_negative value)
  · exact hauto h fun h => integer?_opposite sizes h (hkeeps.1 rfl)
  · exact order?_opposite sizes h (hkeeps.2 rfl)
  · cases h

/-! ## Utilities -/

theorem negatable_not_keyword : ∀ name ∈ negatable, ∀ k ∈ keywordNames,
    stripStart? (name ++ "-").toList k = none := by
  have hall := forall_mem_keywordNames
    (fun k => negatable.all fun name => (stripStart? (name ++ "-").toList k).isNone) (by decide +kernel)
  exact fun name hname k hk => Option.isNone_iff_eq_none.1 (List.all_eq_true.1 (hall k hk) name hname)

theorem keyword?_negatable {utility : List Char} (hname : splitName? utility = some (name, some value))
    (hnegatable : name ∈ negatable) : keyword? utility = none := by
  cases h : keyword? utility with
  | none => rfl
  | some ds =>
    rcases valueAfter?_cases (valueAfter?_of_splitName? hname) with ⟨-, hnone⟩ | ⟨v, hutility, -⟩
    · cases hnone
    · have hother := negatable_not_keyword name hnegatable utility (keyword?_mem h)
      rw [hutility, stripStart?_eq_some_iff.2 (rfl : namedClass name v = _ ++ v)] at hother
      cases hother

/-- a utility with a negative form sets the properties of its name to one value -/
theorem resolve?_signed {utility : List Char} (hname : splitName? utility = some (name, some value))
    (hnegatable : name ∈ negatable) :
    ∃ ps, ∀ negative, resolve? utility negative = (signedValue? name value negative).map (declareAll ps) := by
  have hpadding : ∀ n ∈ negatable, paddingSides.lookup n = none := by decide
  have hvalued : ∀ n ∈ negatable, marginSides.lookup n = none → insetSides.lookup n = none →
      n = "tracking" ∨ n = "z" ∨ n = "order" := by decide
  have hresolve (negative : Bool) : resolve? utility negative = (sides? name (some value) negative).getD
      (if name = "shadow" then one "box-shadow" (shadow? value) else valued? name value negative) := by
    have hfixed : (if negative then none else keyword? utility) = none := by
      rw [keyword?_negatable hname hnegatable, ite_self]
    have hallowed : ¬(negative && !negatable.contains name) = true := by
      simp [hnegatable]
    rw [resolve?, hfixed]
    dsimp only
    rw [hname]
    dsimp only
    rw [if_neg hallowed]
    cases sides? name (some value) negative <;> rfl
  simp only [hresolve]
  cases hmargin : marginSides.lookup name with
  | some ps =>
    refine ⟨ps, fun negative => ?_⟩
    simp [sides?, signedValue?, hpadding name hnegatable, hmargin]
  | none =>
    cases hinset : insetSides.lookup name with
    | some ps =>
      refine ⟨ps, fun negative => ?_⟩
      simp [sides?, signedValue?, hpadding name hnegatable, hmargin, hinset]
    | none =>
      rcases hvalued name hnegatable hmargin hinset with rfl | rfl | rfl
      · exact ⟨["letter-spacing"], fun _ => rfl⟩
      · exact ⟨["z-index"], fun _ => rfl⟩
      · exact ⟨["order"], fun _ => rfl⟩

/-- declarations of the same properties in the same order, with the opposite values -/
def OppositeDeclarations (sizes : Sizes K) : List Declaration → List Declaration → Prop :=
  List.Forall₂ fun d d' => d'.property = d.property ∧ Opposite sizes d.value d'.value

/-- **Negative forms.** The negative form of a utility is understood whenever the utility is. It declares the same where
the sign is left as it is, and elsewhere the same properties with the opposite values. -/
theorem resolve?_opposites (sizes : Sizes K) {utility : List Char} {ds : List Declaration}
    (hname : splitName? utility = some (name, some value)) (hnegatable : name ∈ negatable)
    (hds : resolve? utility false = some ds) : ∃ ds', resolve? utility true = some ds' ∧
      (KeepsSign name value → ds' = ds) ∧ (¬KeepsSign name value → OppositeDeclarations sizes ds ds') := by
  obtain ⟨ps, hps⟩ := resolve?_signed hname hnegatable
  rw [hps] at hds
  obtain ⟨v, hv, rfl⟩ := Option.map_eq_some_iff.1 hds
  by_cases hkeeps : KeepsSign name value
  · refine ⟨declareAll ps v, ?_, fun _ => rfl, fun hnot => absurd hkeeps hnot⟩
    rw [hps, signedValue?_kept hv hkeeps, Option.map_some]
  · obtain ⟨v', hv', hopposite⟩ := signedValue?_opposite sizes hv hkeeps
    refine ⟨declareAll ps v', ?_, fun h => absurd h hkeeps, fun _ => ?_⟩
    · rw [hps, hv', Option.map_some]
    · rw [OppositeDeclarations, declareAll, declareAll, List.forall₂_map_left_iff, List.forall₂_map_right_iff,
        List.forall₂_same]
      exact fun p _ => ⟨rfl, hopposite⟩

/-! ## On a machine -/

namespace Machine

/-- **Negative forms.** If the machine understands a utility with a negative form, then it understands the negative
form, and that declares the same where the sign is left as it is and elsewhere the same properties with the opposite
values. The one exception is the least level or order, whose negative form ends the run. -/
theorem resolve_opposites (sizes : Sizes K) {utility : List Char} {ds : List Declaration}
    (hname : splitName? utility = some (name, some value)) (hnegatable : name ∈ negatable)
    (hds : resolve utility false = .ok (some ds)) :
    (IsLeastLevel utility → resolve utility true = .error .overflow) ∧
    (¬IsLeastLevel utility → ∃ ds', resolve utility true = .ok (some ds') ∧
      (KeepsSign name value → ds' = ds) ∧ (¬KeepsSign name value → OppositeDeclarations sizes ds ds')) := by
  refine ⟨resolve_overflow, fun hleast => ?_⟩
  rw [resolve_positive] at hds
  obtain ⟨ds', hds', hsigns⟩ := resolve?_opposites sizes hname hnegatable (Except.ok.inj hds)
  refine ⟨ds', ?_, hsigns⟩
  rw [resolve_ok fun _ => hleast, hds']

theorem resolve_opposites_top : ¬KeepsSign "top" "[calc(50%_-_2px)]".toList ∧
    measure? pixelSizes "calc(50% - 2px)".toList = some ⟨198, 1⟩ ∧
      ∃ ds', resolve "top-[calc(50%_-_2px)]".toList true = .ok (some ds') ∧
        OppositeDeclarations pixelSizes [⟨"top", "calc(50% - 2px)".toList⟩] ds' := by
  have hkeeps : ¬KeepsSign "top" "[calc(50%_-_2px)]".toList := by
    rintro (⟨hz, -⟩ | ⟨horder, -⟩)
    · exact absurd hz (by decide)
    · exact absurd horder (by decide)
  have hname : splitName? "top-[calc(50%_-_2px)]".toList = some ("top", some "[calc(50%_-_2px)]".toList) := by
    decide +kernel
  have hds : resolve "top-[calc(50%_-_2px)]".toList false = .ok (some [⟨"top", "calc(50% - 2px)".toList⟩]) := by
    rw [resolve_positive]
    exact congrArg Except.ok (by decide +kernel)
  have hleast : ¬IsLeastLevel "top-[calc(50%_-_2px)]".toList := by decide +kernel
  obtain ⟨ds', hds', -, hopposite⟩ := (resolve_opposites pixelSizes hname (by decide) hds).2 hleast
  exact ⟨hkeeps, by decide +kernel, ds', hds', hopposite hkeeps⟩

/-- the negative form of a level in square brackets is no opposite -/
theorem resolve_bracketed_level : ¬∀ (utility value : List Char) (name : String) (ds ds' : List Declaration),
    splitName? utility = some (name, some value) → name ∈ negatable → resolve utility false = .ok (some ds) →
      resolve utility true = .ok (some ds') → OppositeDeclarations pixelSizes ds ds' := by
  intro h
  have hlevel (negative : Bool) : resolve "z-[5]".toList negative = .ok (some [⟨"z-index", ['5']⟩]) := by
    rw [resolve_ok fun _ => by decide]
    exact congrArg Except.ok (by cases negative <;> decide +kernel)
  have hsame : OppositeDeclarations pixelSizes [⟨"z-index", ['5']⟩] [⟨"z-index", ['5']⟩] :=
    h "z-[5]".toList "[5]".toList "z" _ _ (by decide +kernel) (by decide) (hlevel false) (hlevel true)
  have hfive : measure? pixelSizes ['5'] = some (.number 5) := by decide +kernel
  rw [OppositeDeclarations, List.forall₂_cons] at hsame
  exact (hsame.1.2 _ hfive).2 (by decide) rfl

end Machine

end

end TsxWorkbench.Utility
