/-
What an update makes of a class list. The categories of the fields are apart (`eq_of_matchesField`): a class that
follows a name with a value is in one category at most, since no colour is a text size (`isColour_not_textSize`) and
none is a border width (`isColour_not_width`).
- `words_updateClasses`: the words of an updated list are the classes that no field of the update takes out, and then
  the new ones.
- `updateClasses_regroups`: so each field that is set has its new class and no other, a field that is cleared has none,
  all other classes stay as they stood, and updates of different fields may be made in any order.
-/
import TsxWorkbench.Proofs.Edit.Rewriting

namespace TsxWorkbench.Edit

open Number Text Utility

variable {f g : StyleField} {t v : List Char} {updates first second : List (StyleField × Option (List Char))}

/-! ## Values of one name -/

/-- no digit of any script is a small letter or a number sign -/
theorem isDecimalDigit_apart {c : Char} (h : isSmallLetter c = true ∨ c = '#') : isDecimalDigit c = false := by
  have apart : ∀ r ∈ decimalDigitRanges, (r.2 < 97 ∨ 122 < r.1) ∧ 35 < r.1 := by decide
  refine Bool.eq_false_iff.2 fun hdigit => ?_
  obtain ⟨r, hr, hlow, hhigh⟩ := exists_range_of_inRanges hdigit
  have hapart := apart r hr
  rcases h with hletter | rfl
  · simp only [isSmallLetter, Bool.and_eq_true, decide_eq_true_eq, Char.le_def, UInt32.le_iff_toNat_le] at hletter
    have hfirst : 97 ≤ c.toNat := hletter.1
    have hlast : c.toNat ≤ 122 := hletter.2
    omega
  · have hsign : '#'.toNat = 35 := rfl
    omega

/-- a colour in brackets starts with a number sign or a small letter -/
theorem ArbitraryColour.exists_head {inner : List Char} (h : ArbitraryColour inner) :
    ∃ c rest, inner = c :: rest ∧ isDecimalDigit c = false := by
  have hnames : ∀ name ∈ colourFunctions, name.toList.head?.any isSmallLetter = true := by decide
  cases h with
  | hex => exact ⟨_, _, rfl, isDecimalDigit_apart (.inr rfl)⟩
  | word hne hletters =>
    obtain ⟨c, rest, rfl⟩ := List.exists_cons_of_ne_nil hne
    exact ⟨c, rest, rfl, isDecimalDigit_apart (.inl (hletters c List.mem_cons_self))⟩
  | function hname hclosed =>
    obtain ⟨c, hhead, hletter⟩ := (Option.any_eq_true _ _).1 (hnames _ hname)
    obtain ⟨rest, hrest⟩ := List.head?_eq_some_iff.1 hhead
    rw [hrest]
    exact ⟨c, _, rfl, isDecimalDigit_apart (.inl hletter)⟩

/-- a length starts with a digit -/
theorem Measure.exists_head {units : List String} {inner : List Char} (h : Measure units inner) :
    ∃ c rest, inner = c :: rest ∧ isDecimalDigit c = true := by
  obtain ⟨number, unit, -, hnumber, rfl⟩ := h
  have hdigit {digits : List Char} (hne : digits ≠ []) (hdigits : ∀ c ∈ digits, isDecimalDigit c = true)
      (after : List Char) : ∃ c rest, digits ++ after = c :: rest ∧ isDecimalDigit c = true := by
    obtain ⟨c, rest, rfl⟩ := List.exists_cons_of_ne_nil hne
    exact ⟨c, rest ++ after, rfl, hdigits c List.mem_cons_self⟩
  cases hnumber with
  | whole hne hdigits => exact hdigit hne hdigits _
  | point hne hdigits =>
    rw [List.append_assoc]
    exact hdigit hne hdigits _

/-- a colour in brackets is no length in brackets, whatever follows them -/
theorem bracketed_colour_ne_measure {units : List String} {inner inner' : List Char} (hcolour : ArbitraryColour inner)
    (hmeasure : Measure units inner') (after after' : List Char) :
    bracketed inner ++ after ≠ bracketed inner' ++ after' := by
  obtain ⟨c, rest, rfl, hno⟩ := hcolour.exists_head
  obtain ⟨d, rest', rfl, hyes⟩ := hmeasure.exists_head
  intro heq
  have hcd : c = d := (List.cons.inj (List.cons.inj heq).2).1
  rw [hcd, hyes] at hno
  cases hno

/-- what stands before the first slash is found in only one way -/
theorem base_unique {p q : List Char → Prop} {base base' suffix suffix' : List Char} (hbase : '/' ∉ base)
    (hbase' : '/' ∉ base') (hsuffix : Suffix p suffix) (hsuffix' : Suffix q suffix')
    (h : base ++ suffix = base' ++ suffix') : base = base' := by
  have hcut {r : List Char → Prop} {b s : List Char} (hb : '/' ∉ b) (hs : Suffix r s) :
      (b ++ s).takeWhile (· != '/') = b := by
    have hother : ∀ c ∈ b, (c != '/') = true := fun c hc => bne_iff_ne.2 fun heq => hb (heq ▸ hc)
    rw [List.takeWhile_append_of_pos hother]
    rcases hs with rfl | ⟨tail, rfl, -⟩ <;> simp
  rw [← hcut hbase hsuffix, h, hcut hbase' hsuffix']

/-- the name of a text size is no name of a colour -/
theorem isColourName_not_sizeBase {base : List Char} (hname : isColourName base = true) :
    isSizeBase base = false := by
  have hlisted : ∀ s ∈ ["xs", "sm", "base", "lg", "xl"], isColourName s.toList = false := by decide
  have hlong : ∀ s ∈ plainColours, s.toList.length ≠ 3 := by decide
  refine Bool.eq_false_iff.2 fun hsize => ?_
  unfold isSizeBase at hsize
  rw [Bool.or_eq_true, Bool.or_eq_true] at hsize
  rcases hsize with (hmem | hstep) | hmeasure
  · have hno := hlisted _ (List.contains_iff_mem.1 hmem)
    rw [String.toList_ofList, hname] at hno
    cases hno
  · split at hstep
    · -- a step of the scale is shorter than the plain names, and holds no hyphen
      rename_i d
      rw [isColourName, Bool.or_eq_true] at hname
      rcases hname with hplain | hfamily
      · exact hlong _ (List.contains_iff_mem.1 hplain) (by rw [String.toList_ofList]; rfl)
      · have hhyphen : '-' ∉ [d, 'x', 'l'] := by
          simp only [List.mem_cons, List.not_mem_nil, or_false, not_or]
          refine ⟨?_, by decide, by decide⟩
          rintro rfl
          exact absurd hstep (by decide)
        rw [splitFirst?_eq_none hhyphen] at hfamily
        cases hfamily
    · cases hstep
  · obtain ⟨inner, rfl, -⟩ := isMeasure_iff.1 hmeasure
    exact (isColourName_solid hname List.mem_cons_self).2.2 rfl

/-- **Text colours and text sizes.** No value is both. -/
theorem isColour_not_textSize (hcolour : isColour v = true) : isTextSize v = false := by
  refine Bool.eq_false_iff.2 fun hsize => ?_
  obtain ⟨base, suffix, rfl, hbase, hsuffix⟩ := isColour_iff.1 hcolour
  obtain ⟨base', suffix', heq, hbase', hsuffix'⟩ := isTextSize_iff.1 hsize
  rcases isColourBase_iff.1 hbase with hname | ⟨inner, rfl, hinner⟩
  · have hopen : '[' ∉ base := fun hmem => (isColourName_solid hname hmem).2.2 rfl
    have hslash : '/' ∉ base := fun hmem => (isColourName_solid hname hmem).2.1 rfl
    rcases isSizeBase_cases hbase' with ⟨-, hslash'⟩ | ⟨inner', rfl, -⟩
    · obtain rfl := base_unique hslash hslash' hsuffix hsuffix' heq
      rw [isColourName_not_sizeBase hname] at hbase'
      cases hbase'
    · exact bracketed_ne_named hopen hsuffix suffix' heq.symm
  · rcases isSizeBase_cases hbase' with ⟨hopen', -⟩ | ⟨inner', rfl, hmeasure⟩
    · exact bracketed_ne_named hopen' hsuffix' suffix heq
    · exact bracketed_colour_ne_measure hinner hmeasure suffix suffix' heq

/-- **Border colours and border widths.** No value is both. -/
theorem isColour_not_width (hcolour : isColour v = true) : isWidth v = false := by
  have hsteps : ∀ s ∈ ["0", "2", "4", "8"], isColour s.toList = false := by decide
  refine Bool.eq_false_iff.2 fun hwidth => ?_
  rcases isWidth_iff.1 hwidth with hmem | ⟨inner, rfl, hmeasure⟩
  · have hno := hsteps _ hmem
    rw [String.toList_ofList, hcolour] at hno
    cases hno
  · have harbitrary := isColour_bracketed_iff.1 hcolour
    exact bracketed_colour_ne_measure harbitrary hmeasure [] [] rfl

/-! ## Categories -/

/-- a class in the category of a field is the name that the field writes, or has a value after it -/
theorem matchesField_cases (h : matchesField f t = true) :
    (unmarked t = f.className.toList ∧ (f = .borderWidth ∨ f = .borderRadius)) ∨
      ∃ v, unmarked t = namedClass f.className v ∧ f.takes v = true := by
  have hvalue {name : String} {p : List Char → Bool} (hname : afterName name p (unmarked t) = true) :
      ∃ v, unmarked t = namedClass name v ∧ p v = true := by
    unfold afterName at hname
    rw [Option.getD_eq_iff] at hname
    rcases hname with hsome | ⟨-, hno⟩
    · obtain ⟨v, hv, hp⟩ := Option.map_eq_some_iff.1 hsome
      exact ⟨v, stripStart?_eq_some_iff.1 hv, hp⟩
    · cases hno
  rw [matchesField_eq] at h
  cases f with
  | borderWidth =>
    rcases Bool.or_eq_true_iff.1 h with halone | hnamed
    · exact .inl ⟨eq_of_beq halone, .inl rfl⟩
    · exact .inr (hvalue hnamed)
  | borderRadius =>
    rcases Bool.or_eq_true_iff.1 h with halone | hnamed
    · exact .inl ⟨eq_of_beq halone, .inr rfl⟩
    · exact .inr (hvalue hnamed)
  | _ => exact .inr (hvalue h)

/-- a name and a value are read from their class in only one way -/
theorem namedClass_unique {a b : String} (ha : '-' ∉ a.toList) (hb : '-' ∉ b.toList) {w : List Char}
    (h : namedClass a v = namedClass b w) : a = b ∧ v = w := by
  have hsplit {name : String} (hname : '-' ∉ name.toList) (value : List Char) :
      splitFirst? '-' (namedClass name value) = some (name.toList, value) := by
    rw [namedClass, toList_hyphen, List.append_assoc]
    exact splitFirst?_append hname value
  have hboth := (hsplit ha v).symm.trans ((congrArg _ h).trans (hsplit hb w))
  obtain ⟨hname, hvalue⟩ := Prod.mk.inj (Option.some.inj hboth)
  exact ⟨String.toList_inj.1 hname, hvalue⟩

/-- fields that write the same name take different values -/
theorem eq_of_takes (hname : f.className = g.className) (hf : f.takes v = true) (hg : g.takes v = true) : f = g := by
  have hshared : ∀ f ∈ StyleField.all, ∀ g ∈ StyleField.all, f.className = g.className → f = g ∨
      (f, g) ∈ [(StyleField.textColor, .fontSize), (.fontSize, .textColor), (.borderColor, .borderWidth),
        (.borderWidth, .borderColor)] := by
    decide
  have hsize (hcolour : isColour v = true) (hsize : isTextSize v = true) : False :=
    Bool.false_ne_true ((isColour_not_textSize hcolour).symm.trans hsize)
  have hwidth (hcolour : isColour v = true) (hwidth : isWidth v = true) : False :=
    Bool.false_ne_true ((isColour_not_width hcolour).symm.trans hwidth)
  rcases hshared f f.mem_all g g.mem_all hname with hsame | hpair
  · exact hsame
  · simp only [List.mem_cons, Prod.mk.injEq, List.not_mem_nil, or_false] at hpair
    rcases hpair with ⟨rfl, rfl⟩ | ⟨rfl, rfl⟩ | ⟨rfl, rfl⟩ | ⟨rfl, rfl⟩
    · exact (hsize hf hg).elim
    · exact (hsize hg hf).elim
    · exact (hwidth hf hg).elim
    · exact (hwidth hg hf).elim

/-- **Categories are apart.** No class is in the categories of two fields. -/
theorem eq_of_matchesField (hf : matchesField f t = true) (hg : matchesField g t = true) : f = g := by
  have hplain : ∀ f ∈ StyleField.all, '-' ∉ f.className.toList := by decide
  have halone {a b : StyleField} {w : List Char} (ha : unmarked t = a.className.toList)
      (hb : unmarked t = namedClass b.className w) : False := by
    have hhyphen : '-' ∈ namedClass b.className w := by
      rw [namedClass, toList_hyphen]
      simp
    rw [← hb, ha] at hhyphen
    exact hplain a a.mem_all hhyphen
  have hnames : ∀ f ∈ [StyleField.borderWidth, .borderRadius], ∀ g ∈ [StyleField.borderWidth, .borderRadius],
      f.className.toList = g.className.toList → f = g := by
    decide
  rcases matchesField_cases hf with ⟨hnamef, hkindf⟩ | ⟨v, hvalue, hv⟩
  · rcases matchesField_cases hg with ⟨hnameg, hkindg⟩ | ⟨w, hw, -⟩
    · exact hnames f (by simpa using hkindf) g (by simpa using hkindg) (hnamef.symm.trans hnameg)
    · exact (halone hnamef hw).elim
  · rcases matchesField_cases hg with ⟨hnameg, -⟩ | ⟨w, hw, htakes⟩
    · exact (halone hnameg hvalue).elim
    · obtain ⟨hname, rfl⟩ := namedClass_unique (hplain f f.mem_all) (hplain g g.mem_all) (hvalue.symm.trans hw)
      exact eq_of_takes hname hv htakes

/-! ## Class lists -/

section Lists

variable (hown : ∀ u ∈ updates, ∀ t, u.2 = some t → Own u.1 t)
include hown

/-- the own classes of other fields are not in the category of a field -/
theorem filter_matchesField_new (hother : ∀ u ∈ updates, u.1 ≠ f) :
    (updates.filterMap Prod.snd).filter (matchesField f) = [] := by
  rw [List.filter_eq_nil_iff]
  intro t ht hmatched
  obtain ⟨u, hu, ht⟩ := List.mem_filterMap.1 ht
  exact hother u hu (eq_of_matchesField (hown u hu t ht).matched hmatched)

/-- the own classes of other fields are left alone -/
theorem filter_untouched_of_other (hother : ∀ u ∈ second, ∀ w ∈ updates, w.1 ≠ u.1) :
    (updates.filterMap Prod.snd).filter (untouched second) = updates.filterMap Prod.snd := by
  rw [List.filter_eq_self]
  intro t ht
  obtain ⟨w, hw, ht⟩ := List.mem_filterMap.1 ht
  rw [untouched, Bool.not_eq_true', List.any_eq_false]
  intro u hu hmatched
  exact hother u hu w hw (eq_of_matchesField (hown w hw t ht).matched hmatched)

end Lists

/-- what a class list is after an update, field by field -/
structure Regrouped (classes : List Char) (updates : List (StyleField × Option (List Char)))
    (result : List (List Char)) : Prop where
  /-- of the category of a field that is set the new class is there, once, and of one that is cleared none -/
  fields : ∀ f change, (f, change) ∈ updates → result.filter (matchesField f) = change.toList
  /-- classes in the category of no updated field are those that were there, in their order and as often -/
  others : result.filter (untouched updates) = (words classes).filter (untouched updates)

theorem regrouped_updateClasses (hfields : (updates.map Prod.fst).Nodup)
    (hown : ∀ u ∈ updates, ∀ t, u.2 = some t → Own u.1 t) (classes : List Char) :
    Regrouped classes updates (words (updateClasses classes updates)) := by
  rw [words_updateClasses hown]
  constructor
  case others =>
    rw [List.filter_append, filter_untouched_new hown, List.append_nil, List.filter_filter]
    simp only [Bool.and_self]
  case fields =>
    intro f change hmem
    have hkept : ((words classes).filter (untouched updates)).filter (matchesField f) = [] := by
      rw [List.filter_eq_nil_iff]
      intro t ht hmatched
      have huntouched := (List.mem_filter.1 ht).2
      rw [untouched, List.any_eq_true.2 ⟨_, hmem, hmatched⟩] at huntouched
      cases huntouched
    obtain ⟨before, after, rfl⟩ := List.append_of_mem hmem
    rw [List.map_append, List.map_cons, List.nodup_append] at hfields
    obtain ⟨-, hafter, hapart⟩ := hfields
    have hbefore : ∀ u ∈ before, u.1 ≠ f := fun u hu => hapart u.1 (List.mem_map_of_mem hu) f List.mem_cons_self
    have hrest : ∀ u ∈ after, u.1 ≠ f :=
      fun u hu heq => (List.nodup_cons.1 hafter).1 (List.mem_map.2 ⟨u, hu, heq⟩)
    rw [List.forall_mem_append, List.forall_mem_cons] at hown
    obtain ⟨hownBefore, hself, hownAfter⟩ := hown
    rw [List.filter_append, hkept, List.nil_append, List.filterMap_append, List.filter_append,
      filter_matchesField_new hownBefore hbefore, List.nil_append]
    have hnone := filter_matchesField_new hownAfter hrest
    cases change with
    | none => exact hnone
    | some t =>
      have hcons : ((f, some t) :: after).filterMap Prod.snd = t :: after.filterMap Prod.snd := rfl
      rw [hcons, List.filter_cons_of_pos (hself t rfl).matched, hnone]
      rfl

/-- two updates of different fields, one after the other, are one update of all of them -/
theorem words_updateClasses_append (hfields : ((first ++ second).map Prod.fst).Nodup)
    (hown : ∀ u ∈ first ++ second, ∀ t, u.2 = some t → Own u.1 t) (classes : List Char) :
    words (updateClasses (updateClasses classes first) second) = words (updateClasses classes (first ++ second)) := by
  obtain ⟨hownFirst, hownSecond⟩ := List.forall_mem_append.1 hown
  have hother : ∀ u ∈ second, ∀ w ∈ first, w.1 ≠ u.1 := by
    rw [List.map_append, List.nodup_append] at hfields
    exact fun u hu w hw => hfields.2.2 w.1 (List.mem_map_of_mem hw) u.1 (List.mem_map_of_mem hu)
  have huntouched : untouched (first ++ second) = fun t => untouched second t && untouched first t := by
    funext t
    rw [untouched, List.any_append, Bool.not_or, Bool.and_comm]
    rfl
  rw [words_updateClasses hownSecond, words_updateClasses hownFirst, words_updateClasses hown, List.filter_append,
    filter_untouched_of_other hownFirst hother, List.filter_filter, huntouched, List.filterMap_append,
    List.append_assoc]

/-- the order of an update matters for the order of the new classes only -/
theorem words_updateClasses_perm {updates' : List (StyleField × Option (List Char))} (hperm : updates.Perm updates')
    (hown : ∀ u ∈ updates', ∀ t, u.2 = some t → Own u.1 t) (classes : List Char) :
    (words (updateClasses classes updates)).Perm (words (updateClasses classes updates')) := by
  have huntouched : untouched updates = untouched updates' := by
    funext t
    rw [untouched, untouched, hperm.any_eq]
  rw [words_updateClasses hown, words_updateClasses fun u hu => hown u (hperm.mem_iff.1 hu), huntouched]
  exact (hperm.filterMap _).append_left _

/-- **Updates stay in their categories.** No class is in two categories. So after an update of distinct fields with own
classes each field has just what the update says, and all other classes are as they were; and to carry the update out in
two parts, in either order, gives the same classes. -/
theorem updateClasses_regroups (hfields : (updates.map Prod.fst).Nodup)
    (hown : ∀ u ∈ updates, ∀ t, u.2 = some t → Own u.1 t) (classes : List Char) :
    (∀ t f g, matchesField f t = true → matchesField g t = true → f = g) ∧
      Regrouped classes updates (words (updateClasses classes updates)) ∧
      ∀ first second, (first ++ second).Perm updates →
        (words (updateClasses (updateClasses classes first) second)).Perm (words (updateClasses classes updates)) := by
  refine ⟨fun t f g => eq_of_matchesField, regrouped_updateClasses hfields hown classes, fun first second hperm => ?_⟩
  have hdistinct : ((first ++ second).map Prod.fst).Nodup := (hperm.map Prod.fst).nodup_iff.2 hfields
  rw [words_updateClasses_append hdistinct fun u hu => hown u (hperm.mem_iff.1 hu)]
  exact words_updateClasses_perm hperm hown classes

/-- classes of which two have one name in different categories each, and some are there twice or have a variant -/
def crowdedClasses : List Char := "p-4 text-red-500 text-lg p-4 !border-2 border border-red-500 hover:text-white".toList

/-- a colour and a size that are set, and a width that is cleared -/
def restyled : List (StyleField × Option (List Char)) :=
  [(.textColor, some "text-[#00ff00]".toList), (.borderWidth, none), (.fontSize, some "text-[13px]/5".toList)]

theorem updateClasses_regroups_crowded :
    words (updateClasses crowdedClasses restyled) = ["p-4".toList, "p-4".toList, "border-red-500".toList,
      "hover:text-white".toList, "text-[#00ff00]".toList, "text-[13px]/5".toList] ∧
    Regrouped crowdedClasses restyled (words (updateClasses crowdedClasses restyled)) ∧
    (words (updateClasses (updateClasses crowdedClasses [(.fontSize, some "text-[13px]/5".toList)])
      [(.textColor, some "text-[#00ff00]".toList), (.borderWidth, none)])).Perm
      (words (updateClasses crowdedClasses restyled)) := by
  have hsolid : ∀ u ∈ restyled, ∀ t ∈ u.2, t ≠ [] ∧ (t.all fun c => !isBlank c) = true ∧ matchesField u.1 t = true := by
    decide +kernel
  have hown : ∀ u ∈ restyled, ∀ t, u.2 = some t → Own u.1 t := by
    intro u hu t ht
    obtain ⟨hne, hall, hmatched⟩ := hsolid u hu t ht
    exact ⟨hne, isBlank_of_all hall, hmatched⟩
  obtain ⟨-, hregrouped, hparts⟩ := updateClasses_regroups (by decide) hown crowdedClasses
  exact ⟨by decide +kernel, hregrouped, hparts _ _ (by decide)⟩

end TsxWorkbench.Edit
