/-
How a class of a name and a value is read. The longest name that starts a class decides, so a class is read under its
name if no keyword and no longer name gets in between: `splitName?_eq`. Brackets after the hyphen rule both out
(`keyword?_bracketed`, `splitName?_bracketed`), and colons inside of them do not make variants
(`compileClass?_bracketed`).
-/
import TsxWorkbench.Proofs.Text.Encoding
import TsxWorkbench.Utility.Stylesheet

namespace TsxWorkbench.Utility

open Text

/-- a value in square brackets -/
def bracketed (inner : List Char) : List Char := '[' :: (inner ++ [']'])

theorem bracketed_inj {a b : List Char} (h : bracketed a = bracketed b) : a = b :=
  List.append_cancel_right (List.cons.inj h).2

/-- a class of a name and a value -/
def namedClass (name : String) (v : List Char) : List Char := (name ++ "-").toList ++ v

theorem toList_hyphen (name : String) : (name ++ "-").toList = name.toList ++ ['-'] := by
  rw [String.toList_append]
  rfl

/-! ## Names -/

theorem valueAfter?_namedClass (name : String) {v : List Char} (hv : v ≠ []) :
    valueAfter? name (namedClass name v) = some (some v) := by
  have hne : namedClass name v ≠ name.toList := by
    intro h
    rw [namedClass, toList_hyphen, List.append_assoc] at h
    exact absurd (congrArg List.length h) (by simp)
  have hstrip : stripStart? (name ++ "-").toList (namedClass name v) = some v := stripStart?_eq_some_iff.2 rfl
  unfold valueAfter?
  rw [if_neg hne, hstrip]
  cases v with
  | nil => exact absurd rfl hv
  | cons c cs => rfl

/-- a name that starts a class is all of it, or a value follows after a hyphen -/
theorem valueAfter?_cases {name : String} {utility : List Char} {value : Option (List Char)}
    (h : valueAfter? name utility = some value) : (utility = name.toList ∧ value = none) ∨
      ∃ v, utility = namedClass name v ∧ value = some v := by
  unfold valueAfter? at h
  split at h
  · rename_i halone
    cases h
    exact .inl ⟨halone, rfl⟩
  · split at h
    · cases h
    · rename_i rest _ hrest
      cases h
      exact .inr ⟨rest, stripStart?_eq_some_iff.1 hrest, rfl⟩
    · cases h

/-- a class has the value that follows its name -/
theorem valueAfter?_of_splitName? {utility : List Char} {name : String} {value : Option (List Char)}
    (h : splitName? utility = some (name, value)) : valueAfter? name utility = some value := by
  refine List.foldlRecOn (motive := fun best => ∀ b, best = some b → valueAfter? b.1 utility = some b.2) _ _ ?_ ?_ _ h
  · rintro b ⟨⟩
  · intro best hbest n _ b hb
    split at hb
    · exact hbest b hb
    · rename_i v hv
      split at hb
      · split at hb
        · cases hb
          exact hv
        · exact hbest b hb
      · cases hb
        exact hv

/-- a search that only one name ends finds what this name gives -/
theorem foldl_eq_of_unique {α : Type} {step : Option α → String → Option α} {name : String} {found : α}
    (hfinds : ∀ best, best = none ∨ best = some found → step best name = some found) {names : List String}
    (hother : ∀ n ∈ names, n ≠ name → ∀ best, step best n = best) {best : Option α}
    (hbest : best = none ∨ best = some found) (hname : name ∈ names ∨ best = some found) :
    names.foldl step best = some found := by
  induction names generalizing best with
  | nil =>
    rcases hname with hmem | hfound
    · cases hmem
    · exact hfound
  | cons n rest ih =>
    rw [List.foldl_cons]
    have hrest : ∀ k ∈ rest, k ≠ name → ∀ best, step best k = best :=
      fun k hk => hother k (List.mem_cons_of_mem _ hk)
    by_cases hn : n = name
    · subst hn
      rw [hfinds best hbest]
      exact ih hrest (.inr rfl) (.inr rfl)
    · rw [hother n List.mem_cons_self hn]
      refine ih hrest hbest ?_
      rcases hname with hmem | hfound
      · exact .inl ((List.mem_cons.1 hmem).resolve_left (Ne.symm hn))
      · exact .inr hfound

/-- a name that alone starts a class is the one it is read under -/
theorem splitName?_of_unique {name : String} {utility : List Char} {value : Option (List Char)}
    (hname : name ∈ sideNames ++ plainNames) (hvalue : valueAfter? name utility = some value)
    (hother : ∀ n ∈ sideNames ++ plainNames, n ≠ name → valueAfter? n utility = none) :
    splitName? utility = some (name, value) := by
  unfold splitName?
  apply foldl_eq_of_unique ?_ ?_ (.inl rfl) (.inl hname)
  · rintro best (rfl | rfl)
    · rw [hvalue]
    · rw [hvalue]
      exact if_pos (Nat.le_refl _)
  · intro n hn hne best
    rw [hother n hn hne]

/-- a class of a name and a value is read so if no other name starts it -/
theorem splitName?_of_first {name : String} (hlisted : name ∈ sideNames ++ plainNames)
    (hfirst : ∀ n ∈ sideNames ++ plainNames, (n ++ "-").toList <+: (name ++ "-").toList → n = name) {v : List Char}
    (hv : v ≠ []) (hlonger : ∀ n ∈ sideNames ++ plainNames, ∀ rest, n.toList = (name ++ "-").toList ++ rest →
      v ≠ rest ∧ ¬rest ++ ['-'] <+: v) :
    splitName? (namedClass name v) = some (name, some v) := by
  apply splitName?_of_unique hlisted (valueAfter?_namedClass name hv)
  intro n hn hne
  cases hvalue : valueAfter? n (namedClass name v) with
  | none => rfl
  | some value =>
  exfalso
  rcases valueAfter?_cases hvalue with ⟨heq, -⟩ | ⟨after, heq, -⟩
  · exact (hlonger n hn v heq.symm).1 rfl
  · have hpre : (n ++ "-").toList <+: namedClass name v := ⟨after, heq.symm⟩
    rcases List.prefix_or_prefix_of_prefix hpre (List.prefix_append (name ++ "-").toList v) with hshort | ⟨r, hr⟩
    · exact hne (hfirst n hn hshort)
    · rcases List.eq_nil_or_concat r with rfl | ⟨rest, c, rfl⟩
      · exact hne (hfirst n hn ⟨[], by rw [List.append_nil, ← hr, List.append_nil]⟩)
      · -- the longer name goes on with `rest` and its own hyphen
        rw [toList_hyphen n, List.concat_eq_append, ← List.append_assoc] at hr
        obtain ⟨hrest, hc⟩ := List.append_inj' hr rfl
        cases hc
        rw [toList_hyphen n, ← hrest, namedClass, List.append_assoc, List.prefix_append_right_inj] at hpre
        exact (hlonger n hn rest hrest.symm).2 hpre

/-- names that no other name starts -/
def fieldNames : List String := ["bg", "text", "border", "rounded"]

theorem fieldNames_first : ∀ name ∈ fieldNames, name ∈ sideNames ++ plainNames ∧
    ∀ n ∈ sideNames ++ plainNames, (n ++ "-").toList <+: (name ++ "-").toList → n = name := by
  decide +kernel

/-- **The name of a class.** A class of a name and a value is read so if the value does not go on with a longer
name. -/
theorem splitName?_eq {name : String} (hname : name ∈ fieldNames) {v : List Char} (hv : v ≠ [])
    (hlonger : ∀ n ∈ sideNames ++ plainNames, ∀ rest, n.toList = (name ++ "-").toList ++ rest →
      v ≠ rest ∧ ¬rest ++ ['-'] <+: v) :
    splitName? (namedClass name v) = some (name, some v) := by
  obtain ⟨hlisted, hfirst⟩ := fieldNames_first name hname
  exact splitName?_of_first hlisted hfirst hv hlonger

/-! ## Fixed names -/

/-- the utilities with a fixed name, as strings -/
def keywordTexts : List String :=
  namesOfProperty.flatMap Prod.snd ++ (singleKeywords.map Prod.fst ++
    (startedNames.flatMap (fun (start, _, values) => values.map (start ++ ·)) ++
      (groupKeywords.map Prod.fst ++ families.flatMap fun (start, _, values) => values.map fun v => start ++ "-" ++ v.1)))

theorem keywordNames_eq : keywordNames = keywordTexts.map String.toList := by
  simp only [keywordNames, keywordTexts, List.map_append, List.map_flatMap, List.map_map, Function.comp_def,
    String.toList_append, List.append_assoc]
  rfl

/-- what is checked of the fixed names may be checked of their bytes -/
theorem forall_mem_keywordNames (check : List Char → Bool)
    (h : (keywordTexts.all fun s => isAscii s && check (asciiChars s)) = true) : ∀ k ∈ keywordNames, check k = true := by
  rw [keywordNames_eq]
  exact List.forall_mem_map.2 fun s hs => check_of_ascii check (List.all_eq_true.1 h s hs)

/-! ## Brackets -/

theorem names_unbracketed : ∀ n ∈ sideNames ++ plainNames, '[' ∉ n.toList := by
  decide +kernel

theorem keywordNames_unbracketed : ∀ k ∈ keywordNames, '[' ∉ k := by
  have hall := forall_mem_keywordNames (fun k => !k.contains '[') (by decide +kernel)
  intro k hk hmem
  have hk := hall k hk
  rw [List.contains_iff_mem.2 hmem] at hk
  cases hk

theorem splitName?_bracketed {name : String} (hname : name ∈ fieldNames) (inner : List Char) :
    splitName? (namedClass name (bracketed inner)) = some (name, some (bracketed inner)) := by
  apply splitName?_eq hname (List.cons_ne_nil _ _)
  intro n hn rest hrest
  have hopen : '[' ∉ rest := fun h => names_unbracketed n hn (hrest ▸ List.mem_append_right _ h)
  constructor
  · rintro rfl
    exact hopen List.mem_cons_self
  · intro hpre
    cases rest with
    | nil => simp at hpre
    | cons c cs =>
      obtain ⟨tail, htail⟩ := hpre
      rw [show c = '[' from (List.cons.inj htail).1] at hopen
      exact hopen List.mem_cons_self

theorem keyword?_bracketed (name : String) (inner : List Char) :
    keyword? (namedClass name (bracketed inner)) = none := by
  cases h : keyword? (namedClass name (bracketed inner)) with
  | none => rfl
  | some ds => exact absurd (List.mem_append_right _ List.mem_cons_self) (keywordNames_unbracketed _ (keyword?_mem h))

/-! ## Colons -/

theorem colonOutside_append_close (cs : List Char) (depth : Nat) :
    colonOutside depth (cs ++ [']']) = colonOutside depth cs := by
  induction cs generalizing depth with
  | nil => simp [colonOutside]
  | cons c cs ih => simp only [List.cons_append, colonOutside, ih]

theorem colonOutside_bracketed (inner : List Char) : colonOutside 0 (bracketed inner) = colonOutside 1 inner := by
  simp [bracketed, colonOutside, colonOutside_append_close]

theorem colonOutside_of_not_mem {cs : List Char} (h : ':' ∉ cs) (depth : Nat) : colonOutside depth cs = false := by
  induction cs generalizing depth with
  | nil => rfl
  | cons c cs ih =>
    rw [List.mem_cons, not_or] at h
    simp [colonOutside, ih h.2, Ne.symm h.1]

theorem colonOutside_append {cs : List Char} (h : ∀ c ∈ cs, c ≠ ':' ∧ c ≠ '[' ∧ c ≠ ']') (depth : Nat)
    (ds : List Char) : colonOutside depth (cs ++ ds) = colonOutside depth ds := by
  induction cs with
  | nil => rfl
  | cons c cs ih =>
    obtain ⟨hcolon, hopen, hclose⟩ := h c List.mem_cons_self
    simp [colonOutside, hcolon, hopen, hclose, ih fun d hd => h d (List.mem_cons_of_mem _ hd)]

theorem fieldNames_plain : ∀ name ∈ fieldNames, (name ++ "-").toList.head?.any (fun c => c != '!' && c != '-') = true ∧
    ∀ c ∈ (name ++ "-").toList, c ≠ ':' ∧ c ≠ '[' ∧ c ≠ ']' := by
  have hplain : ∀ name ∈ fieldNames, (name ++ "-").toList.head?.any (fun c => c != '!' && c != '-') = true ∧
      ((name ++ "-").toList.all fun c => c != ':' && c != '[' && c != ']') = true := by decide +kernel
  intro name hname
  obtain ⟨hhead, hall⟩ := hplain name hname
  refine ⟨hhead, fun c hc => ?_⟩
  simpa [and_assoc] using List.all_eq_true.1 hall c hc

/-- a class without variants has the rule of what it is read as -/
theorem compileClass?_namedClass {name : String} (hname : name ∈ fieldNames) {v : List Char}
    (hv : colonOutside 0 v = false) : compileClass? (namedClass name v) =
      (resolve? (namedClass name v) false).map fun found =>
        ⟨.always, '.' :: escapeClass (namedClass name v), found⟩ := by
  obtain ⟨hhead, hplain⟩ := fieldNames_plain name hname
  have hcolon : colonOutside 0 (namedClass name v) = false := (colonOutside_append hplain 0 v).trans hv
  unfold namedClass at hcolon ⊢
  cases hcs : (name ++ "-").toList with
  | nil =>
    rw [hcs] at hhead
    cases hhead
  | cons c cs =>
    rw [hcs] at hhead hcolon
    exact compileClass?_of_inside (by simpa using hhead) hcolon

theorem compileClass?_bracketed {name : String} (hname : name ∈ fieldNames) {inner : List Char}
    (h : colonOutside 1 inner = false) : compileClass? (namedClass name (bracketed inner)) =
      (resolve? (namedClass name (bracketed inner)) false).map fun found =>
        ⟨.always, '.' :: escapeClass (namedClass name (bracketed inner)), found⟩ :=
  compileClass?_namedClass hname ((colonOutside_bracketed inner).trans h)

end TsxWorkbench.Utility
