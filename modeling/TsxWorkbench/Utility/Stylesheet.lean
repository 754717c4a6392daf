/-
Style sheets of utility classes. A class is variants ending in colons, an optional exclamation mark, an optional minus
sign and a utility; a class that is not understood has no rule. Rules keep the order of their classes within each media
condition, and the conditions come in a fixed order. The opposite of a number always has room here: the compiler that
runs is the one on the machine, which writes these sheets or stops.
-/
import TsxWorkbench.Utility.Resolve

namespace TsxWorkbench.Utility

/-! ## Variants -/

def pseudoClasses : List (String × String) :=
  [("hover", ":hover"), ("focus", ":focus"), ("focus-visible", ":focus-visible"), ("focus-within", ":focus-within"),
   ("active", ":active"), ("disabled", ":disabled"), ("visited", ":visited"), ("first", ":first-child"),
   ("last", ":last-child"), ("odd", ":nth-child(odd)"), ("even", ":nth-child(even)"),
   ("placeholder", "::placeholder")]

/-- parts of a class between colons that stand outside square brackets; `part` is the one being read, reversed -/
def splitFrom (depth : Nat) (part : List Char) : List Char → List (List Char)
  | [] => [part.reverse]
  | c :: cs =>
    if c = ':' ∧ depth = 0 then part.reverse :: splitFrom 0 [] cs
    else splitFrom (if c = '[' then depth + 1 else if c = ']' then depth - 1 else depth) (c :: part) cs

def splitVariants (cs : List Char) : List (List Char) := splitFrom 0 [] cs

/-- a colon outside square brackets, of which so many are open before the text -/
def colonOutside (depth : Nat) : List Char → Bool
  | [] => false
  | c :: cs =>
    (c = ':' ∧ depth = 0) || colonOutside (if c = '[' then depth + 1 else if c = ']' then depth - 1 else depth) cs

private theorem splitFrom_of_inside {cs : List Char} : ∀ {depth : Nat} (part : List Char),
    colonOutside depth cs = false → splitFrom depth part cs = [part.reverse ++ cs] := by
  induction cs with
  | nil => simp [splitFrom]
  | cons c cs ih =>
    intro depth part h
    simp only [colonOutside, Bool.or_eq_false_iff, decide_eq_false_iff_not] at h
    rw [splitFrom, if_neg h.1, ih _ h.2]
    simp

/-- a class without colons outside of brackets has no variants -/
theorem splitVariants_of_inside {cs : List Char} (h : colonOutside 0 cs = false) : splitVariants cs = [cs] :=
  splitFrom_of_inside [] h

private theorem splitFrom_ne_nil (cs : List Char) (depth : Nat) (part : List Char) : splitFrom depth part cs ≠ [] := by
  induction cs generalizing depth part with
  | nil => exact List.cons_ne_nil _ _
  | cons c cs ih =>
    rw [splitFrom]
    split
    · exact List.cons_ne_nil _ _
    · exact ih _ _

private theorem splitFrom_joined (cs : List Char) (depth : Nat) (part : List Char) :
    (splitFrom depth part cs).dropLast.flatMap (· ++ [':']) ++ (splitFrom depth part cs).getLast?.getD [] =
      part.reverse ++ cs := by
  induction cs generalizing depth part with
  | nil => simp [splitFrom]
  | cons c cs ih =>
    rw [splitFrom]
    split
    · rename_i hcolon
      have hrest := splitFrom_ne_nil cs 0 []
      have hlast := List.getLast?_eq_some_getLast hrest
      have hjoined := ih 0 []
      rw [hlast, Option.getD_some] at hjoined
      rw [List.dropLast_cons_of_ne_nil hrest, List.flatMap_cons, List.getLast?_cons, hlast, Option.getD_some,
        Option.getD_some, List.append_assoc, List.append_assoc, hjoined, hcolon.1]
      rfl
    · rw [ih, List.reverse_cons, List.append_assoc]
      rfl

/-- a class is its variants, each with a colon, and the part after them -/
theorem splitVariants_joined (cs : List Char) :
    (splitVariants cs).dropLast.flatMap (· ++ [':']) ++ (splitVariants cs).getLast?.getD [] = cs :=
  splitFrom_joined cs 0 []

/-- media condition: the widest breakpoint by its index, and the dark scheme -/
structure Media where
  breakpoint : Option Nat
  dark : Bool
deriving DecidableEq, Repr

namespace Media

/-- no condition -/
def always : Media := ⟨none, false⟩

/-- place of a condition in the style sheet -/
def rank (m : Media) : Nat := (m.breakpoint.elim 0 (· + 1)) * 2 + (if m.dark then 1 else 0)

/-- CSS text of a condition, if there is one -/
def text? (m : Media) : Option (List Char) :=
  let width := match m.breakpoint with
    | some i => [("(min-width: " ++ toString ((breakpoints[i]?.map Prod.snd).getD 0) ++ "px)").toList]
    | none => []
  let dark := if m.dark then ["(prefers-color-scheme: dark)".toList] else []
  match width ++ dark with
  | [] => none
  | parts => some (List.intercalate " and ".toList parts)

end Media

/-- condition and selector suffix gathered from variants -/
structure Variants where
  media : Media
  pseudo : List Char
deriving DecidableEq, Repr

/-- one more variant; an unknown one refuses the class -/
def Variants.add (v : Variants) (name : List Char) : Option Variants :=
  let word := String.ofList name
  if word = "dark" then some { v with media := { v.media with dark := true } }
  else match breakpoints.findIdx? fun b => b.1 == word with
    | some i => some { v with media := { v.media with breakpoint := some (v.media.breakpoint.elim i (max · i)) } }
    | none => (pseudoClasses.lookup word).map fun p => { v with pseudo := v.pseudo ++ p.toList }

def Variants.ofNames (names : List (List Char)) : Option Variants :=
  names.foldl (fun acc name => acc.bind fun v => v.add name) (some ⟨.always, []⟩)

/-- names of variants -/
def variantNames : List String := "dark" :: (breakpoints.map Prod.fst ++ pseudoClasses.map Prod.fst)

theorem Variants.add_cases {v v' : Variants} {name : List Char} (h : v.add name = some v') :
    String.ofList name ∈ variantNames ∧
      (v'.pseudo = v.pseudo ∨ ∃ p ∈ pseudoClasses.map Prod.snd, v'.pseudo = v.pseudo ++ p.toList) := by
  unfold Variants.add at h
  dsimp only at h
  rw [variantNames, List.mem_cons, List.mem_append]
  split at h
  · rename_i hdark
    cases h
    exact ⟨.inl hdark, .inl rfl⟩
  split at h
  · rename_i i hfound
    cases h
    obtain ⟨hlt, hname, -⟩ := List.findIdx?_eq_some_iff_getElem.1 hfound
    refine ⟨.inr (.inl (List.mem_map.2 ⟨breakpoints[i], List.getElem_mem hlt, ?_⟩)), .inl rfl⟩
    exact beq_iff_eq.1 hname
  · obtain ⟨p, hp, rfl⟩ := Option.map_eq_some_iff.1 h
    obtain ⟨before, after, hrows, -⟩ := List.lookup_eq_some_iff.1 hp
    refine ⟨.inr (.inr (List.mem_map.2 ⟨(String.ofList name, p), by simp [hrows], rfl⟩)), .inr ⟨p, ?_, rfl⟩⟩
    exact List.mem_map.2 ⟨(String.ofList name, p), by simp [hrows], rfl⟩

theorem Variants.ofNames_concat (names : List (List Char)) (name : List Char) :
    Variants.ofNames (names ++ [name]) = (Variants.ofNames names).bind fun v => v.add name := by
  rw [Variants.ofNames, List.foldl_append]
  rfl

/-- variants that are understood are known, and give pseudo-classes that are known -/
theorem Variants.ofNames_cases {names : List (List Char)} {v : Variants} (h : Variants.ofNames names = some v) :
    (∀ name ∈ names, String.ofList name ∈ variantNames) ∧
      ∃ ps : List String, (∀ p ∈ ps, p ∈ pseudoClasses.map Prod.snd) ∧ v.pseudo = ps.flatMap String.toList := by
  -- from the last name on, as the names were added
  obtain ⟨reversed, rfl⟩ : ∃ reversed, names = List.reverse reversed := ⟨names.reverse, names.reverse_reverse.symm⟩
  induction reversed generalizing v with
  | nil =>
    cases h
    exact ⟨by simp, [], by simp, rfl⟩
  | cons name reversed ih =>
    rw [List.reverse_cons] at h ⊢
    rw [Variants.ofNames_concat] at h
    obtain ⟨before, hbefore, hadd⟩ := Option.bind_eq_some_iff.1 h
    obtain ⟨hnames, ps, hps, hpseudo⟩ := ih hbefore
    obtain ⟨hname, hmore⟩ := Variants.add_cases hadd
    refine ⟨List.forall_mem_append.2 ⟨hnames, List.forall_mem_singleton.2 hname⟩, ?_⟩
    rcases hmore with hsame | ⟨p, hp, hmore⟩
    · exact ⟨ps, hps, hsame.trans hpseudo⟩
    · refine ⟨ps ++ [p], List.forall_mem_append.2 ⟨hps, List.forall_mem_singleton.2 hp⟩, ?_⟩
      rw [hmore, hpseudo, List.flatMap_append, List.flatMap_singleton]

/-! ## Rules -/

structure Rule where
  media : Media
  selector : List Char
  declarations : List Declaration
deriving DecidableEq, Repr

def isAsciiAlphanumeric (c : Char) : Bool := (Number.digitValue? 36 c).isSome

/-- a character that a class selector holds as it is -/
def isPlainInSelector (c : Char) : Bool := isAsciiAlphanumeric c || c = '-' || c = '_' || 128 ≤ c.toNat

def escapeRest (cs : List Char) : List Char :=
  cs.flatMap fun c => if isPlainInSelector c then [c] else ['\\', c]

/-- a class as the name in a selector: a digit at the start is written by its code, others are escaped if need be -/
def escapeClass : List Char → List Char
  | [] => []
  | c :: cs => if Number.isDigit c then '\\' :: '3' :: c :: ' ' :: escapeRest cs else escapeRest (c :: cs)

def dropMark (mark : Char) : List Char → List Char × Bool
  | c :: cs => if c = mark then (cs, true) else (c :: cs, false)
  | [] => ([], false)

/-- rule of a class, if it is understood -/
def compileClass? (raw : List Char) : Option Rule :=
  let parts := splitVariants raw
  match Variants.ofNames parts.dropLast with
  | none => none
  | some variants =>
    let (body, important) := dropMark '!' (parts.getLast?.getD [])
    let (utility, negative) := dropMark '-' body
    if utility.isEmpty then none
    else (resolve? utility negative).map fun found =>
      ⟨variants.media, '.' :: (escapeClass raw ++ variants.pseudo),
        if important then found.map fun d => ⟨d.property, d.value ++ " !important".toList⟩ else found⟩

/-- rule of a class without variants and marks -/
theorem compileClass?_of_inside {c : Char} {cs : List Char} (hc : c ≠ '!' ∧ c ≠ '-')
    (h : colonOutside 0 (c :: cs) = false) : compileClass? (c :: cs) =
      (resolve? (c :: cs) false).map fun found => ⟨.always, '.' :: escapeClass (c :: cs), found⟩ := by
  simp [compileClass?, splitVariants_of_inside h, Variants.ofNames, dropMark, hc.1, hc.2]

/-- a class without the exclamation mark in front -/
def unmarked : List Char → List Char
  | '!' :: rest => rest
  | cs => cs

private theorem dropMark_important (cs : List Char) : (dropMark '!' cs).1 = unmarked cs := by
  cases cs with
  | nil => rfl
  | cons c cs =>
    by_cases hc : c = '!'
    · simp [dropMark, unmarked, hc]
    · simp [dropMark, unmarked, hc]

theorem dropMark_joined (mark : Char) (cs : List Char) :
    cs = (if (dropMark mark cs).2 then [mark] else []) ++ (dropMark mark cs).1 := by
  cases cs with
  | nil => rfl
  | cons c cs =>
    by_cases hc : c = mark
    · simp [dropMark, hc]
    · simp [dropMark, hc]

/-- a class without variants that has a rule is a utility behind its marks, and the rule sets what the utility sets -/
theorem compileClass?_cases {raw : List Char} {rule : Rule} (hinside : colonOutside 0 raw = false)
    (h : compileClass? raw = some rule) : ∃ utility negative found,
      unmarked raw = (if negative then ['-'] else []) ++ utility ∧ resolve? utility negative = some found ∧
        rule.declarations.map Declaration.property = found.map Declaration.property := by
  simp only [compileClass?, splitVariants_of_inside hinside, List.dropLast_singleton, Variants.ofNames,
    List.foldl_nil, List.getLast?_singleton, Option.getD_some] at h
  split at h
  · cases h
  · obtain ⟨found, hfound, rfl⟩ := Option.map_eq_some_iff.1 h
    refine ⟨_, _, found, ?_, hfound, ?_⟩
    · rw [dropMark_important]
      exact dropMark_joined '-' _
    · dsimp only
      split
      · simp [Function.comp_def]
      · rfl

/-- a declaration that wins over those that are not important -/
def Declaration.important (d : Declaration) : Declaration := ⟨d.property, d.value ++ " !important".toList⟩

/-- **The rule of a class.** The class is known variants and a utility behind its marks; the condition and the
pseudo-classes come from the variants, and the declarations are those of the utility, which a mark makes important. -/
theorem compileClass?_shape {raw : List Char} {rule : Rule} (h : compileClass? raw = some rule) :
    ∃ variants utility negative found, Variants.ofNames (splitVariants raw).dropLast = some variants ∧
      (∃ marks, (∀ c ∈ marks, c = '!' ∨ c = '-') ∧ (splitVariants raw).getLast?.getD [] = marks ++ utility) ∧
      resolve? utility negative = some found ∧ rule.media = variants.media ∧
      rule.selector = '.' :: (escapeClass raw ++ variants.pseudo) ∧
      (rule.declarations = found ∨ rule.declarations = found.map Declaration.important) := by
  unfold compileClass? at h
  dsimp only at h
  split at h
  · cases h
  rename_i variants hvariants
  split at h
  · cases h
  obtain ⟨found, hfound, rfl⟩ := Option.map_eq_some_iff.1 h
  refine ⟨variants, _, _, found, hvariants, ?_, hfound, rfl, rfl, ?_⟩
  · have himportant := dropMark_joined '!' ((splitVariants raw).getLast?.getD [])
    have hnegative := dropMark_joined '-' (dropMark '!' ((splitVariants raw).getLast?.getD [])).1
    refine ⟨_, ?_, himportant.trans ((congrArg _ hnegative).trans (List.append_assoc ..).symm)⟩
    refine List.forall_mem_append.2 ⟨fun c hc => ?_, fun c hc => ?_⟩
    · split at hc
      · exact .inl (List.mem_singleton.1 hc)
      · cases hc
    · split at hc
      · exact .inr (List.mem_singleton.1 hc)
      · cases hc
  · dsimp only
    split
    · exact .inr rfl
    · exact .inl rfl

/-! ## Text -/

def Rule.text (indent : List Char) (r : Rule) : List Char :=
  indent ++ r.selector ++ " \x7b\n".toList ++
    r.declarations.flatMap (fun d =>
      indent ++ "  ".toList ++ d.property.toList ++ ": ".toList ++ d.value ++ ";\n".toList) ++
    indent ++ "\x7d\n".toList

/-- rules of one condition -/
def blockText (media : Media) (rules : List Rule) : List Char :=
  match media.text? with
  | none => rules.flatMap (Rule.text [])
  | some condition =>
    "@media ".toList ++ condition ++ " \x7b\n".toList ++ rules.flatMap (Rule.text "  ".toList) ++ "\x7d\n".toList

/-- text of rules, neighbours with one condition in one block -/
def sheetText (rules : List Rule) : List Char :=
  (rules.splitBy fun a b => a.media == b.media).flatMap fun group =>
    match group with
    | [] => []
    | r :: _ => blockText r.media group

/-- style sheet of a list of classes -/
def compile (classes : List (List Char)) : List Char :=
  sheetText ((classes.filterMap compileClass?).mergeSort fun a b => a.media.rank ≤ b.media.rank)

end TsxWorkbench.Utility
