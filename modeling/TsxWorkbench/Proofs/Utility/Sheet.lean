/-
Style sheets of contained classes. A reader of CSS cuts a sheet at the braces and semicolons that have their meaning
(`pieces`) and takes conditions, selectors and declarations from the pieces (`readSheet`). `Reads` is what one stretch
of text does to such a reader, and a stretch after a stretch does what both do, so the text of a declaration, a rule, a
block and a sheet are read one from the other.

- `readSheet_sheetText`: the text of rules is read back as the rules, if no value ends its declaration.
- `compile_contained`: the style sheet of contained classes has one rule for each class that is understood, with the
  class in its selector and with contained values; `value_escapes` is a class that breaks out of its rule.
-/
import Mathlib.Data.List.Perm.Basic
import Mathlib.Data.List.SplitBy
import TsxWorkbench.Proofs.Text.Blank
import TsxWorkbench.Proofs.Utility.Containment
import TsxWorkbench.Proofs.Utility.Selector

namespace TsxWorkbench.Utility

open Number Text

/-! ## A reader of style sheets -/

/-- text without the blanks before it, up to the brace or semicolon that ends it -/
structure Piece where
  text : List Char
  stop : Char
deriving DecidableEq, Repr

/-- pieces of a text; `text` is what was read of the first one, reversed. Nothing may be left after the last one. -/
def piecesFrom (n : Nest) (text : List Char) : List Char → Option (List Piece)
  | [] => if text.isEmpty then some [] else none
  | c :: cs =>
    if n.outside && isStop c then (piecesFrom .start [] cs).map (⟨text.reverse, c⟩ :: ·)
    else if text.isEmpty && isBlank c then piecesFrom .start [] cs
    else (n.step c).bind fun m => piecesFrom m (c :: text) cs

def pieces (cs : List Char) : Option (List Piece) := piecesFrom .start [] cs

/-- a rule as it is read: the condition around it, the text before its brace, and its declarations -/
structure Found where
  condition : Option (List Char)
  selector : List Char
  declarations : List (List Char × List Char)
deriving DecidableEq, Repr

/-- a property and a value around the first colon -/
def readDeclaration? (text : List Char) : Option (List Char × List Char) :=
  (splitFirst? ':' text).map fun (property, value) => (property, trim value)

/-- the class of a selector, with the rest of it -/
def readSelector? : List Char → Option (List Char × List Char)
  | '.' :: cs => some ((readName cs).1, trimEnd (readName cs).2)
  | _ => none

/-- the condition of the block around, the rule that is open, and the rules so far -/
structure Reading where
  condition : Option (List Char)
  rule : Option Found
  found : List Found
deriving DecidableEq, Repr

def Found.declare (f : Found) (d : List Char × List Char) : Found := { f with declarations := f.declarations ++ [d] }

/-- a piece in a block, or outside of all of them -/
def Reading.takeOuter (r : Reading) (p : Piece) : Option Reading :=
  if p.stop = '\x7b' then
    match stripStart? "@media ".toList p.text, r.condition with
    | some condition, none => some ⟨some (trimEnd condition), none, r.found⟩
    | some _, some _ => none
    | none, _ => some ⟨r.condition, some ⟨r.condition, p.text, []⟩, r.found⟩
  else if p.stop = '\x7d' ∧ p.text = [] ∧ r.condition.isSome then some ⟨none, none, r.found⟩
  else none

/-- a piece in a rule; the last declaration may do without a semicolon -/
def Reading.takeInner (r : Reading) (f : Found) (p : Piece) : Option Reading :=
  if p.stop = ';' then (readDeclaration? p.text).map fun d => ⟨r.condition, some (f.declare d), r.found⟩
  else if p.stop = '\x7d' then
    if p.text = [] then some ⟨r.condition, none, r.found ++ [f]⟩
    else (readDeclaration? p.text).map fun d => ⟨r.condition, none, r.found ++ [f.declare d]⟩
  else none

def Reading.take (r : Reading) (p : Piece) : Option Reading :=
  match r.rule with
  | some f => r.takeInner f p
  | none => r.takeOuter p

/-- rules of a style sheet -/
def readSheet (text : List Char) : Option (List Found) :=
  match (pieces text).bind fun ps => ps.foldlM Reading.take ⟨none, none, []⟩ with
  | some ⟨none, none, found⟩ => some found
  | _ => none

/-! ## Stretches of text -/

/-- what a stretch of text does to a reader: it is cut into pieces of its own, and these are taken -/
def Reads (r : Reading) (text : List Char) (r' : Reading) : Prop :=
  ∃ ps, (∀ rest, pieces (text ++ rest) = (pieces rest).map (ps ++ ·)) ∧ ps.foldlM Reading.take r = some r'

variable {r r₁ r₂ r₃ : Reading} {n m : Nest} {text a b indent : List Char} {c : Char}

namespace Reads

theorem append (ha : Reads r₁ a r₂) (hb : Reads r₂ b r₃) : Reads r₁ (a ++ b) r₃ := by
  obtain ⟨ps, hps, hfirst⟩ := ha
  obtain ⟨qs, hqs, hsecond⟩ := hb
  refine ⟨ps ++ qs, fun rest => ?_, ?_⟩
  · rw [List.append_assoc, hps, hqs, Option.map_map]
    exact Option.map_congr fun _ _ => (List.append_assoc ..).symm
  · rw [List.foldlM_append, hfirst]
    exact hsecond

theorem blanks (h : ∀ c ∈ text, isBlank c = true) : Reads r text r := by
  refine ⟨[], fun rest => ?_, rfl⟩
  rw [show (([] : List Piece) ++ ·) = id from rfl, Option.map_id, id]
  induction text with
  | nil => rfl
  | cons c cs ih =>
    rw [List.forall_mem_cons] at h
    rw [← ih h.2]
    simp [pieces, piecesFrom, isStop_of_isNeutral (isNeutral_of_isBlank h.1), h.1]

theorem newline : Reads r ['\n'] r := blanks (List.all_eq_true.1 (by decide))

theorem piecesFrom_append {before : List Char} (hbefore : before ≠ []) (h : n.passes text = some m)
    (rest : List Char) : piecesFrom n before (text ++ rest) = piecesFrom m (text.reverse ++ before) rest := by
  induction text generalizing n before with
  | nil =>
    cases h
    rfl
  | cons c cs ih =>
    rw [Nest.passes] at h
    split at h
    · cases h
    rename_i hstop
    obtain ⟨n', hn', hrest⟩ := Option.bind_eq_some_iff.1 h
    rw [List.cons_append, piecesFrom, if_neg hstop, if_neg (by simp [hbefore]), hn', Option.bind_some,
      ih (List.cons_ne_nil c before) hrest, List.reverse_cons, List.append_assoc]
    rfl

/-- a text that leaves nothing open, and what ends it, are one piece -/
theorem piece (hhead : ∀ c ∈ text.head?, isBlank c = false) (h : Nest.start.passes text = some m)
    (hout : m.outside = true) (hc : isStop c = true) (htake : r.take ⟨text, c⟩ = some r') :
    Reads r (text ++ [c]) r' := by
  refine ⟨[⟨text, c⟩], fun rest => ?_, ?_⟩
  · rw [List.append_assoc]
    show piecesFrom .start [] (text ++ c :: rest) = _
    cases text with
    | nil =>
      cases h
      simp [piecesFrom, pieces, hc, hout]
    | cons d ds =>
      have hd := hhead d rfl
      rw [Nest.passes] at h
      split at h
      · cases h
      rename_i hstop
      obtain ⟨n', hn', hrest⟩ := Option.bind_eq_some_iff.1 h
      rw [List.cons_append, piecesFrom, if_neg hstop, if_neg (by simp [hd]), hn', Option.bind_some,
        piecesFrom_append (List.cons_ne_nil d []) hrest]
      simp [piecesFrom, pieces, hc, hout]
  · rw [List.foldlM_cons, htake]
    rfl

/-- stretches of one kind, each read on its own -/
theorem flatMap {α : Type} {items : List α} (write : α → List Char) (after : List α → Reading)
    (h : ∀ done, ∀ item ∈ items, Reads (after done) (write item) (after (done ++ [item]))) (done : List α) :
    Reads (after done) (items.flatMap write) (after (done ++ items)) := by
  induction items generalizing done with
  | nil => rw [List.append_nil]; exact blanks (by simp)
  | cons item items ih =>
    have hfirst := h done item List.mem_cons_self
    have hrest := ih (fun done' item' hitem => h done' item' (List.mem_cons_of_mem _ hitem)) (done ++ [item])
    rw [List.append_assoc] at hrest
    exact hfirst.append hrest

end Reads

/-! ## Rules -/

/-- a character of a property -/
def isPropertyChar (c : Char) : Bool := c == '-' || (97 ≤ c.toNat && c.toNat ≤ 122)

/-- a property has a name that ends at no colon -/
def isPropertyName (property : String) : Bool := !property.toList.isEmpty && property.toList.all isPropertyChar

theorem isPropertyChar_facts (h : isPropertyChar c = true) : isNeutral c = true ∧ isBlank c = false ∧ c ≠ ':' := by
  simp only [isPropertyChar, Bool.or_eq_true, beq_iff_eq, Bool.and_eq_true, decide_eq_true_eq] at h
  rcases h with rfl | h
  · decide
  · refine ⟨isNeutral_of_code (.inr (.inr (.inr (.inl h)))), isBlank_of_visible (by omega) (by omega), ?_⟩
    rintro rfl
    exact absurd h (by decide)

/-- what a reader needs of a rule to find it as it is -/
structure Rule.Readable (rule : Rule) : Prop where
  selector : ∃ rest, rule.selector = '.' :: rest
  closes : ∃ m, Nest.start.passes rule.selector = some m ∧ m.outside = true
  properties : ∀ d ∈ rule.declarations, isPropertyName d.property = true
  values : AllContained rule.declarations

/-- a declaration as it is read -/
def Declaration.found (d : Declaration) : List Char × List Char := (d.property.toList, trim d.value)

/-- a rule as it is read -/
def Found.ofRule (rule : Rule) : Found :=
  ⟨rule.media.text?, rule.selector ++ [' '], rule.declarations.map Declaration.found⟩

theorem trim_cons_blank (hc : isBlank c = true) (cs : List Char) : trim (c :: cs) = trim cs := by
  rw [trim, trimStart, List.dropWhile_cons_of_pos hc]
  rfl

theorem readDeclaration?_text {d : Declaration} (h : isPropertyName d.property = true) :
    readDeclaration? (d.property.toList ++ ": ".toList ++ d.value) = some d.found := by
  simp only [isPropertyName, Bool.and_eq_true, List.all_eq_true] at h
  have hcolon : ':' ∉ d.property.toList := fun hmem => (isPropertyChar_facts (h.2 ':' hmem)).2.2 rfl
  have htext : d.property.toList ++ ": ".toList ++ d.value = d.property.toList ++ ':' :: (' ' :: d.value) := by simp
  rw [readDeclaration?, htext, splitFirst?_append hcolon]
  show some (d.property.toList, trim (' ' :: d.value)) = _
  rw [trim_cons_blank (by decide)]
  rfl

variable {condition : Option (List Char)} {rules : List Rule} {rule : Rule} {f : Found} {found : List Found}

theorem reads_declaration (hindent : ∀ c ∈ indent, isBlank c = true) {d : Declaration}
    (hname : isPropertyName d.property = true) (hvalue : Contained d.value) :
    Reads ⟨condition, some f, found⟩
      (indent ++ "  ".toList ++ d.property.toList ++ ": ".toList ++ d.value ++ ";\n".toList)
      ⟨condition, some (f.declare d.found), found⟩ := by
  have hread := readDeclaration?_text hname
  simp only [isPropertyName, Bool.and_eq_true, List.all_eq_true] at hname
  have hstart : Neutral (d.property.toList ++ ": ".toList) :=
    List.forall_mem_append.2 ⟨fun c hc => (isPropertyChar_facts (hname.2 c hc)).1, show Neutral ": ".toList by decide⟩
  obtain ⟨m, hm, hout⟩ := (Contained.neutral_append hstart hvalue).closes
  have hhead : ∀ c ∈ (d.property.toList ++ ": ".toList ++ d.value).head?, isBlank c = false := by
    cases hcs : d.property.toList with
    | nil => simp [hcs] at hname
    | cons c cs =>
      rw [hcs] at hname
      rintro _ ⟨⟩
      exact (isPropertyChar_facts (hname.2 c List.mem_cons_self)).2.1
  have hpiece : Reads ⟨condition, some f, found⟩ (d.property.toList ++ ": ".toList ++ d.value ++ [';'])
      ⟨condition, some (f.declare d.found), found⟩ :=
    .piece hhead hm hout (by decide) (by
      simp only [Reading.take, Reading.takeInner, if_true, hread, Option.map_some])
  have hblanks : ∀ c ∈ indent ++ "  ".toList, isBlank c = true :=
    List.forall_mem_append.2 ⟨hindent, List.all_eq_true.1 (by decide)⟩
  have hline := ((Reads.blanks hblanks).append hpiece).append .newline
  simpa using hline

/-- a rule is read as it is, under the condition of the block around -/
theorem reads_rule (hindent : ∀ c ∈ indent, isBlank c = true) (h : rule.Readable) :
    Reads ⟨rule.media.text?, none, found⟩ (rule.text indent)
      ⟨rule.media.text?, none, found ++ [.ofRule rule]⟩ := by
  obtain ⟨rest, hrest⟩ := h.selector
  obtain ⟨m, hm, hout⟩ := h.closes
  have hopens : Reads ⟨rule.media.text?, none, found⟩ (rule.selector ++ [' '] ++ ['\x7b'])
      ⟨rule.media.text?, some ⟨rule.media.text?, rule.selector ++ [' '], []⟩, found⟩ := by
    obtain ⟨-, hdepth, -⟩ := Nest.outside_iff.1 hout
    obtain ⟨b, hb, hspace, -⟩ := Nest.passes_neutral (Nest.outside_iff.1 hout).1
      (Nest.outside_iff.1 hout).2.2 (show Neutral [' '] by decide)
    have hpasses := (Nest.passes_append_of_some hm [' ']).trans hspace
    refine .piece ?_ hpasses (Nest.outside_iff.2 ⟨rfl, hdepth, hb⟩) (by decide) ?_
    · rw [hrest]
      rintro _ ⟨⟩
      decide
    · simp [Reading.take, Reading.takeOuter, hrest, stripStart?]
  have hdeclarations : Reads ⟨rule.media.text?, some ⟨rule.media.text?, rule.selector ++ [' '], []⟩, found⟩
      (rule.declarations.flatMap fun d =>
        indent ++ "  ".toList ++ d.property.toList ++ ": ".toList ++ d.value ++ ";\n".toList)
      ⟨rule.media.text?, some (.ofRule rule), found⟩ :=
    Reads.flatMap _ (fun done => ⟨rule.media.text?,
        some ⟨rule.media.text?, rule.selector ++ [' '], done.map Declaration.found⟩, found⟩)
      (fun done d hd => by
        rw [List.map_append]
        exact reads_declaration hindent (h.properties d hd) (h.values d hd)) []
  have hcloses : Reads ⟨rule.media.text?, some (.ofRule rule), found⟩ ([] ++ ['\x7d'])
      ⟨rule.media.text?, none, found ++ [.ofRule rule]⟩ :=
    .piece (by simp) rfl rfl (by decide) rfl
  have hrule := ((((Reads.blanks hindent).append hopens).append .newline).append hdeclarations).append
    (((Reads.blanks hindent).append hcloses).append .newline)
  simpa [Rule.text] using hrule

/-! ## Blocks -/

theorem reads_rules (hindent : ∀ c ∈ indent, isBlank c = true) (h : ∀ rule ∈ rules, rule.Readable)
    (hcondition : ∀ rule ∈ rules, rule.media.text? = condition) (found : List Found) :
    Reads ⟨condition, none, found⟩ (rules.flatMap (Rule.text indent))
      ⟨condition, none, found ++ rules.map Found.ofRule⟩ := by
  have hstep (done : List Rule) (rule : Rule) (hrule : rule ∈ rules) :
      Reads ⟨condition, none, found ++ done.map Found.ofRule⟩ (rule.text indent)
        ⟨condition, none, found ++ (done ++ [rule]).map Found.ofRule⟩ := by
    rw [List.map_append, ← List.append_assoc, ← hcondition rule hrule]
    exact reads_rule hindent (h rule hrule)
  have hrules := Reads.flatMap (Rule.text indent)
    (fun done => ⟨condition, none, found ++ done.map Found.ofRule⟩) hstep []
  simpa using hrules

/-- a condition is contained and ends with a parenthesis -/
theorem Media.text?_shape {m : Media} {text : List Char} (h : m.text? = some text) :
    Contained text ∧ ∃ before, text = before ++ [')'] := by
  have hwidth (px : Nat) : ∃ before, ("(min-width: " ++ toString px ++ "px)").toList = before ++ [')'] ∧
      Contained (before ++ [')']) := by
    refine ⟨"(min-width: ".toList ++ ((toString px).toList ++ "px".toList), ?_, ?_⟩
    · simp [String.toList_append]
    · exact ((contained_natText px).append_neutral (by decide)).parenthesized (by decide) (by decide)
  have hdark : "(prefers-color-scheme: dark)".toList = "(prefers-color-scheme: dark".toList ++ [')'] ∧
      Contained "(prefers-color-scheme: dark)".toList := by decide +kernel
  obtain ⟨breakpoint, dark⟩ := m
  cases breakpoint with
  | none =>
    cases dark with
    | false => cases h
    | true =>
      cases h
      exact ⟨hdark.2, _, hdark.1⟩
  | some i =>
    obtain ⟨before, hbefore, hcontained⟩ := hwidth ((breakpoints[i]?.map Prod.snd).getD 0)
    cases dark with
    | false =>
      have htext : text = before ++ [')'] := (Option.some.inj h).symm.trans (List.intercalate_singleton.trans hbefore)
      exact ⟨htext ▸ hcontained, before, htext⟩
    | true =>
      have htext : text = before ++ [')'] ++ " and ".toList ++ "(prefers-color-scheme: dark)".toList := by
        rw [← hbefore]
        exact (Option.some.inj h).symm.trans
          (List.intercalate_cons_cons.trans (congrArg _ List.intercalate_singleton))
      have hand := (show Contained "and".toList by decide).append_space hdark.2
      have hboth := hcontained.append_space hand
      rw [htext]
      refine ⟨by simpa using hboth, before ++ [')'] ++ " and (prefers-color-scheme: dark".toList, by simp⟩

theorem reads_block {media : Media} (h : ∀ rule ∈ rules, rule.Readable) (hmedia : ∀ rule ∈ rules, rule.media = media)
    (found : List Found) :
    Reads ⟨none, none, found⟩ (blockText media rules) ⟨none, none, found ++ rules.map Found.ofRule⟩ := by
  have hcondition : ∀ rule ∈ rules, rule.media.text? = media.text? := fun rule hrule => by rw [hmedia rule hrule]
  unfold blockText
  split
  · rename_i htext
    rw [htext] at hcondition
    exact reads_rules (by simp) h hcondition found
  · rename_i condition htext
    rw [htext] at hcondition
    obtain ⟨hcontained, before, hbefore⟩ := Media.text?_shape htext
    have hspaced := hcontained.append_neutral (show Neutral [' '] by decide)
    obtain ⟨m, hm, hout⟩ := (Contained.neutral_append (show Neutral "@media ".toList by decide)
      hspaced).closes
    have htrim : trimEnd (condition ++ [' ']) = condition := by
      rw [hbefore, trimEnd_append_of_not_isBlank before (by decide)]
      simp [trimEnd, show isBlank ' ' = true by decide]
    have hopens : Reads ⟨none, none, found⟩ ("@media ".toList ++ (condition ++ [' ']) ++ ['\x7b'])
        ⟨some condition, none, found⟩ := by
      refine .piece (by simp; decide) hm hout (by decide) ?_
      have hstrip : stripStart? "@media ".toList ("@media ".toList ++ (condition ++ [' '])) =
          some (condition ++ [' ']) := stripStart?_eq_some_iff.2 rfl
      simp only [Reading.take, Reading.takeOuter, hstrip, htrim]
      rfl
    have hcloses : Reads ⟨some condition, none, found ++ rules.map Found.ofRule⟩ ([] ++ ['\x7d'])
        ⟨none, none, found ++ rules.map Found.ofRule⟩ :=
      .piece (by simp) rfl rfl (by decide) rfl
    have hblock := ((hopens.append .newline).append
      (reads_rules (List.all_eq_true.1 (show "  ".toList.all isBlank = true by decide)) h hcondition found)).append
        (hcloses.append .newline)
    simpa using hblock

/-- neighbours with equal conditions all have the condition of the first one -/
theorem media_of_isChain {first : Rule} (h : (first :: rules).IsChain fun a b => (a.media == b.media) = true) :
    ∀ rule ∈ first :: rules, rule.media = first.media := by
  induction rules generalizing first with
  | nil => simp
  | cons second rules ih =>
    rw [List.isChain_cons_cons] at h
    have hrest := ih h.2
    have hsecond : first.media = second.media := beq_iff_eq.1 h.1
    rw [List.forall_mem_cons]
    exact ⟨rfl, fun rule hrule => (hrest rule hrule).trans hsecond.symm⟩

/-- text of neighbours with one condition -/
def groupText : List Rule → List Char
  | [] => []
  | first :: rest => blockText first.media (first :: rest)

theorem sheetText_eq (rules : List Rule) :
    sheetText rules = (rules.splitBy fun a b => a.media == b.media).flatMap groupText := by
  refine List.flatMap_congr fun group _ => ?_
  cases group <;> rfl

/-- **Sheets.** The text of rules is read back as these rules and nothing else. -/
theorem readSheet_sheetText (h : ∀ rule ∈ rules, rule.Readable) :
    readSheet (sheetText rules) = some (rules.map Found.ofRule) := by
  have hgroup : ∀ done : List (List Rule), ∀ group ∈ rules.splitBy fun a b => a.media == b.media,
      Reads ⟨none, none, done.flatten.map Found.ofRule⟩ (groupText group)
        ⟨none, none, (done ++ [group]).flatten.map Found.ofRule⟩ := by
    intro done group hgroup
    have hreadable : ∀ rule ∈ group, rule.Readable := fun rule hrule => by
      refine h rule ?_
      rw [← List.flatten_splitBy (fun a b => a.media == b.media) rules]
      exact List.mem_flatten_of_mem hgroup hrule
    have hchain := List.isChain_of_mem_splitBy hgroup
    cases group with
    | nil => exact absurd hgroup (List.nil_notMem_splitBy _ _)
    | cons first rest =>
      rw [List.flatten_append, List.flatten_singleton, List.map_append]
      exact reads_block hreadable (media_of_isChain hchain) (done.flatten.map Found.ofRule)
  have hread : Reads ⟨none, none, []⟩ (sheetText rules) ⟨none, none, rules.map Found.ofRule⟩ := by
    have hgroups := Reads.flatMap _ (fun done => ⟨none, none, done.flatten.map Found.ofRule⟩) hgroup []
    rw [List.nil_append, List.flatten_splitBy] at hgroups
    rw [sheetText_eq]
    exact hgroups
  obtain ⟨ps, hps, htake⟩ := hread
  have hpieces : pieces (sheetText rules) = some ps := by
    have hall := hps []
    rw [List.append_nil] at hall
    rw [hall]
    exact congrArg some (List.append_nil ps)
  unfold readSheet
  rw [hpieces, Option.bind_some, htake]

/-! ## Classes -/

/-- every property that a utility may set has a name -/
theorem properties_named : (∀ row ∈ keywordRows, ∀ p ∈ row.2, isPropertyName p = true) ∧
    ∀ row ∈ settable, ∀ p ∈ row.2, isPropertyName p = true := by
  have hascii : ((keywordRows.map Prod.snd ++ settable.map Prod.snd).all fun properties => properties.all fun p =>
      isAscii p && (!(asciiChars p).isEmpty && (asciiChars p).all isPropertyChar)) = true := by
    decide +kernel
  simp only [List.all_append, List.all_map, Bool.and_eq_true, List.all_eq_true (p := _ ∘ _)] at hascii
  have hnamed (ps : List String) (h : (ps.all fun p =>
      isAscii p && (!(asciiChars p).isEmpty && (asciiChars p).all isPropertyChar)) = true) :
      ∀ p ∈ ps, isPropertyName p = true := fun p hp =>
    check_of_ascii (fun cs => !cs.isEmpty && cs.all isPropertyChar) (List.all_eq_true.1 h p hp)
  exact ⟨fun row hrow => hnamed _ (hascii.1 row hrow), fun row hrow => hnamed _ (hascii.2 row hrow)⟩

/-- a utility sets properties with names -/
theorem resolve?_properties {utility : List Char} {negative : Bool} {ds : List Declaration}
    (h : resolve? utility negative = some ds) : ∀ d ∈ ds, isPropertyName d.property = true := by
  intro d hd
  rcases resolve?_cases h with ⟨-, hkeyword⟩ | ⟨name, value, -, -, -, hset⟩
  · exact properties_named.1 _ (keyword?_row hkeyword) _ (List.mem_map_of_mem hd)
  · obtain ⟨row, hrow, -, hproperty⟩ := hset d hd
    exact properties_named.2 row hrow _ hproperty

/-- a class without blanks that leaves nothing open -/
structure ContainedClass (raw : List Char) : Prop where
  solid : ∀ c ∈ raw, isBlank c = false
  contained : Contained raw

instance (raw : List Char) : Decidable (ContainedClass raw) :=
  decidable_of_iff ((raw.all fun c => !isBlank c) = true ∧ Contained raw)
    ⟨fun h => ⟨isBlank_of_all h.1, h.2⟩, fun h => ⟨by simpa using h.solid, h.contained⟩⟩

/-- a rule as a reader finds it for a class: its selector is the class with known pseudo-classes, so it selects only
elements of the class, and no brace and no semicolon ends one of its values early -/
structure Found.OfClass (f : Found) (raw : List Char) : Prop where
  compiled : ∃ rule, compileClass? raw = some rule ∧ f = .ofRule rule
  selects : ∃ states : List String, (∀ state ∈ states, state ∈ pseudoClasses.map Prod.snd) ∧
    readSelector? f.selector = some (raw, states.flatMap String.toList)
  values : ∀ d ∈ f.declarations, ¬Exposed d.2

variable {raw : List Char}

theorem isBreak_of_solid (h : isBlank c = false) : isBreak c = false := by
  by_contra hbreak
  simp only [Bool.not_eq_false, isBreak, Bool.or_eq_true, beq_iff_eq] at hbreak
  rcases hbreak with (rfl | rfl) | rfl <;> exact absurd h (by decide)

theorem contained_trim (h : Contained text) : Contained (trim text) := by
  rw [← List.takeWhile_append_dropWhile (p := isBlank) (l := text)] at h
  have hstart : Contained (trimStart text) :=
    h.of_neutral_append fun c hc => isNeutral_of_isBlank (List.mem_takeWhile_imp hc)
  obtain ⟨ws, hws, hblank⟩ := exists_trimEnd_append (trimStart text)
  rw [hws] at hstart
  exact hstart.of_append_level fun c hc => isLevel_of_isNeutral (isNeutral_of_isBlank (hblank c hc))

theorem pseudoClasses_closed : ∀ state ∈ pseudoClasses.map Prod.snd, Nest.start.passes state.toList = some .start ∧
    (state.toList.all fun c => !isBlank c) = true := by
  decide +kernel

variable {states : List String}

theorem passes_states (h : ∀ state ∈ states, state ∈ pseudoClasses.map Prod.snd) :
    Nest.start.passes (states.flatMap String.toList) = some .start := by
  induction states with
  | nil => rfl
  | cons state states ih =>
    rw [List.forall_mem_cons] at h
    rw [List.flatMap_cons, Nest.passes_append_of_some (pseudoClasses_closed state h.1).1, ih h.2]

theorem solid_states (h : ∀ state ∈ states, state ∈ pseudoClasses.map Prod.snd) :
    ∀ c ∈ states.flatMap String.toList, isBlank c = false := by
  intro c hc
  obtain ⟨state, hstate, hc⟩ := List.mem_flatMap.1 hc
  exact isBlank_of_all (pseudoClasses_closed state (h state hstate)).2 c hc

theorem trimEnd_of_solid (h : ∀ c ∈ text, isBlank c = false) : trimEnd (text ++ [' ']) = text := by
  rw [trimEnd_append_blanks text (List.all_eq_true.1 (by decide))]
  exact List.rdropWhile_eq_self_iff.2 fun hne => by simp [h _ (List.getLast_mem hne)]

theorem readable_of_compileClass? (hraw : ContainedClass raw) (h : compileClass? raw = some rule) : rule.Readable := by
  have hbreak : ∀ c ∈ raw, isBreak c = false := fun c hc => isBreak_of_solid (hraw.solid c hc)
  obtain ⟨variants, utility, negative, ds, hvariants, -, hds, -, hselector, hdeclared⟩ := compileClass?_shape h
  obtain ⟨-, states, hstates, hpseudo⟩ := Variants.ofNames_cases hvariants
  refine ⟨⟨_, hselector⟩, ?_, ?_, compileClass?_contained hraw.contained h⟩
  · have hdot := Nest.start_passes_neutral (show Neutral ['.'] by decide)
    have hname := (Nest.passes_append_of_some hdot _).trans (Nest.passes_escapeClass hbreak)
    rw [hselector, hpseudo]
    exact ⟨.start, (Nest.passes_append_of_some hname _).trans (passes_states hstates), rfl⟩
  · have hproperties := resolve?_properties hds
    rcases hdeclared with hplain | himportant
    · rw [hplain]
      exact hproperties
    · rw [himportant]
      intro d hd
      obtain ⟨d', hd', rfl⟩ := List.mem_map.1 hd
      exact hproperties d' hd'

theorem ofClass_of_compileClass? (hraw : ContainedClass raw) (h : compileClass? raw = some rule) :
    (Found.ofRule rule).OfClass raw := by
  have hbreak : ∀ c ∈ raw, isBreak c = false := fun c hc => isBreak_of_solid (hraw.solid c hc)
  obtain ⟨variants, -, -, -, hvariants, -, -, -, hselector, -⟩ := compileClass?_shape h
  obtain ⟨-, states, hstates, hpseudo⟩ := Variants.ofNames_cases hvariants
  refine ⟨⟨rule, h, rfl⟩, ⟨states, hstates, ?_⟩, fun d hd => ?_⟩
  · -- the pseudo-classes after a class are no part of its name
    have hends : EndsName (states.flatMap String.toList ++ [' ']) :=
      (endsName_states hstates).append (by rintro _ ⟨⟩; decide)
    have hname := readName_escapeClass hbreak hends
    rw [Found.ofRule, hselector, hpseudo, List.cons_append, List.append_assoc, readSelector?, hname,
      trimEnd_of_solid (solid_states hstates)]
  · obtain ⟨d', hd', rfl⟩ := List.mem_map.1 hd
    exact not_exposed_of_contained (contained_trim (compileClass?_contained hraw.contained h d' hd'))

theorem forall₂_filterMap {classes : List (List Char)} {p : Rule → List Char → Prop}
    (h : ∀ raw ∈ classes, ∀ rule, compileClass? raw = some rule → p rule raw) :
    List.Forall₂ p (classes.filterMap compileClass?) (classes.filter fun raw => (compileClass? raw).isSome) := by
  induction classes with
  | nil => exact .nil
  | cons raw classes ih =>
    rw [List.forall_mem_cons] at h
    cases hrule : compileClass? raw with
    | none => simpa [List.filterMap_cons, List.filter_cons, hrule] using ih h.2
    | some rule => simpa [List.filterMap_cons, List.filter_cons, hrule] using ⟨h.1 rule hrule, ih h.2⟩

/-- **Classes stay in their rules.** If every class leaves nothing open, the style sheet is read as one rule for each
class that is understood and nothing else: its selector is that class with known pseudo-classes, and no brace and no
semicolon stands in its values outside of quotes and parentheses. -/
theorem compile_contained {classes : List (List Char)} (hclasses : ∀ raw ∈ classes, ContainedClass raw) :
    ∃ found kept, readSheet (compile classes) = some found ∧
      kept.Perm (classes.filter fun raw => (compileClass? raw).isSome) ∧ List.Forall₂ Found.OfClass found kept := by
  have hsorted := List.mergeSort_perm (classes.filterMap compileClass?) fun a b => a.media.rank ≤ b.media.rank
  have hreadable : ∀ rule ∈ (classes.filterMap compileClass?).mergeSort fun a b => a.media.rank ≤ b.media.rank,
      rule.Readable := fun rule hrule => by
    obtain ⟨raw, hraw, hcompiled⟩ := List.mem_filterMap.1 (hsorted.mem_iff.1 hrule)
    exact readable_of_compileClass? (hclasses raw hraw) hcompiled
  have hrules := forall₂_filterMap (p := fun rule raw => (Found.ofRule rule).OfClass raw)
    fun raw hraw rule hrule => ofClass_of_compileClass? (hclasses raw hraw) hrule
  obtain ⟨kept, hkept, hperm⟩ := List.perm_comp_forall₂ hsorted hrules
  exact ⟨_, kept, readSheet_sheetText hreadable, hperm, List.forall₂_map_left_iff.2 hkept⟩

/-- classes with a semicolon in quotes, and with parentheses -/
def quotedClasses : List (List Char) := ["hover:bg-[url('a;b')]".toList, "md:-mt-[calc(1px_+_2px)]".toList]

theorem compile_contained_quoted : (∀ raw ∈ quotedClasses, ContainedClass raw) ∧
    ∃ found kept, readSheet (compile quotedClasses) = some found ∧
      kept.Perm (quotedClasses.filter fun raw => (compileClass? raw).isSome) ∧
      List.Forall₂ Found.OfClass found kept := by
  have hclasses : ∀ raw ∈ quotedClasses, ContainedClass raw := by decide +kernel
  exact ⟨hclasses, compile_contained hclasses⟩

/-- a class whose value ends its declaration and its rule, and begins a rule for the page -/
def breakout : List Char := "bg-[red\x7dbody\x7bdisplay:none]".toList

def breakoutRule : Rule :=
  ⟨.always, ".bg-\\[red\\\x7dbody\\\x7bdisplay\\:none\\]".toList,
    [⟨"background-color", "red\x7dbody\x7bdisplay:none".toList⟩]⟩

/-- **A class can leave its rule.** What stands in brackets is written into the sheet as it is, so a value may hold
braces of its own, and what was one class is read as two rules. -/
theorem value_escapes :
    (¬∀ classes : List (List Char), (∀ raw ∈ classes, ∀ c ∈ raw, isBlank c = false) →
      ∀ rule ∈ classes.filterMap compileClass?, ∀ d ∈ rule.declarations, ¬Exposed d.value) ∧
    readSheet (compile [breakout]) = some
      [⟨none, breakoutRule.selector ++ [' '], [("background-color".toList, "red".toList)]⟩,
        ⟨none, "body".toList, [("display".toList, "none".toList)]⟩] := by
  have hrule : compileClass? breakout = some breakoutRule := by decide +kernel
  constructor
  · intro hall
    have hsolid : ∀ raw ∈ [breakout], ∀ c ∈ raw, isBlank c = false :=
      List.forall_mem_singleton.2 (isBlank_of_all (by decide +kernel))
    have hmem : breakoutRule ∈ [breakout].filterMap compileClass? := List.mem_filterMap.2 ⟨breakout, by simp, hrule⟩
    refine hall [breakout] hsolid breakoutRule hmem _ List.mem_cons_self ?_
    exact ⟨"red".toList, '\x7d', "body\x7bdisplay:none".toList, .start, by decide, by decide, by decide, by decide⟩
  · have hsheet : compile [breakout] = sheetText [breakoutRule] := by simp [compile, hrule]
    rw [hsheet]
    decide +kernel

end TsxWorkbench.Utility
