/-
Values of contained classes. Whatever a utility is read as, its values are contained if the class is: they come from a
fixed table, are written as numbers, or are what stands in the brackets of the class.

- `Keeps`: a reader that gives contained values for contained ones; one lemma for each reader of values.
- `resolve?_contained`: the values of a utility.
- `compileClass?_contained`: the values of the rule of a class.
-/
import TsxWorkbench.Proofs.Text.Encoding
import TsxWorkbench.Proofs.Utility.Enclosure

namespace TsxWorkbench.Utility

open Number Text

variable {value out v : List Char} {negative : Bool} {property : String} {ds : List Declaration}

/-! ## Texts of numbers -/

theorem isNeutral_of_isNumberChar {c : Char} (h : isNumberChar c = true) : isNeutral c = true := by
  rcases code_of_isNumberChar h with h | h | h | rfl | rfl | rfl
  · exact isNeutral_of_code (.inl h)
  · exact isNeutral_of_code (.inr (.inl h))
  · exact isNeutral_of_code (.inr (.inr (.inr (.inl h))))
  · decide
  · decide
  · decide

theorem neutral_of_numberChars (h : ∀ c ∈ v, isNumberChar c = true) : Neutral v :=
  fun c hc => isNeutral_of_isNumberChar (h c hc)

theorem neutral_scriptText (x : Binary64) : Neutral x.scriptText :=
  neutral_of_numberChars (chars_scriptText x)

theorem neutral_trimDecimal (places : Nat) (x : Binary64) : Neutral (trimDecimal places x) := by
  intro c hc
  have hdropped : ∀ (p : Char → Bool) (cs : List Char), c ∈ dropEndWhile p cs → c ∈ cs := fun p cs h =>
    List.mem_reverse.1 ((List.dropWhile_sublist _).subset (List.mem_reverse.1 h))
  exact neutral_of_numberChars (chars_fixed places x) c (hdropped _ _ (hdropped _ _ hc))

/-! ## Fixed texts -/

/-- whether an ASCII text is contained. Most texts of the tables are neutral, which is quicker to see -/
def isContainedAscii (s : String) : Bool :=
  isAscii s && ((asciiChars s).all isNeutral || contained (asciiChars s))

theorem contained_of_isContainedAscii {s : String} (h : isContainedAscii s = true) : Contained s.toList := by
  have hcheck := check_of_ascii (fun cs => cs.all isNeutral || contained cs) h
  rcases Bool.or_eq_true_iff.1 hcheck with hneutral | hcontained
  · exact .of_neutral (List.all_eq_true.1 hneutral)
  · exact contained_iff.1 hcontained

theorem neutral_of_ascii {s : String} (h : (isAscii s && (asciiChars s).all isNeutral) = true) : Neutral s.toList :=
  List.all_eq_true.1 (check_of_ascii (·.all isNeutral) h)

/-! ## Readers of values -/

/-- a reader that gives contained values for contained ones -/
def Keeps (read : List Char → Option (List Char)) : Prop :=
  ∀ value out, Contained value → read value = some out → Contained out

theorem Keeps.orElse {f g : List Char → Option (List Char)} (hf : Keeps f) (hg : Keeps g) :
    Keeps fun value => f value <|> g value := by
  intro value out hvalue hout
  change (f value <|> g value) = some out at hout
  rw [Option.orElse_eq_orElse, Option.orElse_eq_or, Option.or_eq_some_iff] at hout
  rcases hout with hout | ⟨-, hout⟩
  · exact hf value out hvalue hout
  · exact hg value out hvalue hout

theorem keeps_arbitrary : Keeps arbitrary? := by
  intro value out hvalue hout
  obtain ⟨inner, rfl, -, rfl⟩ := eq_bracketed_of_arbitrary? hout
  have hopened : Contained (['['] ++ (inner ++ [']'])) := hvalue
  exact ((hopened.of_neutral_append (by decide)).of_append_level (by decide)).spaced

/-- tables of the values that stand for names -/
def valueTables : List (List (String × String)) :=
  [[("auto", "auto"), ("full", "100%")], maxWidths, colourNames, lineHeights, trackings,
   [("first", "-9999"), ("last", "9999"), ("none", "0")], [("none", "none"), ("subgrid", "subgrid")], radii, shadows,
   fontWeights, fontFamilies]

/-- values of the tables -/
def tableTexts : List String :=
  valueTables.flatMap (·.map Prod.snd) ++ (fontSizes.flatMap (fun row => [row.2.1, row.2.2]) ++
    (palette.flatMap Prod.snd ++ (namesOfProperty.flatMap Prod.snd ++ (singleKeywords.map (·.2.2) ++
      (startedNames.flatMap (·.2.2) ++ families.flatMap (·.2.2.map Prod.snd))))))

theorem tableTexts_contained : ∀ s ∈ tableTexts, Contained s.toList := by
  have hascii : tableTexts.all isContainedAscii = true := by decide +kernel
  exact fun s hs => contained_of_isContainedAscii (List.all_eq_true.1 hascii s hs)

theorem groupKeywords_contained : ∀ row ∈ groupKeywords, ∀ d ∈ row.2, Contained d.value := by
  have hdeclare {property value : String} (h : isContainedAscii value = true) :
      ∀ d ∈ declare property value, Contained d.value :=
    List.forall_mem_singleton.2 (contained_of_isContainedAscii h)
  simp only [groupKeywords, transition, List.forall_mem_cons, List.forall_mem_append]
  and_intros
  all_goals first
    | exact hdeclare (by decide +kernel)
    | exact fun _ h => absurd h List.not_mem_nil

theorem keywordValues_contained : ∀ v ∈ keywordValues, Contained v := by
  have htexts : ∀ v ∈ tableTexts.map String.toList, Contained v := List.forall_mem_map.2 tableTexts_contained
  have hgroups : ∀ v ∈ groupKeywords.flatMap (fun p => p.2.map Declaration.value), Contained v := by
    simp only [List.mem_flatMap, List.mem_map]
    rintro _ ⟨row, hrow, d, hd, rfl⟩
    exact groupKeywords_contained row hrow d hd
  simp only [tableTexts, List.map_append, List.map_flatMap, List.map_map, Function.comp_def,
    List.forall_mem_append] at htexts
  obtain ⟨-, -, -, hnames, hsingle, hstarted, hfamilies⟩ := htexts
  simp only [keywordValues, List.forall_mem_append]
  exact ⟨hnames, hsingle, hstarted, hgroups, hfamilies⟩

theorem keeps_table {table : List (String × String)} (htable : ∀ row ∈ table, Contained row.2.toList) :
    Keeps (named? table) := by
  intro value out _ hout
  obtain ⟨w, hw, rfl⟩ := Option.map_eq_some_iff.1 hout
  obtain ⟨before, after, rfl, -⟩ := List.lookup_eq_some_iff.1 hw
  exact htable _ (List.mem_append_right _ List.mem_cons_self)

theorem keeps_named {table : List (String × String)} (h : table ∈ valueTables) : Keeps (named? table) :=
  keeps_table fun _ hrow => tableTexts_contained _ (List.mem_append_left _
    (List.mem_flatMap.2 ⟨table, h, List.mem_map_of_mem hrow⟩))

theorem contained_negate (h : Contained v) : Contained (negate v) := by
  unfold negate
  split
  · exact h
  split
  · exact show Contained (['-'] ++ v) from .neutral_append (by decide) h
  · have heq : "calc(".toList ++ v ++ " * -1)".toList = "calc(".toList ++ (v ++ ' ' :: "* -1".toList) ++ [')'] := by
      simp
    rw [heq]
    exact (h.append_space (by decide)).parenthesized (by decide) (by decide)

theorem contained_negateIf (h : Contained v) : Contained (negateIf negative v) := by
  unfold negateIf
  split
  · exact contained_negate h
  · exact h

theorem contained_spacingStep? (h : spacingStep? value = some out) : Contained out := by
  unfold spacingStep? at h
  split at h
  · cases h
  split at h
  · split at h
    · cases h
    · cases h
      exact (Contained.of_neutral (neutral_scriptText _)).append_neutral (by decide)
  · cases h

theorem keeps_spacing (negative : Bool) : Keeps fun value => spacing? value negative := by
  intro value out hvalue hout
  obtain ⟨v, hv, rfl⟩ := Option.map_eq_some_iff.1 hout
  refine contained_negateIf ?_
  split at hv
  · cases hv
    decide
  split at hv
  · cases hv
    decide
  split at hv
  · cases hv
    exact keeps_arbitrary value _ hvalue ‹_›
  · exact contained_spacingStep? hv

theorem contained_fraction? (h : fraction? value = some out) : Contained out := by
  unfold fraction? at h
  split at h
  · cases h
  split at h
  · split at h
    · cases h
    · cases h
      exact (Contained.of_neutral (neutral_trimDecimal _ _)).append_neutral (by decide)
  · cases h

theorem keeps_fraction : Keeps fraction? := fun _ _ _ h => contained_fraction? h

theorem keeps_size {screen : String} (hscreen : Contained screen.toList) : Keeps (size? screen) := by
  have hnames : ∀ row ∈ sizeNames screen, Contained row.2.toList := by
    simp only [sizeNames, List.forall_mem_cons]
    exact ⟨by decide, by decide, hscreen, by decide, by decide, by decide, by simp⟩
  exact (keeps_table hnames).orElse (keeps_fraction.orElse (keeps_spacing false))

theorem keeps_inset (negative : Bool) : Keeps fun value => inset? value negative := by
  intro value out hvalue hout
  dsimp only [inset?] at hout
  split at hout
  · rename_i v hv
    cases hout
    exact contained_negateIf ((keeps_named (by simp [valueTables])).orElse keeps_fraction value v hvalue hv)
  · exact keeps_spacing negative value out hvalue hout

theorem contained_natText (n : Nat) : Contained (toString n).toList :=
  .of_neutral (neutral_of_numberChars (chars_natText n))

theorem keeps_maxWidth : Keeps maxWidth? := by
  intro value out hvalue hout
  unfold maxWidth? at hout
  split at hout
  · cases hout
    exact (keeps_named (by simp [valueTables]) : Keeps (named? maxWidths)) value _ hvalue ‹_›
  split at hout
  · obtain ⟨px, -, rfl⟩ := Option.map_eq_some_iff.1 hout
    rw [String.toList_append]
    exact (contained_natText px).append_neutral (by decide)
  · exact keeps_size (by decide) value out hvalue hout

/-! ## Colours -/

theorem contained_lookup? {name : List Char} {hex : String} (h : lookup? name = some hex) :
    Contained hex.toList := by
  unfold lookup? at h
  split at h
  · cases h
    decide
  split at h
  · cases h
    decide
  split at h
  · cases h
  split at h
  · rename_i i colours _ hfamily
    obtain ⟨before, after, hrows, -⟩ := List.lookup_eq_some_iff.1 hfamily
    have hrow := hrows ▸ List.mem_append_right before List.mem_cons_self
    have hhex : hex ∈ palette.flatMap Prod.snd := List.mem_flatMap.2 ⟨_, hrow, List.mem_of_getElem? h⟩
    exact tableTexts_contained hex (by simp only [tableTexts, List.mem_append, hhex, true_or, or_true])
  · cases h

/-- an opacity opens and closes nothing -/
theorem level_of_alpha? {tail : List Char} {a : Binary64} (h : alpha? tail = some a) :
    Level tail := by
  unfold alpha? at h
  split at h
  · rename_i spacedInner harbitrary
    obtain ⟨inner, rfl, -, rfl⟩ := eq_bracketed_of_arbitrary? harbitrary
    have hinner : Level inner := by
      intro c hc
      have hnumber := chars_of_decimal? h _ (List.mem_map.2 ⟨c, hc, rfl⟩)
      split at hnumber
      · exact absurd hnumber (by decide)
      · exact isLevel_of_isNeutral (isNeutral_of_isNumberChar hnumber)
    refine List.forall_mem_cons.2 ⟨by decide, List.forall_mem_append.2 ⟨hinner, show Level [']'] by decide⟩⟩
  · split at h
    · rename_i n hn
      exact fun c hc => isLevel_of_isNeutral (isNeutral_of_isNumberChar (chars_of_unsigned? hn c hc))
    · cases h

/-- the colour of a contained value is contained -/
theorem contained_splitAlpha (h : Contained value) : Contained (splitAlpha value).1 := by
  unfold splitAlpha
  split
  · exact h
  · rename_i base tail hsplit
    split
    · rename_i a ha
      rw [eq_of_splitLast? hsplit] at h
      exact h.of_append_level (List.forall_mem_cons.2 ⟨by decide, level_of_alpha? ha⟩)
    · exact h

theorem keeps_baseColour : Keeps baseColour? := by
  intro base out hbase hout
  unfold baseColour? at hout
  split at hout
  · cases hout
    exact (keeps_named (by simp [valueTables]) : Keeps (named? colourNames)) base _ hbase ‹_›
  split at hout
  · split at hout
    · cases hout
    · cases hout
      exact keeps_arbitrary base _ hbase ‹_›
  · obtain ⟨hex, hhex, rfl⟩ := Option.map_eq_some_iff.1 hout
    exact contained_lookup? hhex

theorem contained_withAlpha (h : Contained v) (alpha : Binary64) : Contained (withAlpha v alpha) := by
  unfold withAlpha
  split
  · rename_i r g b _
    have hchannels := ((contained_natText r).append_space (contained_natText g)).append_space (contained_natText b)
    have hopacity := (show Contained ['/'] by decide).append_space (.of_neutral (neutral_scriptText alpha))
    have heq : s!"rgb({r} {g} {b} / ".toList ++ alpha.scriptText ++ [')'] = "rgb(".toList ++
        ((toString r).toList ++ ' ' :: (toString g).toList ++ ' ' :: (toString b).toList ++
          ' ' :: (['/'] ++ ' ' :: alpha.scriptText)) ++ [')'] := by
      simp [String.toList_append, toString]
    rw [heq]
    exact (hchannels.append_space hopacity).parenthesized (by decide) (by decide)
  · have hpercent : Contained ((alpha.mul (.ofNat 100)).scriptText ++ "%, transparent".toList) :=
      (Contained.of_neutral (neutral_scriptText _)).append_neutral (by decide)
    have heq : "%, transparent)".toList = "%, transparent".toList ++ [')'] := by decide
    have htext : Contained ("color-mix(in srgb, ".toList ++ (v ++ ' ' :: ((alpha.mul (.ofNat 100)).scriptText ++
        "%, transparent".toList)) ++ [')']) :=
      (h.append_space hpercent).parenthesized (by decide) (by decide)
    rw [heq]
    simpa only [List.append_assoc, List.cons_append] using htext

theorem keeps_colour : Keeps colour? := by
  intro value out hvalue hout
  have hbase := contained_splitAlpha hvalue
  unfold colour? at hout
  dsimp only at hout
  split at hout
  · cases hout
  · rename_i hresolved _
    cases hout
    exact keeps_baseColour _ _ hbase hresolved
  · rename_i hresolved _
    cases hout
    exact contained_withAlpha (keeps_baseColour _ _ hbase hresolved) _

/-! ## Texts, numbers and boxes -/

theorem keeps_leading : Keeps leading? :=
  (keeps_named (by simp [valueTables])).orElse (keeps_arbitrary.orElse (keeps_spacing false))

theorem keeps_tracking (negative : Bool) : Keeps fun value => tracking? value negative := by
  intro value out hvalue hout
  obtain ⟨v, hv, rfl⟩ := Option.map_eq_some_iff.1 hout
  exact contained_negateIf ((keeps_named (by simp [valueTables])).orElse keeps_arbitrary value v hvalue hv)

theorem keeps_opacity : Keeps opacity? := by
  intro value out hvalue hout
  unfold opacity? at hout
  split at hout
  · cases hout
    exact keeps_arbitrary value _ hvalue ‹_›
  split at hout
  · split at hout
    · cases hout
      exact .of_neutral (neutral_scriptText _)
    · cases hout
  · cases hout

theorem keeps_integer (negative : Bool) : Keeps fun value => integer? value negative := by
  intro value out hvalue hout
  dsimp only [integer?] at hout
  split at hout
  · cases hout
    exact keeps_arbitrary value _ hvalue ‹_›
  · obtain ⟨n, -, rfl⟩ := Option.map_eq_some_iff.1 hout
    exact .of_neutral (neutral_of_numberChars (chars_intText _))

theorem keeps_order (negative : Bool) : Keeps fun value => order? value negative := by
  have hnames : Keeps (named? [("first", "-9999"), ("last", "9999"), ("none", "0")]) :=
    keeps_named (by simp [valueTables])
  intro value out hvalue hout
  dsimp only [order?] at hout
  split at hout
  · cases hout
    exact hnames value _ hvalue ‹_›
  · exact keeps_integer negative value out hvalue hout

theorem keeps_gridTemplate : Keeps gridTemplate? := by
  have hnames : Keeps (named? [("none", "none"), ("subgrid", "subgrid")]) := keeps_named (by simp [valueTables])
  intro value out hvalue hout
  unfold gridTemplate? at hout
  split at hout
  · cases hout
    exact hnames.orElse keeps_arbitrary value _ hvalue ‹_›
  split at hout
  · rename_i n _
    split at hout
    · cases hout
      have hcount : Contained ((toString n).toList ++ [',']) := (contained_natText n).append_neutral (by decide)
      have htrack : Contained ("minmax(".toList ++ "0, 1fr".toList ++ [')']) :=
        (show Contained "0, 1fr".toList by decide).parenthesized (by decide) (by decide)
      have htracks := hcount.append_space htrack
      have heq : s!"repeat({n}, minmax(0, 1fr))".toList = "repeat(".toList ++
          ((toString n).toList ++ [','] ++ ' ' :: "minmax(0, 1fr)".toList) ++ [')'] := by
        simp [String.toList_append, toString]
      rw [heq]
      exact htracks.parenthesized (by decide) (by decide)
    · cases hout
  · cases hout

theorem keeps_gridSpan : Keeps gridSpan? := by
  intro value out _ hout
  unfold gridSpan? at hout
  split at hout
  · cases hout
    decide
  split at hout
  · rename_i n _
    split at hout
    · cases hout
      have hend : Contained ("span ".toList ++ (toString n).toList) := .neutral_append (by decide) (contained_natText n)
      have hboth := (hend.append_space (show Contained ['/'] by decide)).append_space hend
      have heq : s!"span {n} / span {n}".toList = "span ".toList ++ (toString n).toList ++ ' ' :: ['/'] ++
          ' ' :: ("span ".toList ++ (toString n).toList) := by
        simp [String.toList_append, toString]
      rw [heq]
      exact hboth
    · cases hout
  · cases hout

theorem contained_borderWidth? {value : Option (List Char)} (hvalue : ∀ v ∈ value, Contained v)
    (h : borderWidth? value = some out) : Contained out := by
  cases value with
  | none =>
    cases h
    decide
  | some v =>
    have hv := hvalue v rfl
    unfold borderWidth? at h
    dsimp only at h
    split at h
    · cases h
      exact hv.append_neutral (by decide)
    split at h
    · split at h
      · cases h
        exact keeps_arbitrary v _ hv ‹_›
      · cases h
    · cases h

theorem contained_radius? {value : Option (List Char)} (hvalue : ∀ v ∈ value, Contained v)
    (h : radius? value = some out) : Contained out := by
  cases value with
  | none =>
    cases h
    decide
  | some v => exact (keeps_named (by simp [valueTables])).orElse keeps_arbitrary v out (hvalue v rfl) h

theorem contained_shadow? {value : Option (List Char)} (hvalue : ∀ v ∈ value, Contained v)
    (h : shadow? value = some out) : Contained out := by
  cases value with
  | none =>
    cases h
    decide
  | some v => exact (keeps_named (by simp [valueTables])).orElse keeps_arbitrary v out (hvalue v rfl) h

theorem keeps_millis : Keeps millis? := by
  intro value out hvalue hout
  unfold millis? at hout
  split at hout
  · cases hout
    exact keeps_arbitrary value _ hvalue ‹_›
  · obtain ⟨n, -, rfl⟩ := Option.map_eq_some_iff.1 hout
    have heq : s!"{n}ms".toList = (toString n).toList ++ "ms".toList := by simp [String.toList_append, toString]
    rw [heq]
    exact (contained_natText n).append_neutral (by decide)

/-! ## Utilities -/

/-- declarations whose values are contained -/
def AllContained (ds : List Declaration) : Prop := ∀ d ∈ ds, Contained d.value

theorem allContained_one {value : Option (List Char)} (hvalue : ∀ v ∈ value, Contained v)
    (h : one property value = some ds) : AllContained ds := by
  obtain ⟨v, hv, rfl⟩ := Option.map_eq_some_iff.1 h
  exact List.forall_mem_singleton.2 (hvalue v hv)

theorem allContained_declareAll {properties : List String} {value : Option (List Char)}
    (hvalue : ∀ v ∈ value, Contained v) (h : value.map (declareAll properties) = some ds) : AllContained ds := by
  obtain ⟨v, hv, rfl⟩ := Option.map_eq_some_iff.1 h
  intro d hd
  obtain ⟨p, -, rfl⟩ := List.mem_map.1 hd
  exact hvalue v hv

/-- what a reader finds in an optional value -/
theorem Keeps.bind {read : List Char → Option (List Char)} (hread : Keeps read) {value : Option (List Char)}
    (hvalue : ∀ v ∈ value, Contained v) : ∀ out ∈ value.bind read, Contained out := by
  intro out hout
  obtain ⟨v, hv, hout⟩ := Option.bind_eq_some_iff.1 hout
  exact hread v out (hvalue v hv) hout

theorem allContained_textUtility? (hvalue : Contained value) (h : textUtility? value = some ds) : AllContained ds := by
  have hcolour : ∀ v ∈ colour? value, Contained v := fun v hv => keeps_colour value v hvalue hv
  unfold textUtility? at h
  split at h
  · rename_i size height hlookup
    cases h
    obtain ⟨before, after, hrows, -⟩ := List.lookup_eq_some_iff.1 hlookup
    have hrow := hrows ▸ List.mem_append_right before List.mem_cons_self
    have htexts : ∀ s ∈ [size, height], Contained s.toList := fun s hs =>
      tableTexts_contained s (List.mem_append_right _ (List.mem_append_left _ (List.mem_flatMap.2 ⟨_, hrow, hs⟩)))
    exact List.forall_mem_cons.2 ⟨htexts size (by simp), List.forall_mem_singleton.2 (htexts height (by simp))⟩
  split at h
  · split at h
    · cases h
      exact List.forall_mem_singleton.2 (keeps_arbitrary value _ hvalue ‹_›)
    · exact allContained_one hcolour h
  · exact allContained_one hcolour h

theorem allContained_fontUtility? (hvalue : Contained value) (h : fontUtility? value = some ds) : AllContained ds := by
  have hweights : Keeps (named? fontWeights) := keeps_named (by simp [valueTables])
  have hfamilies : Keeps (named? fontFamilies) := keeps_named (by simp [valueTables])
  unfold fontUtility? at h
  split at h
  · cases h
    exact List.forall_mem_singleton.2 (hweights value _ hvalue ‹_›)
  split at h
  · cases h
    exact List.forall_mem_singleton.2 (hfamilies value _ hvalue ‹_›)
  · obtain ⟨inner, hinner, rfl⟩ := Option.map_eq_some_iff.1 h
    exact List.forall_mem_singleton.2 (keeps_arbitrary value _ hvalue hinner)

theorem allContained_sides? {name : String} {value : Option (List Char)} (hvalue : ∀ v ∈ value, Contained v)
    (h : sides? name value negative = some (some ds)) : AllContained ds := by
  unfold sides? at h
  split at h
  · exact allContained_declareAll ((keeps_spacing false).bind hvalue) (Option.some.inj h)
  split at h
  · refine allContained_declareAll (Keeps.bind (fun v out hv hout => ?_) hvalue) (Option.some.inj h)
    split at hout
    · cases hout
      exact hv
    · exact keeps_spacing negative v out hv hout
  split at h
  · exact allContained_declareAll ((keeps_inset negative).bind hvalue) (Option.some.inj h)
  split at h
  · exact allContained_declareAll ((keeps_spacing false).bind hvalue) (Option.some.inj h)
  split at h
  · have hfound := Option.some.inj h
    split at hfound
    · rename_i width hwidth
      cases hfound
      have hcontained : ∀ v ∈ some width, Contained v := fun v hv =>
        contained_borderWidth? hvalue (hwidth.trans (Option.mem_def.1 hv))
      exact allContained_declareAll hcontained rfl
    · split at hfound
      · exact allContained_one (keeps_colour.bind hvalue) hfound
      · cases hfound
  split at h
  · exact allContained_declareAll (fun v hv => contained_radius? hvalue hv) (Option.some.inj h)
  · cases h

theorem allContained_valued? {name : String} (hvalue : Contained value) (h : valued? name value negative = some ds) :
    AllContained ds := by
  have hread {read : List Char → Option (List Char)} (hkeeps : Keeps read) : ∀ v ∈ read value, Contained v :=
    fun v hv => hkeeps value v hvalue hv
  have hwide : Contained "100vw".toList := by decide
  have hhigh : Contained "100vh".toList := by decide
  unfold valued? at h
  split at h
  case h_1 => exact allContained_one (hread (keeps_size hwide)) h
  case h_2 => exact allContained_one (hread (keeps_size hhigh)) h
  case h_3 => exact allContained_declareAll (hread (keeps_size (by decide))) h
  case h_4 => exact allContained_one (hread (keeps_size hwide)) h
  case h_5 => exact allContained_one (hread (keeps_size hhigh)) h
  case h_6 => exact allContained_one (hread keeps_maxWidth) h
  case h_7 => exact allContained_one (hread (keeps_size hhigh)) h
  case h_8 => exact allContained_one (hread (keeps_size hwide)) h
  case h_9 => exact allContained_textUtility? hvalue h
  case h_10 => exact allContained_one (hread keeps_colour) h
  case h_11 => exact allContained_one (hread keeps_colour) h
  case h_12 => exact allContained_one (hread keeps_colour) h
  case h_13 => exact allContained_fontUtility? hvalue h
  case h_14 => exact allContained_one (hread keeps_leading) h
  case h_15 => exact allContained_one (hread (keeps_tracking negative)) h
  case h_16 => exact allContained_one (hread keeps_opacity) h
  case h_17 =>
    refine allContained_one (fun v hv => ?_) h
    split at hv
    · cases hv
      exact hvalue
    · exact keeps_integer negative value v hvalue hv
  case h_18 => exact allContained_one (hread (keeps_order negative)) h
  case h_19 => exact allContained_one (hread keeps_gridTemplate) h
  case h_20 => exact allContained_one (hread keeps_gridTemplate) h
  case h_21 => exact allContained_one (hread keeps_gridSpan) h
  case h_22 => exact allContained_one (hread keeps_gridSpan) h
  case h_23 => exact allContained_one (hread keeps_millis) h
  case h_24 => cases h

/-! ## Classes -/

/-- names of utilities, each with its hyphen, and of variants -/
theorem names_neutral : (∀ name ∈ sideNames ++ plainNames, Neutral (name ++ "-").toList) ∧
    ∀ word ∈ variantNames, Neutral word.toList := by
  have hascii : (((sideNames ++ plainNames).map (· ++ "-") ++ variantNames).all fun s =>
      isAscii s && (asciiChars s).all isNeutral) = true := by
    decide +kernel
  rw [List.all_append, Bool.and_eq_true, List.all_map, List.all_eq_true, List.all_eq_true] at hascii
  exact ⟨fun name h => neutral_of_ascii (hascii.1 name h), fun word h => neutral_of_ascii (hascii.2 word h)⟩

/-- a utility is read under one of the known names -/
theorem name_mem_of_splitName? {utility : List Char} {name : String} {value : Option (List Char)}
    (h : splitName? utility = some (name, value)) : name ∈ sideNames ++ plainNames := by
  refine List.foldlRecOn (motive := fun best => ∀ b, best = some b → b.1 ∈ sideNames ++ plainNames) _ _ ?_ ?_ _ h
  · rintro b ⟨⟩
  · intro best hbest n hn b hb
    split at hb
    · exact hbest b hb
    · split at hb
      · split at hb
        · cases hb
          exact hn
        · exact hbest b hb
      · cases hb
        exact hn

/-- the value of a contained utility is contained -/
theorem contained_splitName? {utility : List Char} {name : String} {value : Option (List Char)}
    (hutility : Contained utility) (h : splitName? utility = some (name, value)) : ∀ v ∈ value, Contained v := by
  rintro v rfl
  rcases valueAfter?_cases (valueAfter?_of_splitName? h) with ⟨-, hnone⟩ | ⟨v', rfl, hsome⟩
  · cases hnone
  · cases hsome
    exact hutility.of_neutral_append (names_neutral.1 name (name_mem_of_splitName? h))

/-- **Values of a utility.** A contained utility sets contained values. -/
theorem resolve?_contained {utility : List Char} (hutility : Contained utility)
    (h : resolve? utility negative = some ds) : AllContained ds := by
  unfold resolve? at h
  split at h
  · rename_i found hfound
    cases h
    split at hfound
    · cases hfound
    · exact fun d hd => keywordValues_contained _ (keyword?_value hfound d hd)
  split at h
  · cases h
  · rename_i name value hsplit
    have hvalue := contained_splitName? hutility hsplit
    split at h
    · cases h
    split at h
    · rename_i found hsides
      subst h
      exact allContained_sides? hvalue hsides
    split at h
    · exact allContained_one (fun v hv => contained_shadow? hvalue hv) h
    · obtain ⟨v, hv, hvalued⟩ := Option.bind_eq_some_iff.1 h
      exact allContained_valued? (hvalue v hv) hvalued

/-- variants and marks are neutral -/
theorem neutral_of_ofNames {names : List (List Char)} {v : Variants} (h : Variants.ofNames names = some v) :
    Neutral (names.flatMap (· ++ [':'])) := by
  intro c hc
  obtain ⟨name, hname, hc⟩ := List.mem_flatMap.1 hc
  rcases List.mem_append.1 hc with hc | hc
  · refine names_neutral.2 _ ((Variants.ofNames_cases h).1 name hname) c ?_
    rwa [String.toList_ofList]
  · exact (List.mem_singleton.1 hc) ▸ (by decide)

/-- **Values of a class.** A contained class has a rule with contained values only. -/
theorem compileClass?_contained {raw : List Char} {rule : Rule} (hraw : Contained raw)
    (h : compileClass? raw = some rule) : AllContained rule.declarations := by
  obtain ⟨variants, utility, negative, found, hvariants, ⟨marks, hmarks, hlast⟩, hfound, -, -, hdeclared⟩ :=
    compileClass?_shape h
  have hutility : Contained utility := by
    have hpre : Neutral ((splitVariants raw).dropLast.flatMap (· ++ [':']) ++ marks) := by
      refine List.forall_mem_append.2 ⟨neutral_of_ofNames hvariants, fun c hc => ?_⟩
      rcases hmarks c hc with rfl | rfl <;> decide
    rw [← splitVariants_joined raw, hlast, ← List.append_assoc] at hraw
    exact hraw.of_neutral_append hpre
  have hvalues := resolve?_contained hutility hfound
  rcases hdeclared with hplain | himportant
  · rw [hplain]
    exact hvalues
  · rw [himportant]
    intro d hd
    obtain ⟨d', hd', rfl⟩ := List.mem_map.1 hd
    exact (hvalues d' hd').append_neutral (by decide)

end TsxWorkbench.Utility
