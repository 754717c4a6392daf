/-
What a text does to the style sheet around it. A reader of CSS keeps track of quotes, parentheses and escapes (`Nest`);
braces and semicolons have their meaning only outside of these. A text is contained if none of them stands outside, if
it closes what it opens, and if it neither escapes a character nor opens a comment (`Contained`).

- `Contained.of_neutral_append`, `Contained.of_append_level`: a piece of a contained text is contained if what is cut
  off opens and closes nothing.
- `Contained.append_neutral`, `Contained.spaced`, `Contained.parenthesized`: texts that are made of a contained one.
- `not_exposed_of_contained`: a contained text has no brace and no semicolon outside of quotes and parentheses.
-/
import TsxWorkbench.Proofs.Utility.Bracket

namespace TsxWorkbench.Utility

open Number Text

/-! ## Reading -/

inductive Quote where
  | single
  | double
deriving DecidableEq, Repr

def Quote.char : Quote → Char
  | .single => '\x27'
  | .double => '\x22'

def Quote.of? (c : Char) : Option Quote :=
  if c = Quote.single.char then some .single else if c = Quote.double.char then some .double else none

/-- whether the last character was a slash, or a backslash that escapes the next one -/
inductive Before where
  | other
  | slash
  | backslash
deriving DecidableEq, Repr

/-- what is open at a place of a CSS text: a quote, and so many parentheses -/
structure Nest where
  quote : Option Quote
  depth : Nat
  before : Before
deriving DecidableEq, Repr

/-- a line break, which neither a quoted text nor an escape may hold -/
def isBreak (c : Char) : Bool := c == '\n' || c == '\r' || c == '\x0c'

/-- a character that ends a selector, a declaration or a block -/
def isStop (c : Char) : Bool := c == '\x7b' || c == '\x7d' || c == ';'

namespace Nest

/-- nothing is open -/
def start : Nest := ⟨none, 0, .other⟩

/-- a place where braces and semicolons have their meaning -/
def outside (n : Nest) : Bool := n.quote.isNone && n.depth == 0 && n.before != .backslash

/-- a character outside of quotes and escapes; one that opens a comment or closes no parenthesis is refused -/
def unquoted (depth : Nat) (before : Before) (c : Char) : Option Nest :=
  match Quote.of? c with
  | some q => some ⟨some q, depth, .other⟩
  | none =>
    if c = '(' then some ⟨none, depth + 1, .other⟩
    else if c = ')' then (if depth = 0 then none else some ⟨none, depth - 1, .other⟩)
    else if c = '*' ∧ before = .slash then none
    else some ⟨none, depth, if c = '/' then .slash else .other⟩

/-- one more character -/
def step (n : Nest) (c : Char) : Option Nest :=
  if n.before = .backslash then (if isBreak c then none else some ⟨n.quote, n.depth, .other⟩)
  else if c = '\\' then some ⟨n.quote, n.depth, .backslash⟩
  else match n.quote with
    | some q => if isBreak c then none else some ⟨if c = q.char then none else some q, n.depth, .other⟩
    | none => unquoted n.depth n.before c

/-- what is open after a text without braces and semicolons outside of quotes, parentheses and escapes -/
def passes (n : Nest) : List Char → Option Nest
  | [] => some n
  | c :: cs => if n.outside && isStop c then none else (n.step c).bind fun m => m.passes cs

/-- the same place inside of more parentheses -/
def deeper (n : Nest) (k : Nat) : Nest := { n with depth := n.depth + k }

end Nest

/-- a text that leaves nothing open and gives no brace and no semicolon its meaning, without escapes -/
def contained (text : List Char) : Bool := !text.contains '\\' && (Nest.start.passes text).any Nest.outside

/-- the same, as what a proof works with -/
structure Contained (text : List Char) : Prop where
  plain : '\\' ∉ text
  closes : ∃ m, Nest.start.passes text = some m ∧ m.outside = true

variable {text : List Char} {n m : Nest} {c : Char}

theorem contained_iff : contained text = true ↔ Contained text := by
  unfold contained
  rw [Bool.and_eq_true, Bool.not_eq_true', Option.any_eq_true]
  constructor
  · rintro ⟨hplain, m, hm, hout⟩
    exact ⟨by simpa using hplain, m, hm, hout⟩
  · rintro ⟨hplain, m, hm, hout⟩
    exact ⟨by simpa using hplain, m, hm, hout⟩

instance : Decidable (Contained text) := decidable_of_iff _ contained_iff

/-! ## Runs -/

namespace Nest

theorem passes_append (n : Nest) (a b : List Char) : n.passes (a ++ b) = (n.passes a).bind fun m => m.passes b := by
  induction a generalizing n with
  | nil => rfl
  | cons c cs ih =>
    rw [List.cons_append, passes, passes]
    split
    · rfl
    · rw [Option.bind_assoc]
      exact Option.bind_congr fun m _ => ih m

theorem passes_append_of_some {a : List Char} (h : n.passes a = some m) (b : List Char) :
    n.passes (a ++ b) = m.passes b := by
  rw [passes_append, h, Option.bind_some]

theorem passes_append_cases {a b : List Char} (h : n.passes (a ++ b) = some m) :
    ∃ mid, n.passes a = some mid ∧ mid.passes b = some m := by
  rw [passes_append] at h
  exact Option.bind_eq_some_iff.1 h

theorem outside_iff : n.outside = true ↔ n.quote = none ∧ n.depth = 0 ∧ n.before ≠ .backslash := by
  simp [outside, and_assoc]

theorem unquoted_deeper {depth k : Nat} {before : Before} (h : unquoted depth before c = some m) :
    unquoted (depth + k) before c = some (m.deeper k) := by
  revert h
  fun_cases unquoted depth before c <;> intro h <;> cases h
  case case1 q hquote => rw [unquoted, hquote, deeper]
  case case2 hquote hopens => rw [unquoted, hquote, if_pos hopens, deeper, Nat.add_right_comm]
  case case4 hquote hopens hcloses hdepth =>
    have hdeep : depth + k ≠ 0 := by omega
    rw [unquoted, hquote, if_neg hopens, if_pos hcloses, if_neg hdeep, deeper,
      Nat.sub_add_comm (Nat.pos_of_ne_zero hdepth)]
  case case6 hquote hopens hcloses hcomment =>
    rw [unquoted, hquote, if_neg hopens, if_neg hcloses, if_neg hcomment, deeper]

theorem step_deeper {k : Nat} (h : n.step c = some m) : (n.deeper k).step c = some (m.deeper k) := by
  revert h
  fun_cases step n c <;> intro h
  case case1 => cases h
  case case2 hescaped hbreak => cases h; simp [step, deeper, hescaped, hbreak]
  case case3 hescaped hslash => cases h; simp [step, deeper, hescaped, hslash]
  case case4 => cases h
  case case5 hescaped hslash q hquote hbreak => cases h; simp [step, deeper, hescaped, hslash, hquote, hbreak]
  case case6 hescaped hslash hquote =>
    simp only [step, deeper, hescaped, hslash, hquote, if_false]
    exact unquoted_deeper h

/-- what a text does is the same inside of more parentheses -/
theorem passes_deeper {k : Nat} (h : n.passes text = some m) : (n.deeper k).passes text = some (m.deeper k) := by
  induction text generalizing n with
  | nil =>
    cases h
    rfl
  | cons c cs ih =>
    have hout : (n.deeper k).outside = true → n.outside = true := by
      rw [outside_iff, outside_iff]
      exact fun ⟨hquote, hdepth, hbefore⟩ => ⟨hquote, (Nat.add_eq_zero_iff.1 hdepth).1, hbefore⟩
    unfold passes at h ⊢
    split at h
    · cases h
    rename_i hstop
    rw [if_neg fun hdeep => hstop ?_]
    · obtain ⟨n', hstep, hrest⟩ := Option.bind_eq_some_iff.1 h
      exact Option.bind_eq_some_iff.2 ⟨_, step_deeper hstep, ih hrest⟩
    · rw [Bool.and_eq_true] at hdeep ⊢
      exact ⟨hout hdeep.1, hdeep.2⟩

/-- what every character of a text keeps, the text keeps -/
theorem passes_invariant {P : Nest → Prop}
    (hstep : ∀ c ∈ text, ∀ n m : Nest, P n → n.step c = some m → P m) (hn : P n)
    (h : n.passes text = some m) : P m := by
  induction text generalizing n with
  | nil =>
    cases h
    exact hn
  | cons c cs ih =>
    rw [List.forall_mem_cons] at hstep
    unfold passes at h
    split at h
    · cases h
    obtain ⟨n', hn', hrest⟩ := Option.bind_eq_some_iff.1 h
    exact ih hstep.2 (hstep.1 n n' hn hn') hrest

theorem unquoted_before {depth : Nat} {before : Before} (h : unquoted depth before c = some m) :
    m.before ≠ .backslash := by
  revert h
  fun_cases unquoted depth before c <;> intro h <;> cases h
  case case6 =>
    dsimp only
    split <;> simp
  all_goals simp

theorem step_before (hc : c ≠ '\\') (h : n.step c = some m) : m.before ≠ .backslash := by
  revert h
  fun_cases step n c <;> intro h
  case case3 => exact absurd ‹_› hc
  case case6 => exact unquoted_before h
  all_goals
    cases h
    try simp

/-- after a text without backslashes nothing is escaped -/
theorem before_of_plain (hplain : '\\' ∉ text) (hbefore : n.before ≠ .backslash) (h : n.passes text = some m) :
    m.before ≠ .backslash := by
  refine passes_invariant (P := fun n => n.before ≠ .backslash) (fun c hc n m _ hstep => ?_) hbefore h
  exact step_before (fun heq => hplain (heq ▸ hc)) hstep

end Nest

/-! ## Characters -/

/-- a character that leaves quotes and parentheses as they are -/
def isLevel (c : Char) : Bool := (Quote.of? c).isNone && c != '\\' && c != '(' && c != ')'

/-- a character that opens, closes and ends nothing, alone or with its neighbours -/
def isNeutral (c : Char) : Bool := isLevel c && !isStop c && c != '/' && c != '*'

/-- a text that leaves quotes and parentheses as they are -/
def Level (text : List Char) : Prop := ∀ c ∈ text, isLevel c = true

/-- a text that opens, closes and ends nothing -/
def Neutral (text : List Char) : Prop := ∀ c ∈ text, isNeutral c = true

instance : Decidable (Level text) := decidable_of_iff (text.all isLevel = true) List.all_eq_true

instance : Decidable (Neutral text) := decidable_of_iff (text.all isNeutral = true) List.all_eq_true

theorem isLevel_of_isNeutral (h : isNeutral c = true) : isLevel c = true := by
  simp only [isNeutral, Bool.and_eq_true] at h
  exact h.1.1.1

theorem isStop_of_isNeutral (h : isNeutral c = true) : isStop c = false := by
  simp only [isNeutral, Bool.and_eq_true, Bool.not_eq_true'] at h
  exact h.1.1.2

theorem isNeutral_of_isBlank (h : isBlank c = true) : isNeutral c = true := by
  have hne (d : Char) (hd : isBlank d = false) : c ≠ d := by
    rintro rfl
    exact Bool.false_ne_true (hd.symm.trans h)
  simp (disch := decide) [isNeutral, isLevel, isStop, Quote.of?, Quote.char, hne]

/-- letters, digits, what is not ASCII, and the marks of names and numbers are neutral -/
theorem isNeutral_of_code (h : (48 ≤ c.toNat ∧ c.toNat ≤ 57) ∨ (65 ≤ c.toNat ∧ c.toNat ≤ 90) ∨ c.toNat = 95 ∨
    (97 ≤ c.toNat ∧ c.toNat ≤ 122) ∨ 128 ≤ c.toNat ∨ c.toNat = 43 ∨ c.toNat = 45 ∨ c.toNat = 46) :
    isNeutral c = true := by
  have hne (d : Char) (hd : d.toNat ≤ 42 ∨ d.toNat = 47 ∨ d.toNat = 59 ∨ d.toNat = 92 ∨ d.toNat = 123 ∨
      d.toNat = 125) : c ≠ d := by
    rintro rfl
    omega
  simp [isNeutral, isLevel, isStop, Quote.of?, Quote.char, hne]

namespace Nest

theorem step_level (hbefore : n.before ≠ .backslash) (hc : isLevel c = true) (h : n.step c = some m) :
    m.quote = n.quote ∧ m.depth = n.depth ∧ m.before ≠ .backslash := by
  simp only [isLevel, Bool.and_eq_true, Option.isNone_iff_eq_none, bne_iff_ne, ne_eq] at hc
  obtain ⟨⟨⟨hquote, hslash⟩, hopens⟩, hcloses⟩ := hc
  have hchar (q : Quote) : c ≠ q.char := by
    rintro rfl
    cases q <;> cases hquote
  have hlast := step_before hslash h
  rw [step, if_neg hbefore, if_neg hslash] at h
  split at h
  · rename_i q hq
    rw [if_neg (hchar q)] at h
    split at h
    · cases h
    · cases h
      exact ⟨hq.symm, rfl, hlast⟩
  · rename_i hq
    rw [unquoted, hquote, if_neg hopens, if_neg hcloses] at h
    dsimp only at h
    split at h
    · cases h
    · cases h
      exact ⟨hq.symm, rfl, hlast⟩

/-- text without quotes, parentheses and escapes leaves open what is open -/
theorem passes_level (hbefore : n.before ≠ .backslash) (htext : Level text)
    (h : n.passes text = some m) : m.quote = n.quote ∧ m.depth = n.depth := by
  have hinvariant := passes_invariant (n := n)
    (P := fun m => m.quote = n.quote ∧ m.depth = n.depth ∧ m.before ≠ .backslash) (fun c hc k l hk hstep => ?_)
    ⟨rfl, rfl, hbefore⟩ h
  · exact ⟨hinvariant.1, hinvariant.2.1⟩
  · obtain ⟨hquote, hdepth, hlast⟩ := step_level hk.2.2 (htext c hc) hstep
    exact ⟨hquote.trans hk.1, hdepth.trans hk.2.1, hlast⟩

theorem step_neutral (hquote : n.quote = none) (hbefore : n.before ≠ .backslash) (hc : isNeutral c = true) :
    n.step c = some ⟨none, n.depth, .other⟩ := by
  simp only [isNeutral, isLevel, Bool.and_eq_true, Option.isNone_iff_eq_none, bne_iff_ne, ne_eq] at hc
  obtain ⟨⟨⟨⟨⟨⟨hnoquote, hslash⟩, hopens⟩, hcloses⟩, -⟩, hdivides⟩, hstar⟩ := hc
  simp [step, unquoted, hbefore, hquote, hslash, hnoquote, hopens, hcloses, hdivides, hstar]

/-- neutral text changes nothing -/
theorem passes_neutral (hquote : n.quote = none) (hbefore : n.before ≠ .backslash)
    (h : Neutral text) : ∃ b, b ≠ .backslash ∧ n.passes text = some ⟨none, n.depth, b⟩ ∧
      (n.before = .other → b = .other) := by
  induction text generalizing n with
  | nil => exact ⟨n.before, hbefore, by rw [← hquote]; rfl, id⟩
  | cons c cs ih =>
    rw [Neutral, List.forall_mem_cons] at h
    obtain ⟨b, hb, hpasses, hother⟩ := ih (n := ⟨none, n.depth, .other⟩) rfl (by simp) h.2
    refine ⟨b, hb, ?_, fun _ => hother rfl⟩
    rw [passes, isStop_of_isNeutral h.1, Bool.and_false, if_neg Bool.false_ne_true, step_neutral hquote hbefore h.1,
      Option.bind_some]
    exact hpasses

theorem start_passes_neutral (h : Neutral text) : start.passes text = some start := by
  obtain ⟨b, -, hpasses, hother⟩ := passes_neutral (n := start) rfl (by decide) h
  rw [hpasses, hother rfl]
  rfl

end Nest

/-! ## Contained texts -/

theorem plain_of_neutral (h : Neutral text) : '\\' ∉ text := fun hmem => by
  have hneutral := h _ hmem
  revert hneutral
  decide

namespace Contained

variable {pre post : List Char}

/-- a contained text is read up to a place where nothing is open, which may be just after a slash -/
theorem exists_passes (h : Contained text) : ∃ b, b ≠ .backslash ∧ Nest.start.passes text = some ⟨none, 0, b⟩ := by
  obtain ⟨⟨quote, depth, before⟩, hpasses, hout⟩ := h.closes
  obtain ⟨hquote, hdepth, hbefore⟩ := Nest.outside_iff.1 hout
  dsimp only at hquote hdepth hbefore
  subst hquote hdepth
  exact ⟨before, hbefore, hpasses⟩

theorem of_neutral (h : Neutral text) : Contained text :=
  ⟨plain_of_neutral h, Nest.start, Nest.start_passes_neutral h, rfl⟩

theorem append_neutral (h : Contained text) (hpost : Neutral post) : Contained (text ++ post) := by
  obtain ⟨b, hb, hpasses⟩ := h.exists_passes
  obtain ⟨b', hb', hmore, -⟩ := Nest.passes_neutral (n := ⟨none, 0, b⟩) rfl hb hpost
  refine ⟨?_, _, (Nest.passes_append_of_some hpasses post).trans hmore, Nest.outside_iff.2 ⟨rfl, rfl, hb'⟩⟩
  rw [List.mem_append, not_or]
  exact ⟨h.plain, plain_of_neutral hpost⟩

theorem neutral_append (hpre : Neutral pre) (h : Contained text) : Contained (pre ++ text) := by
  obtain ⟨m, hm, hout⟩ := h.closes
  refine ⟨?_, m, (Nest.passes_append_of_some (Nest.start_passes_neutral hpre) text).trans hm, hout⟩
  rw [List.mem_append, not_or]
  exact ⟨plain_of_neutral hpre, h.plain⟩

/-- contained texts with a space between them, which keeps them from opening a comment together -/
theorem append_space (h : Contained text) (hpost : Contained post) : Contained (text ++ ' ' :: post) := by
  obtain ⟨b, hb, hpasses⟩ := h.exists_passes
  obtain ⟨m, hm, hout⟩ := hpost.closes
  have hspace : (⟨none, 0, b⟩ : Nest).passes [' '] = some Nest.start := by
    cases b with
    | other => decide
    | slash => decide
    | backslash => exact absurd rfl hb
  have hmore : (⟨none, 0, b⟩ : Nest).passes ([' '] ++ post) = some m :=
    (Nest.passes_append_of_some hspace post).trans hm
  refine ⟨?_, m, (Nest.passes_append_of_some hpasses _).trans hmore, hout⟩
  simp [h.plain, hpost.plain]

/-- the end of a contained text after neutral text -/
theorem of_neutral_append (h : Contained (pre ++ text)) (hpre : Neutral pre) : Contained text := by
  obtain ⟨m, hm, hout⟩ := h.closes
  rw [Nest.passes_append_of_some (Nest.start_passes_neutral hpre)] at hm
  exact ⟨fun hmem => h.plain (List.mem_append_right _ hmem), m, hm, hout⟩

/-- the beginning of a contained text before text that opens and closes nothing -/
theorem of_append_level (h : Contained (text ++ post)) (hpost : Level post) : Contained text := by
  obtain ⟨m, hm, hout⟩ := h.closes
  obtain ⟨mid, hmid, hrest⟩ := Nest.passes_append_cases hm
  have hplain : '\\' ∉ text := fun hmem => h.plain (List.mem_append_left _ hmem)
  have hbefore := Nest.before_of_plain hplain (by decide) hmid
  obtain ⟨hquote, hdepth⟩ := Nest.passes_level hbefore hpost hrest
  obtain ⟨hnone, hzero, -⟩ := Nest.outside_iff.1 hout
  exact ⟨hplain, mid, hmid, Nest.outside_iff.2 ⟨hquote.symm.trans hnone, hdepth.symm.trans hzero, hbefore⟩⟩

/-- a contained text between an opening and a closing parenthesis -/
theorem parenthesized (h : Contained text) (hpre : '\\' ∉ pre)
    (hopens : Nest.start.passes pre = some ⟨none, 1, .other⟩) : Contained (pre ++ text ++ [')']) := by
  obtain ⟨b, hb, hpasses⟩ := h.exists_passes
  have hinside : (⟨none, 1, .other⟩ : Nest).passes text = some ⟨none, 1, b⟩ := Nest.passes_deeper (k := 1) hpasses
  have hcloses : (⟨none, 1, b⟩ : Nest).passes [')'] = some Nest.start := by
    cases b with
    | other => decide
    | slash => decide
    | backslash => exact absurd rfl hb
  refine ⟨?_, Nest.start, ?_, rfl⟩
  · simp only [List.mem_append, not_or]
    exact ⟨⟨hpre, h.plain⟩, by decide⟩
  · rw [List.append_assoc, Nest.passes_append_of_some hopens, Nest.passes_append_of_some hinside, hcloses]

end Contained

namespace Nest

/-- a space does what an underscore does -/
theorem step_space (n : Nest) : n.step ' ' = n.step '_' := by
  have hspace (q : Quote) : ' ' ≠ q.char := by cases q <;> decide
  have hunderscore (q : Quote) : '_' ≠ q.char := by cases q <;> decide
  have hbreak : isBreak ' ' = false ∧ isBreak '_' = false := by decide
  have hquote : Quote.of? ' ' = none ∧ Quote.of? '_' = none := by decide
  simp [step, unquoted, hspace, hunderscore, hbreak, hquote]

theorem passes_spaced (n : Nest) (text : List Char) : n.passes (spaced text) = n.passes text := by
  induction text generalizing n with
  | nil => rfl
  | cons c cs ih =>
    show n.passes ((if c = '_' then ' ' else c) :: spaced cs) = _
    split
    · rename_i hc
      subst hc
      have hstop : isStop ' ' = isStop '_' := by decide
      simp only [passes, step_space, hstop, ih]
    · simp only [passes, ih]

end Nest

theorem Contained.spaced (h : Contained text) : Contained (spaced text) := by
  obtain ⟨m, hm, hout⟩ := h.closes
  refine ⟨fun hmem => ?_, m, (Nest.passes_spaced _ _).trans hm, hout⟩
  obtain ⟨c, hc, heq⟩ := List.mem_map.1 hmem
  split at heq
  · cases heq
  · exact h.plain (heq ▸ hc)

/-! ## Exposed characters -/

/-- a text with a brace or a semicolon outside of quotes and parentheses -/
def Exposed (text : List Char) : Prop :=
  ∃ pre c post m, text = pre ++ c :: post ∧ isStop c = true ∧ Nest.start.passes pre = some m ∧ m.outside = true

/-- **Contained texts.** No brace and no semicolon stands outside of quotes and parentheses. -/
theorem not_exposed_of_contained (h : Contained text) : ¬Exposed text := by
  rintro ⟨pre, c, post, m, rfl, hstop, hm, hout⟩
  obtain ⟨m', hm', -⟩ := h.closes
  rw [Nest.passes_append_of_some hm, Nest.passes, hout, hstop] at hm'
  cases hm'

end TsxWorkbench.Utility
