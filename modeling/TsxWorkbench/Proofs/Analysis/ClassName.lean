/-
Class tokens of a module. `ClassText` says what the known text of a class attribute is, and the tokens are the words of
such texts, at whatever place of the module they stand.

- `candidates_exact`: the list of class tokens is sorted by bytes, no token is empty or holds a blank, and it holds these
  words and no others.
-/
import TsxWorkbench.Analysis.StaticValue
import TsxWorkbench.Proofs.Syntax.Place
import TsxWorkbench.Proofs.Text.Blank
import TsxWorkbench.Proofs.Text.Encoding
import TsxWorkbench.Proofs.Text.Sorting

namespace TsxWorkbench.Analysis

open Syntax Text

/-- a class attribute has a text that the source tells: between quotes, or as an expression in braces -/
inductive ClassText : Node → String → Prop
  | quoted {span inside : Span} {name text : String} (hname : name = "className" ∨ name = "class") :
      ClassText (.attr span name (some (.strLit inside text))) text
  | braced {span inside : Span} {name text : String} {inner : Node} (hname : name = "className" ∨ name = "class")
      (htext : staticText? (unwrap inner) = some text) :
      ClassText (.attr span name (some (.container inside (some inner)))) text

variable {m : Module} {n : Node} {token : String}

theorem isClassAttribute_iff (name : String) : isClassAttribute name = true ↔ name = "className" ∨ name = "class" := by
  rw [isClassAttribute, Bool.or_eq_true, beq_iff_eq, beq_iff_eq]

theorem attributeText?_eq_some {value : Node} {text : String} : attributeText? value = some text ↔
    (∃ span, value = .strLit span text) ∨
      ∃ span inner, value = .container span (some inner) ∧ staticText? (unwrap inner) = some text := by
  constructor
  · intro h
    unfold attributeText? at h
    split at h
    · cases h
      exact .inl ⟨_, rfl⟩
    · obtain ⟨inner, hinner, htext⟩ := Option.bind_eq_some_iff.1 h
      unfold containedExpression? at hinner
      split at hinner
      · cases hinner
        exact .inr ⟨_, _, rfl, htext⟩
      · cases hinner
  · rintro (⟨span, rfl⟩ | ⟨span, inner, rfl, htext⟩)
    · rfl
    · exact htext

/-- the tokens of a node are the words of its text, if it is a class attribute with a known one -/
theorem mem_classTokens : token ∈ classTokens n ↔ ∃ text, ClassText n text ∧ WordOf text.toList token.toList := by
  have hwords (text : String) : token ∈ (words text.toList).map String.ofList ↔ WordOf text.toList token.toList := by
    rw [← mem_words, List.mem_map]
    constructor
    · rintro ⟨w, hw, rfl⟩
      rwa [String.toList_ofList]
    · exact fun h => ⟨_, h, String.ofList_toList⟩
  constructor
  · intro h
    unfold classTokens at h
    split at h
    · rename_i span name value
      split_ifs at h with hname
      · have hname := (isClassAttribute_iff name).1 hname
        cases htext : value.bind attributeText? with
        | none =>
          rw [htext] at h
          cases h
        | some text =>
          rw [htext] at h
          obtain ⟨value, rfl, hvalue⟩ := Option.bind_eq_some_iff.1 htext
          refine ⟨text, ?_, (hwords text).1 h⟩
          rcases attributeText?_eq_some.1 hvalue with ⟨inside, rfl⟩ | ⟨inside, inner, rfl, hinner⟩
          · exact .quoted hname
          · exact .braced hname hinner
      · cases h
    · cases h
  · rintro ⟨text, htext, hword⟩
    cases htext with
    | quoted hname =>
      rw [classTokens, if_pos ((isClassAttribute_iff _).2 hname)]
      exact (hwords text).2 hword
    | @braced _ inside _ _ inner hname hinner =>
      have hvalue : (some (Node.container inside (some inner))).bind attributeText? = some text := hinner
      rw [classTokens, if_pos ((isClassAttribute_iff _).2 hname), hvalue]
      exact (hwords text).2 hword

/-- a list of class tokens is that of a module: sorted by bytes without repetitions, with no blank in a token, and with
the words of all class attributes whose text is known, wherever they stand -/
structure TokensOf (m : Module) (tokens : List String) : Prop where
  ascending : tokens.Pairwise fun s t => s.toByteArray.data.toList < t.toByteArray.data.toList
  solid : ∀ token ∈ tokens, ∀ c ∈ token.toList, isBlank c = false
  mem_iff : ∀ token, token ∈ tokens ↔
    ∃ place n text, m.at? place = some n ∧ ClassText n text ∧ WordOf text.toList token.toList

theorem mem_candidates : token ∈ candidates m ↔
    ∃ place n text, m.at? place = some n ∧ ClassText n text ∧ WordOf text.toList token.toList := by
  rw [candidates, mem_sortedTexts, List.mem_flatMap]
  constructor
  · rintro ⟨n, hn, htoken⟩
    obtain ⟨place, hplace⟩ := Module.mem_preorder_iff.1 hn
    obtain ⟨text, htext, hword⟩ := mem_classTokens.1 htoken
    exact ⟨place, n, text, hplace, htext, hword⟩
  · rintro ⟨place, n, text, hplace, htext, hword⟩
    exact ⟨n, Module.mem_preorder_iff.2 ⟨place, hplace⟩, mem_classTokens.2 ⟨text, htext, hword⟩⟩

/-- **Class tokens.** -/
theorem candidates_exact (m : Module) : TokensOf m (candidates m) where
  ascending := (sortedTexts_strict _).imp bytes_lt
  solid token htoken := by
    obtain ⟨_, _, _, _, _, hword⟩ := mem_candidates.1 htoken
    exact hword.solid
  mem_iff _ := mem_candidates

end TsxWorkbench.Analysis
