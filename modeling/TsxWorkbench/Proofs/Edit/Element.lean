/-
The element that an edit works on is one of the elements of the source, so its tags are placed (`tagsPlaced_of_locate`).
-/
import TsxWorkbench.Proofs.Syntax.Parser
import TsxWorkbench.Proofs.Text.Innermost
import TsxWorkbench.Edit.Element

namespace TsxWorkbench.Edit

open Text Syntax Syntax.Node Analysis

variable {source : List Char} {point : Position} {e : Element}

/-- the element around a place is an element of the tree of the source -/
theorem exists_node_of_locate (h : locate source point = .ok e) : ∃ m n, parseModule source = .ok m ∧ n ∈ m.preorder ∧
    Element.ofNode? n = some e := by
  unfold locate at h
  split at h
  · cases h
  split at h
  · cases h
  rename_i m hm
  split at h
  · cases h
  rename_i found hfound
  split at h
  · cases h
  cases h
  obtain ⟨r, hr⟩ := mem_of_innermost_eq_some hfound
  obtain ⟨e', he', heq⟩ := List.mem_map.1 hr
  obtain rfl : e' = e := congrArg Prod.snd heq
  obtain ⟨n, hn, hne⟩ := List.mem_filterMap.1 he'
  exact ⟨m, n, hm, hn, hne⟩

/-- **Placed tags.** The tags of the element around a place are where an edit expects them, and its attributes are in
place. -/
theorem tagsPlaced_of_locate (h : locate source point = .ok e) :
    TagsPlaced source e.opening e.closing e.attributes ∧ AllPlaced source e.attributes := by
  obtain ⟨m, n, hm, hn, hne⟩ := exists_node_of_locate h
  have hplaced := parseModule_placed hm hn
  unfold Element.ofNode? at hne
  split at hne
  · cases hne
    exact ⟨hplaced.parts.1, fun a ha => hplaced.children a (by simp [ha])⟩
  · cases hne

end TsxWorkbench.Edit
