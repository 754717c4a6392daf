/-
Utilities that are a fixed name: a table of names with their declarations, and families whose last part is one of a few
words.
-/
import TsxWorkbench.Utility.Value

namespace TsxWorkbench.Utility

/-- a CSS declaration -/
structure Declaration where
  property : String
  value : List Char
deriving DecidableEq, Repr

/-- one value for several properties -/
def declareAll (properties : List String) (value : List Char) : List Declaration :=
  properties.map fun p => ⟨p, value⟩

def declare (property : String) (value : String) : List Declaration := [⟨property, value.toList⟩]

def transition (property : String) : List Declaration :=
  declare "transition-property" property ++
    declare "transition-timing-function" "cubic-bezier(0.4, 0, 0.2, 1)" ++ declare "transition-duration" "150ms"

/-- names with one declaration -/
def singleKeywords : List (String × String × String) :=
  [("hidden", "display", "none"), ("visible", "visibility", "visible"), ("invisible", "visibility", "hidden"),
   ("flex-row", "flex-direction", "row"), ("flex-row-reverse", "flex-direction", "row-reverse"),
   ("flex-col", "flex-direction", "column"), ("flex-col-reverse", "flex-direction", "column-reverse"),
   ("flex-wrap", "flex-wrap", "wrap"), ("flex-wrap-reverse", "flex-wrap", "wrap-reverse"),
   ("flex-nowrap", "flex-wrap", "nowrap"), ("flex-1", "flex", "1 1 0%"), ("flex-auto", "flex", "1 1 auto"),
   ("flex-initial", "flex", "0 1 auto"), ("flex-none", "flex", "none"), ("grow", "flex-grow", "1"),
   ("grow-0", "flex-grow", "0"), ("shrink", "flex-shrink", "1"), ("shrink-0", "flex-shrink", "0"),
   ("italic", "font-style", "italic"), ("not-italic", "font-style", "normal"),
   ("no-underline", "text-decoration-line", "none"), ("normal-case", "text-transform", "none"),
   ("text-ellipsis", "text-overflow", "ellipsis"), ("text-clip", "text-overflow", "clip"),
   ("break-words", "overflow-wrap", "break-word"), ("break-all", "word-break", "break-all"),
   ("box-border", "box-sizing", "border-box"), ("box-content", "box-sizing", "content-box"),
   ("isolate", "isolation", "isolate"), ("aspect-auto", "aspect-ratio", "auto"),
   ("aspect-square", "aspect-ratio", "1 / 1"), ("aspect-video", "aspect-ratio", "16 / 9"),
   ("pointer-events-none", "pointer-events", "none"), ("pointer-events-auto", "pointer-events", "auto"),
   ("transition-none", "transition-property", "none")]

/-- properties whose values are names of their own -/
def namesOfProperty : List (String × List String) :=
  [("display", ["block", "inline-block", "inline", "flex", "inline-flex", "grid", "inline-grid", "contents", "table",
     "flow-root", "list-item"]),
   ("position", ["static", "fixed", "absolute", "relative", "sticky"]),
   ("text-decoration-line", ["underline", "overline", "line-through"]),
   ("text-transform", ["uppercase", "lowercase", "capitalize"])]

/-- names made of a fixed start and a value of a property -/
def startedNames : List (String × String × List String) :=
  [("text-", "text-align", ["left", "center", "right", "justify", "start", "end"]),
   ("border-", "border-style", ["solid", "dashed", "dotted", "double", "hidden", "none"]),
   ("list-", "list-style-type", ["none", "disc", "decimal"])]

def transitionColours : String :=
  "color, background-color, border-color, text-decoration-color, fill, stroke"

/-- names with several declarations -/
def groupKeywords : List (String × List Declaration) :=
  [("truncate", declare "overflow" "hidden" ++ declare "text-overflow" "ellipsis" ++ declare "white-space" "nowrap"),
   ("antialiased", declare "-webkit-font-smoothing" "antialiased" ++ declare "-moz-osx-font-smoothing" "grayscale"),
   ("sr-only", declare "position" "absolute" ++ declare "width" "1px" ++ declare "height" "1px" ++
     declare "padding" "0" ++ declare "margin" "-1px" ++ declare "overflow" "hidden" ++
     declare "clip" "rect(0, 0, 0, 0)" ++ declare "white-space" "nowrap" ++ declare "border-width" "0"),
   ("transition", transition (transitionColours ++ ", opacity, box-shadow, transform, filter, backdrop-filter")),
   ("transition-all", transition "all"), ("transition-colors", transition transitionColours),
   ("transition-opacity", transition "opacity")]

/-- a value of a property after the start of a name, if it is one of the values listed -/
def started? (name : String) (utility : List Char) : Option (List Declaration) :=
  startedNames.findSome? fun (start, property, values) =>
    match Text.stripStart? start.toList utility with
    | some v =>
      if values.contains (String.ofList v) ∧ start ++ String.ofList v = name then some [⟨property, v⟩] else none
    | none => none

def alignments : List (String × String) :=
  [("start", "flex-start"), ("end", "flex-end"), ("center", "center"), ("baseline", "baseline"),
   ("stretch", "stretch")]

def distributions : List (String × String) :=
  [("start", "flex-start"), ("end", "flex-end"), ("center", "center"), ("between", "space-between"),
   ("around", "space-around"), ("evenly", "space-evenly"), ("stretch", "stretch")]

private def identical (values : List String) : List (String × String) := values.map fun v => (v, v)

private def overflows : List (String × String) := identical ["auto", "hidden", "clip", "visible", "scroll"]

/-- families of names: the start of the name, the property, and the words that may follow with their values -/
def families : List (String × String × List (String × String)) :=
  [("items", "align-items", alignments), ("self", "align-self", ("auto", "auto") :: alignments),
   ("justify", "justify-content", distributions), ("content", "align-content", distributions),
   ("place-items", "place-items", alignments), ("place-content", "place-content", distributions),
   ("overflow", "overflow", overflows), ("overflow-x", "overflow-x", overflows),
   ("overflow-y", "overflow-y", overflows),
   ("whitespace", "white-space",
     identical ["normal", "nowrap", "pre", "pre-line", "pre-wrap", "break-spaces"]),
   ("cursor", "cursor", identical ["auto", "default", "pointer", "wait", "text", "move", "not-allowed", "grab",
     "grabbing", "help", "crosshair"]),
   ("select", "user-select", identical ["none", "text", "all", "auto"]),
   ("object", "object-fit", identical ["contain", "cover", "fill", "none", "scale-down"])]

/-- a member of a family -/
def family? (utility : List Char) : Option (List Declaration) :=
  families.findSome? fun (start, property, values) =>
    match Text.stripStart? (start ++ "-").toList utility with
    | some word => (values.lookup (String.ofList word)).map fun v => [⟨property, v.toList⟩]
    | none => none

/-- declarations of a utility with a fixed name -/
def keyword? (utility : List Char) : Option (List Declaration) :=
  let name := String.ofList utility
  match namesOfProperty.find? fun p => p.2.contains name with
  | some p => some [⟨p.1, utility⟩]
  | none =>
    match singleKeywords.lookup name with
    | some (property, value) => some (declare property value)
    | none => started? name utility <|> groupKeywords.lookup name <|> family? utility

/-! ## Fixed names -/

/-- all utilities with a fixed name -/
def keywordNames : List (List Char) :=
  namesOfProperty.flatMap (fun p => p.2.map String.toList) ++ (singleKeywords.map (fun p => p.1.toList) ++
    (startedNames.flatMap (fun (start, _, values) => values.map (start.toList ++ ·.toList)) ++
      (groupKeywords.map (fun p => p.1.toList) ++
        families.flatMap fun (start, _, values) => values.map fun v => start.toList ++ '-' :: v.1.toList)))

theorem mem_map_fst_of_lookup {α : Type} {table : List (String × α)} {name : List Char} {a : α}
    (h : table.lookup (String.ofList name) = some a) : name ∈ table.map fun p => p.1.toList := by
  obtain ⟨before, after, rfl, -⟩ := List.lookup_eq_some_iff.1 h
  simp

/-- all utilities with a fixed name, with the properties that they set -/
def keywordRows : List (List Char × List String) :=
  namesOfProperty.flatMap (fun p => p.2.map fun name => (name.toList, [p.1])) ++
    (singleKeywords.map (fun p => (p.1.toList, [p.2.1])) ++
      (startedNames.flatMap (fun (start, property, values) => values.map (start.toList ++ ·.toList, [property])) ++
        (groupKeywords.map (fun p => (p.1.toList, p.2.map Declaration.property)) ++
          families.flatMap fun (start, property, values) =>
            values.map fun v => (start.toList ++ '-' :: v.1.toList, [property]))))

theorem keywordRows_names : keywordRows.map Prod.fst = keywordNames := by
  simp only [keywordRows, keywordNames, List.map_append, List.map_flatMap, List.map_map]
  rfl

variable {utility : List Char} {ds : List Declaration}

private theorem started?_mem (h : started? (String.ofList utility) utility = some ds) :
    (utility, ds.map Declaration.property) ∈ startedNames.flatMap fun (start, property, values) =>
      values.map (start.toList ++ ·.toList, [property]) := by
  obtain ⟨⟨start, property, values⟩, hrow, hvalue⟩ := List.exists_of_findSome?_eq_some h
  dsimp only at hvalue
  split at hvalue
  · rename_i word hword
    split at hvalue
    · rename_i hv
      cases hvalue
      refine List.mem_flatMap.2 ⟨_, hrow, List.mem_map.2 ⟨_, List.contains_iff_mem.1 hv.1, ?_⟩⟩
      rw [String.toList_ofList, ← Text.stripStart?_eq_some_iff.1 hword]
      rfl
    · cases hvalue
  · cases hvalue

theorem family?_mem (h : family? utility = some ds) :
    (utility, ds.map Declaration.property) ∈ families.flatMap fun (start, property, values) =>
      values.map fun v => (start.toList ++ '-' :: v.1.toList, [property]) := by
  obtain ⟨⟨start, property, values⟩, hrow, hvalue⟩ := List.exists_of_findSome?_eq_some h
  dsimp only at hvalue
  split at hvalue
  · rename_i word hword
    obtain ⟨v, hv, rfl⟩ := Option.map_eq_some_iff.1 hvalue
    obtain ⟨row, hmem, hfst⟩ := List.mem_map.1 (mem_map_fst_of_lookup hv)
    refine List.mem_flatMap.2 ⟨_, hrow, List.mem_map.2 ⟨row, hmem, ?_⟩⟩
    rw [hfst, Text.stripStart?_eq_some_iff.1 hword]
    simp
  · cases hvalue

/-- a utility that is read as a keyword has one of the fixed names, and sets the properties of its row -/
theorem keyword?_row (h : keyword? utility = some ds) : (utility, ds.map Declaration.property) ∈ keywordRows := by
  simp only [keywordRows, List.mem_append]
  unfold keyword? at h
  dsimp only at h
  split at h
  · rename_i row hrow
    cases h
    have hname := List.find?_some hrow
    refine .inl (List.mem_flatMap.2 ⟨row, List.mem_of_find?_eq_some hrow, ?_⟩)
    refine List.mem_map.2 ⟨_, List.contains_iff_mem.1 hname, ?_⟩
    rw [String.toList_ofList]
    rfl
  · right
    split at h
    · rename_i property value hlookup
      cases h
      obtain ⟨before, after, hrows, -⟩ := List.lookup_eq_some_iff.1 hlookup
      refine .inl (List.mem_map.2 ⟨(String.ofList utility, property, value), by simp [hrows], ?_⟩)
      rw [String.toList_ofList]
      rfl
    · right
      simp only [Option.orElse_eq_orElse, Option.orElse_eq_or, Option.or_eq_some_iff] at h
      rcases h with hstarted | ⟨-, hgroup | ⟨-, hfamily⟩⟩
      · exact .inl (started?_mem hstarted)
      · obtain ⟨before, after, hrows, -⟩ := List.lookup_eq_some_iff.1 hgroup
        refine .inr (.inl (List.mem_map.2 ⟨(String.ofList utility, ds), by simp [hrows], ?_⟩))
        rw [String.toList_ofList]
      · exact .inr (.inr (family?_mem hfamily))

theorem keyword?_mem (h : keyword? utility = some ds) : utility ∈ keywordNames :=
  keywordRows_names ▸ List.mem_map.2 ⟨_, keyword?_row h, rfl⟩

/-- all values that utilities with a fixed name set -/
def keywordValues : List (List Char) :=
  namesOfProperty.flatMap (fun p => p.2.map String.toList) ++ (singleKeywords.map (fun p => p.2.2.toList) ++
    (startedNames.flatMap (fun (_, _, values) => values.map String.toList) ++
      (groupKeywords.flatMap (fun p => p.2.map Declaration.value) ++
        families.flatMap fun (_, _, values) => values.map fun v => v.2.toList)))

private theorem started?_value (h : started? (String.ofList utility) utility = some ds) :
    ∀ d ∈ ds, d.value ∈ startedNames.flatMap fun (_, _, values) => values.map String.toList := by
  obtain ⟨⟨start, property, values⟩, hrow, hvalue⟩ := List.exists_of_findSome?_eq_some h
  dsimp only at hvalue
  split at hvalue
  · split at hvalue
    · rename_i hv
      cases hvalue
      rw [List.forall_mem_singleton]
      refine List.mem_flatMap.2 ⟨_, hrow, List.mem_map.2 ⟨_, List.contains_iff_mem.1 hv.1, ?_⟩⟩
      rw [String.toList_ofList]
    · cases hvalue
  · cases hvalue

private theorem family?_value (h : family? utility = some ds) :
    ∀ d ∈ ds, d.value ∈ families.flatMap fun (_, _, values) => values.map fun v => v.2.toList := by
  obtain ⟨⟨start, property, values⟩, hrow, hvalue⟩ := List.exists_of_findSome?_eq_some h
  dsimp only at hvalue
  split at hvalue
  · rename_i word _
    obtain ⟨v, hv, rfl⟩ := Option.map_eq_some_iff.1 hvalue
    obtain ⟨before, after, hvalues, -⟩ := List.lookup_eq_some_iff.1 hv
    rw [List.forall_mem_singleton]
    exact List.mem_flatMap.2 ⟨_, hrow, List.mem_map.2 ⟨(String.ofList word, v), by simp [hvalues], rfl⟩⟩
  · cases hvalue

theorem keyword?_value (h : keyword? utility = some ds) : ∀ d ∈ ds, d.value ∈ keywordValues := by
  simp only [keywordValues, List.mem_append]
  unfold keyword? at h
  dsimp only at h
  split at h
  · rename_i row hrow
    cases h
    have hname := List.find?_some hrow
    rw [List.forall_mem_singleton]
    refine .inl (List.mem_flatMap.2 ⟨row, List.mem_of_find?_eq_some hrow, ?_⟩)
    exact List.mem_map.2 ⟨_, List.contains_iff_mem.1 hname, String.toList_ofList⟩
  · split at h
    · rename_i property value hlookup
      cases h
      obtain ⟨before, after, hrows, -⟩ := List.lookup_eq_some_iff.1 hlookup
      rw [declare, List.forall_mem_singleton]
      exact .inr (.inl (List.mem_map.2 ⟨(String.ofList utility, property, value), by simp [hrows], rfl⟩))
    · intro d hd
      simp only [Option.orElse_eq_orElse, Option.orElse_eq_or, Option.or_eq_some_iff] at h
      rcases h with hstarted | ⟨-, hgroup | ⟨-, hfamily⟩⟩
      · exact .inr (.inr (.inl (started?_value hstarted d hd)))
      · obtain ⟨before, after, hrows, -⟩ := List.lookup_eq_some_iff.1 hgroup
        refine .inr (.inr (.inr (.inl (List.mem_flatMap.2 ⟨(String.ofList utility, ds), by simp [hrows], ?_⟩))))
        exact List.mem_map_of_mem hd
      · exact .inr (.inr (.inr (.inr (family?_value hfamily d hd))))

end TsxWorkbench.Utility
