/-
What the entries of a module's exports say of its props. Entries are merged one by one into the definitions so far; the
outcome has a closed form in which the merging no longer occurs: one definition for each key, in the order in which the
keys first appear, with what the entries of that key alone say of it (`summary`).
- `summary_merge`: one more entry of a key, merged into what is said of it, is what all its entries say of it.
- `addEntry_definitionsOf`: one more entry keeps the closed form; `foldl_addEntry`: so do all entries.
- `sharedKeys_strict`, `mem_sharedKeys`: keys that at least two exports ask for, each once and in order.
- `ofModule_closedForm`: all of this for the props of a module.
-/
import TsxWorkbench.Answer
import TsxWorkbench.Proofs.Text.Sorting

namespace TsxWorkbench.Analysis

open Text

/-! ## Types -/

/-- the enumeration written on an entry -/
def PropEntry.enumeration? (e : PropEntry) : Option PropType := e.annotated.filter PropType.isEnumeration

theorem typeOfDefault_not_enumeration (v : Json) : (typeOfDefault? v).any PropType.isEnumeration = false := by
  cases v <;> rfl

/-- an entry has an enumeration for its type exactly if one is written on it -/
theorem PropEntry.filter_type? (e : PropEntry) : e.type?.filter PropType.isEnumeration = e.enumeration? := by
  unfold PropEntry.type? PropEntry.enumeration?
  by_cases hany : e.annotated.any PropType.isEnumeration
  · rw [if_pos hany]
  · have hann : e.annotated.filter PropType.isEnumeration = none := by
      rw [Option.filter_eq_none_iff]
      intro t ht
      simpa [ht] using hany
    rw [if_neg hany, Option.orElse_eq_orElse, Option.orElse_eq_or]
    cases hdefault : e.default.bind typeOfDefault? with
    | none => rw [Option.none_or]
    | some t =>
      obtain ⟨v, -, hv⟩ := Option.bind_eq_some_iff.1 hdefault
      have ht : t.isEnumeration = false := by simpa [hv] using typeOfDefault_not_enumeration v
      rw [Option.some_or, hann, Option.filter_some_neg ht]

/-- the better of two types is the first enumeration among them, else the first of them -/
theorem mergeTypes_eq (a b : Option PropType) : mergeTypes a b =
    ((a.filter PropType.isEnumeration).or (b.filter PropType.isEnumeration)).or (a.or b) := by
  rcases a with - | a <;> rcases b with - | b
  · rfl
  · cases hb : b.isEnumeration <;> simp [mergeTypes, Option.filter_some, hb]
  · cases ha : a.isEnumeration <;> simp [mergeTypes, Option.filter_some, ha]
  · cases ha : a.isEnumeration <;> cases hb : b.isEnumeration <;> simp [mergeTypes, Option.filter_some, ha, hb]

/-- type that several entries give: the first enumeration that is written down, else the first that is known -/
def typeOf? (es : List PropEntry) : Option PropType :=
  (es.findSome? PropEntry.enumeration?).or (es.findSome? PropEntry.type?)

/-- several entries give an enumeration exactly if one is written on one of them -/
theorem filter_typeOf? (es : List PropEntry) :
    (typeOf? es).filter PropType.isEnumeration = es.findSome? PropEntry.enumeration? := by
  unfold typeOf?
  cases henum : es.findSome? PropEntry.enumeration? with
  | some t =>
    obtain ⟨e, -, he⟩ := List.exists_of_findSome?_eq_some henum
    rw [Option.some_or, Option.filter_some_pos]
    exact (Option.filter_eq_some_iff.1 he).2
  | none =>
    rw [Option.none_or]
    cases htype : es.findSome? PropEntry.type? with
    | none => rfl
    | some t =>
      obtain ⟨e, he, het⟩ := List.exists_of_findSome?_eq_some htype
      rw [← het, e.filter_type?]
      exact List.findSome?_eq_none_iff.1 henum e he

theorem typeOf?_concat (es : List PropEntry) (e : PropEntry) :
    typeOf? (es ++ [e]) = mergeTypes (typeOf? es) e.type? := by
  rw [mergeTypes_eq, filter_typeOf?, e.filter_type?]
  unfold typeOf?
  rw [List.findSome?_append, List.findSome?_append, List.findSome?_singleton, List.findSome?_singleton]
  cases es.findSome? PropEntry.enumeration? with
  | some t => simp only [Option.some_or]
  | none => simp only [Option.none_or]

/-! ## One key -/

/-- what the entries of a key say of it -/
def summary (es : List PropEntry) (key : String) : PropDefinition where
  key := key
  type := typeOf? es
  default := es.findSome? PropEntry.default
  isRequired := es.all (·.default.isNone) && es.any (!·.isOptional)

/-- there is no first default exactly if no entry has one -/
theorem isNone_findSome?_default (es : List PropEntry) :
    (es.findSome? PropEntry.default).isNone = es.all (·.default.isNone) := by
  induction es with
  | nil => rfl
  | cons e rest ih => cases h : e.default <;> simp [h, ih]

/-- **One more entry of a key.** Merged into what is said of the key, it gives what all the entries say. -/
theorem summary_merge (es : List PropEntry) (e : PropEntry) :
    (summary es e.key).merge e = summary (es ++ [e]) e.key := by
  have hdefault : (es.findSome? PropEntry.default <|> e.default) = (es ++ [e]).findSome? PropEntry.default := by
    rw [List.findSome?_append, List.findSome?_singleton, Option.orElse_eq_orElse, Option.orElse_eq_or]
  have hrequired : (((es ++ [e]).findSome? PropEntry.default).isNone &&
      ((summary es e.key).isRequired || e.definition.isRequired)) = (summary (es ++ [e]) e.key).isRequired := by
    rw [isNone_findSome?_default]
    simp only [summary, PropEntry.definition, List.all_append, List.any_append, List.all_cons, List.all_nil,
      List.any_cons, List.any_nil, Bool.and_true, Bool.or_false]
    cases es.all (·.default.isNone) <;> cases e.default.isNone <;> simp
  calc (summary es e.key).merge e
      = ⟨e.key, mergeTypes (typeOf? es) e.type?, es.findSome? PropEntry.default <|> e.default,
          (es.findSome? PropEntry.default <|> e.default).isNone &&
            ((summary es e.key).isRequired || e.definition.isRequired)⟩ := rfl
    _ = summary (es ++ [e]) e.key := by
      rw [hdefault, hrequired, ← typeOf?_concat]
      rfl

theorem definition_eq_summary (e : PropEntry) : e.definition = summary [e] e.key := by
  rw [← List.nil_append [e], ← summary_merge]
  cases h : e.type? <;> simp [PropDefinition.merge, summary, typeOf?, mergeTypes, PropEntry.definition, h]

/-! ## All keys -/

/-- entries of a key -/
def entriesOf (es : List PropEntry) (key : String) : List PropEntry := es.filter (·.key = key)

/-- keys of entries, in the order in which they first appear -/
def keysOf (es : List PropEntry) : List String := (es.map (·.key)).eraseDups

theorem keysOf_nodup (es : List PropEntry) : (keysOf es).Nodup := nodup_eraseDups _

/-- definitions of entries: one for each key -/
def definitionsOf (es : List PropEntry) : List PropDefinition := (keysOf es).map fun k => summary (entriesOf es k) k

variable {f : String → PropDefinition}

/-- a new key comes last -/
theorem addEntry_of_not_mem (hf : ∀ k, (f k).key = k) {keys : List String} {e : PropEntry} (h : e.key ∉ keys) :
    addEntry (keys.map f) e = keys.map f ++ [e.definition] := by
  induction keys with
  | nil => rfl
  | cons k rest ih =>
    rw [List.mem_cons, not_or] at h
    rw [List.map_cons, addEntry, if_neg (by rw [hf]; exact fun hk => h.1 hk.symm), ih h.2]
    rfl

/-- a key that is there keeps its place, and so do all others -/
theorem addEntry_of_mem (hf : ∀ k, (f k).key = k) {keys : List String} (hkeys : keys.Nodup) {e : PropEntry}
    (h : e.key ∈ keys) : addEntry (keys.map f) e = keys.map fun k => if k = e.key then (f k).merge e else f k := by
  induction keys with
  | nil => cases h
  | cons k rest ih =>
    rw [List.nodup_cons] at hkeys
    rw [List.map_cons, List.map_cons, addEntry, hf]
    by_cases hk : k = e.key
    · have hrest : rest.map f = rest.map fun k => if k = e.key then (f k).merge e else f k := by
        apply List.map_congr_left
        intro other hother
        rw [if_neg (fun heq => hkeys.1 (by rw [hk, ← heq]; exact hother))]
      rw [if_pos hk, if_pos hk, hrest]
    · rcases List.mem_cons.1 h with heq | hmem
      · exact absurd heq.symm hk
      · rw [if_neg hk, if_neg hk, ih hkeys.2 hmem]

theorem entriesOf_concat (es : List PropEntry) (e : PropEntry) (key : String) :
    entriesOf (es ++ [e]) key = if e.key = key then entriesOf es key ++ [e] else entriesOf es key := by
  unfold entriesOf
  by_cases h : e.key = key <;> simp [List.filter_append, h]

/-- **One more entry.** -/
theorem addEntry_definitionsOf (es : List PropEntry) (e : PropEntry) :
    addEntry (definitionsOf es) e = definitionsOf (es ++ [e]) := by
  have hkeys : keysOf (es ++ [e]) = if e.key ∈ es.map (·.key) then keysOf es else keysOf es ++ [e.key] := by
    unfold keysOf
    rw [List.map_append, List.map_cons, List.map_nil, eraseDups_concat]
  have hmem : e.key ∈ keysOf es ↔ e.key ∈ es.map (·.key) := List.mem_eraseDups
  have hsummary : ∀ k, (summary (entriesOf es k) k).key = k := fun _ => rfl
  unfold definitionsOf
  rw [hkeys]
  by_cases h : e.key ∈ es.map (·.key)
  · rw [if_pos h, addEntry_of_mem hsummary (keysOf_nodup es) (hmem.2 h)]
    apply List.map_congr_left
    intro k _
    rw [entriesOf_concat]
    by_cases hk : k = e.key
    · rw [if_pos hk, if_pos hk.symm, hk, summary_merge]
    · rw [if_neg hk, if_neg (Ne.symm hk)]
  · rw [if_neg h, addEntry_of_not_mem hsummary (fun hk => h (hmem.1 hk)), List.map_append]
    congr 1
    · apply List.map_congr_left
      intro k hk
      rw [entriesOf_concat, if_neg]
      intro heq
      exact h (hmem.1 (heq ▸ hk))
    · have hnone : entriesOf es e.key = [] := by
        rw [entriesOf, List.filter_eq_nil_iff]
        intro other hother heq
        exact h (List.mem_map.2 ⟨other, hother, of_decide_eq_true heq⟩)
      rw [definition_eq_summary, List.map_cons, List.map_nil, entriesOf_concat, if_pos rfl, hnone, List.nil_append]

/-- **All entries.** Merged one by one, entries give one definition for each key. -/
theorem foldl_addEntry (es : List PropEntry) : es.foldl addEntry [] = definitionsOf es := by
  have hrun : ∀ rest done, List.foldl addEntry (definitionsOf done) rest = definitionsOf (done ++ rest) := by
    intro rest
    induction rest with
    | nil =>
      intro done
      rw [List.append_nil]
      rfl
    | cons e rest ih =>
      intro done
      rw [List.foldl_cons, addEntry_definitionsOf, ih, List.append_assoc]
      rfl
  exact hrun es []

/-! ## Keys of several exports -/

theorem sharedKeys_strict (lists : List (List String)) : (sharedKeys lists).Pairwise (· < ·) := sortedTexts_strict _

theorem mem_sharedKeys {lists : List (List String)} {key : String} :
    key ∈ sharedKeys lists ↔ 2 ≤ lists.countP (·.contains key) := by
  unfold sharedKeys
  rw [mem_sortedTexts, List.mem_filter, List.countP_eq_length_filter, decide_eq_true_iff]
  constructor
  · exact fun h => h.2
  · intro h
    refine ⟨?_, h⟩
    obtain ⟨l, hl⟩ := List.exists_mem_of_length_pos (Nat.lt_of_lt_of_le Nat.zero_lt_two h)
    rw [List.mem_filter] at hl
    exact List.mem_flatMap.2 ⟨l, hl.1, List.contains_iff_mem.1 hl.2⟩

/-! ## Props of a module -/

/-- entries of each export of a module, in order -/
def exportEntries (m : Syntax.Module) : List (List PropEntry) :=
  (exportedComponents m).map fun c => c.2.entries (TypeScope.ofModule m)

theorem ofModule_definitions (m : Syntax.Module) :
    (Props.ofModule m).definitions = definitionsOf (exportEntries m).flatten := by
  rw [← foldl_addEntry, ← List.flatMap_id]
  rfl

/-- what the entries of exports alone say of the props of all -/
structure ClosedForm (lists : List (List PropEntry)) (p : Props) : Prop where
  /-- one definition for each key, in the order in which the keys first appear -/
  keys : p.definitions.map (·.key) = (lists.flatten.map (·.key)).eraseDups
  distinct : (p.definitions.map (·.key)).Nodup
  required : ∀ d ∈ p.definitions, d.isRequired ↔
    (∀ e ∈ lists.flatten, e.key = d.key → e.default = none) ∧
      ∃ e ∈ lists.flatten, e.key = d.key ∧ e.isOptional = false
  /-- the first default that an entry of the key has -/
  default : ∀ d ∈ p.definitions, d.default = (entriesOf lists.flatten d.key).findSome? PropEntry.default
  /-- the first enumeration written on an entry of the key, else the first type known of one, else texts -/
  type : ∀ d ∈ p.definitions, d.shownType = (((entriesOf lists.flatten d.key).findSome? PropEntry.enumeration?).or
    ((entriesOf lists.flatten d.key).findSome? PropEntry.type?)).getD .string
  /-- values are listed exactly for enumerations -/
  values : ∀ d ∈ p.definitions, d.toJson.field? "enumValues" = d.shownType.values?.map Json.array ∧
    ((d.toJson.field? "enumValues").isSome ↔ d.toJson.field? "type" = some (.string "enum"))
  defaults : ∀ key v, (key, v) ∈ p.defaults ↔ ∃ d ∈ p.definitions, d.key = key ∧ d.default = some v
  defaults_distinct : (p.defaults.map Prod.fst).Nodup
  /-- a required key has no default -/
  defaults_optional : ∀ d ∈ p.definitions, d.isRequired → d.key ∉ p.defaults.map Prod.fst
  shared_strict : p.duplicateKeys.Pairwise (· < ·)
  /-- keys to which at least two exports contribute -/
  shared : ∀ key, key ∈ p.duplicateKeys ↔ 2 ≤ lists.countP fun es => es.any (·.key = key)

theorem mem_defaults {p : Props} {key : String} {v : Json} :
    (key, v) ∈ p.defaults ↔ ∃ d ∈ p.definitions, d.key = key ∧ d.default = some v := by
  unfold Props.defaults
  rw [List.mem_filterMap]
  constructor
  · rintro ⟨d, hd, hv⟩
    obtain ⟨w, hw, heq⟩ := Option.map_eq_some_iff.1 hv
    cases heq
    exact ⟨d, hd, rfl, hw⟩
  · rintro ⟨d, hd, rfl, hv⟩
    exact ⟨d, hd, by rw [hv]; rfl⟩

theorem defaults_keys_sublist (p : Props) : (p.defaults.map Prod.fst).Sublist (p.definitions.map (·.key)) := by
  unfold Props.defaults
  induction p.definitions with
  | nil => exact .slnil
  | cons d rest ih =>
    cases hd : d.default with
    | none =>
      rw [List.filterMap_cons_none (by rw [hd]; rfl), List.map_cons]
      exact ih.cons _
    | some v =>
      rw [List.filterMap_cons_some (by rw [hd]; rfl), List.map_cons, List.map_cons]
      exact ih.cons_cons _

theorem toJson_values (d : PropDefinition) : d.toJson.field? "enumValues" = d.shownType.values?.map Json.array ∧
    ((d.toJson.field? "enumValues").isSome ↔ d.toJson.field? "type" = some (.string "enum")) := by
  unfold PropDefinition.toJson
  cases d.shownType <;> simp [Json.field?, PropType.values?, PropType.name]

theorem isRequired_summary {es : List PropEntry} {key : String} : (summary (entriesOf es key) key).isRequired ↔
    (∀ e ∈ es, e.key = key → e.default = none) ∧ ∃ e ∈ es, e.key = key ∧ e.isOptional = false := by
  simp only [summary, entriesOf, Bool.and_eq_true, List.all_eq_true, List.any_eq_true, List.mem_filter,
    decide_eq_true_iff, Option.isNone_iff_eq_none, Bool.not_eq_true', and_imp, and_assoc]

theorem keys_ofModule (m : Syntax.Module) :
    (Props.ofModule m).definitions.map (·.key) = keysOf (exportEntries m).flatten := by
  rw [ofModule_definitions, definitionsOf, List.map_map]
  exact List.map_id _

/-- a definition is what the entries of its key say -/
theorem eq_summary {m : Syntax.Module} {d : PropDefinition} (hd : d ∈ (Props.ofModule m).definitions) :
    d = summary (entriesOf (exportEntries m).flatten d.key) d.key := by
  rw [ofModule_definitions] at hd
  obtain ⟨key, -, rfl⟩ := List.mem_map.1 hd
  rfl

theorem isRequired_iff_entries {m : Syntax.Module} {d : PropDefinition} (hd : d ∈ (Props.ofModule m).definitions) :
    d.isRequired ↔ (∀ e ∈ (exportEntries m).flatten, e.key = d.key → e.default = none) ∧
      ∃ e ∈ (exportEntries m).flatten, e.key = d.key ∧ e.isOptional = false := by
  rw [← isRequired_summary, ← eq_summary hd]

/-- a required key has no default, in no definition -/
theorem not_mem_defaults_of_isRequired {m : Syntax.Module} {d : PropDefinition}
    (hd : d ∈ (Props.ofModule m).definitions) (hrequired : d.isRequired) :
    d.key ∉ (Props.ofModule m).defaults.map Prod.fst := by
  intro hmem
  obtain ⟨⟨key, v⟩, hv, rfl⟩ := List.mem_map.1 hmem
  obtain ⟨other, hother, heq, hdefault⟩ := mem_defaults.1 hv
  rw [eq_summary hother, heq] at hdefault
  obtain ⟨e, he, hed⟩ := List.exists_of_findSome?_eq_some hdefault
  rw [entriesOf, List.mem_filter, decide_eq_true_iff] at he
  rw [((isRequired_iff_entries hd).1 hrequired).1 e he.1 he.2] at hed
  cases hed

theorem mem_duplicateKeys {m : Syntax.Module} {key : String} : key ∈ (Props.ofModule m).duplicateKeys ↔
    2 ≤ (exportEntries m).countP fun es => es.any (·.key = key) := by
  have hshared : (Props.ofModule m).duplicateKeys = sharedKeys ((exportEntries m).map (·.map (·.key))) := rfl
  have hcount : ((fun keys : List String => keys.contains key) ∘ List.map PropEntry.key) =
      fun es => es.any (·.key = key) := by
    funext es
    rw [Function.comp_apply, List.contains_eq_any_beq, List.any_map]
    congr 1
    funext e
    rw [Function.comp_apply, Bool.beq_eq_decide_eq, decide_eq_decide]
    exact eq_comm
  rw [hshared, mem_sharedKeys, List.countP_map, hcount]

/-- **Props of a module.** They are the closed form of the entries of its exports. -/
theorem ofModule_closedForm (m : Syntax.Module) : ClosedForm (exportEntries m) (Props.ofModule m) := by
  have hdistinct : ((Props.ofModule m).definitions.map (·.key)).Nodup := keys_ofModule m ▸ keysOf_nodup _
  constructor
  case keys => exact keys_ofModule m
  case distinct => exact hdistinct
  case required => exact fun d hd => isRequired_iff_entries hd
  case default => exact fun d hd => congrArg PropDefinition.default (eq_summary hd)
  case type => exact fun d hd => congrArg PropDefinition.shownType (eq_summary hd)
  case values => exact fun d _ => toJson_values d
  case defaults => exact fun _ _ => mem_defaults
  case defaults_distinct => exact hdistinct.sublist (defaults_keys_sublist _)
  case defaults_optional => exact fun d hd hrequired => not_mem_defaults_of_isRequired hd hrequired
  case shared_strict => exact sharedKeys_strict _
  case shared => exact fun key => mem_duplicateKeys

end TsxWorkbench.Analysis
