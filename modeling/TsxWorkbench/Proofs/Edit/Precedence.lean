/-
Which place decides about a style. A style update takes each of its fields out of the inline style, or writes it there,
and leaves all other entries alone.
- `mem_entries`: the changes of an update, one for each field that it names.
- `planned_removes`, `planned_sets`, `planned_names`: the patch of a plan in terms of the update.
- `updateStyle_precedence`: a field that is cleared or goes into the classes has no entry left in the style of the
  element; a field without a class form has one, and all its entries hold the value; other entries stay as they are.

These are the entries of the style attribute that is in force, the last one. When none is left the attribute goes, and
an earlier style attribute of the element comes into force with entries that no update has seen:
`emptied_style_uncovers_duplicate`.
-/
import TsxWorkbench.Edit.Style
import TsxWorkbench.Proofs.Edit.Element
import TsxWorkbench.Proofs.Edit.Patch
import TsxWorkbench.Proofs.Text.Splice

namespace TsxWorkbench.Edit

open Text Syntax Analysis

variable {source indentUnit : List Char} {point : Position} {update : StyleUpdate} {e : Element} {field : StyleField}
  {key : String}

/-! ## Fields of an update -/

theorem StyleField.property_injective {f g : StyleField} (h : f.property = g.property) : f = g := by
  revert h
  cases f <;> cases g <;> decide

/-- **Changes of an update.** Each field that the update names occurs with what it says of the field. -/
theorem mem_entries {change : Change} : (field, change) ∈ update.entries ↔ update.change? field = some change := by
  unfold StyleUpdate.entries
  rw [List.mem_filterMap]
  constructor
  · rintro ⟨f, -, hf⟩
    obtain ⟨c, hc, heq⟩ := Option.map_eq_some_iff.1 hf
    cases heq
    exact hc
  · intro h
    exact ⟨field, field.mem_all, by rw [h]; rfl⟩

/-- a key of an inline style that belongs to a field which an update names -/
def StyleUpdate.names (u : StyleUpdate) (key : String) : Bool := u.entries.any fun c => c.1.property == key

/-- the value of a change that has no class form, so that it goes into the inline style -/
def inlineValue? (field : StyleField) : Change → Option StyleValue
  | .clear => none
  | .set value => if (formatToken? field value).isNone then some value else none

theorem inlineValue?_eq_some {change : Change} {value : StyleValue} :
    inlineValue? field change = some value ↔ change = .set value ∧ formatToken? field value = none := by
  cases change with
  | clear => simp [inlineValue?]
  | set v =>
    simp only [inlineValue?, Option.ite_none_right_eq_some, Option.isNone_iff_eq_none, Option.some.injEq,
      Change.set.injEq]
    constructor
    · rintro ⟨hnone, rfl⟩
      exact ⟨rfl, hnone⟩
    · rintro ⟨rfl, hnone⟩
      exact ⟨hnone, rfl⟩

/-- one field is removed from the inline style or set there, never both -/
theorem classChange_patch (field : StyleField) (change : Change) : (classChange field change).patch =
    match inlineValue? field change with
    | none => ⟨[], [field.property]⟩
    | some value => ⟨[(field.property, value.script)], []⟩ := by
  cases change with
  | clear => rfl
  | set value =>
    unfold classChange inlineValue?
    dsimp only
    cases formatToken? field value <;> rfl

/-! ## The patch of a plan -/

theorem foldl_append (plans : List StylePlan) (start : StylePlan) : plans.foldl StylePlan.append start =
    start.append ⟨plans.flatMap StylePlan.classes, ⟨plans.flatMap (·.patch.sets), plans.flatMap (·.patch.removes)⟩,
      plans.flatMap StylePlan.notices⟩ := by
  induction plans generalizing start with
  | nil => simp [StylePlan.append]
  | cons plan plans ih =>
    rw [List.foldl_cons, ih]
    simp [StylePlan.append]

/-- the patch for an element whose classes can be written, field by field -/
theorem patch_of_static {target : ClassTarget} (h : target ≠ .dynamic) (changes : List (StyleField × Change)) :
    (StylePlan.of target changes).patch = ⟨changes.flatMap fun c => (classChange c.1 c.2).patch.sets,
      changes.flatMap fun c => (classChange c.1 c.2).patch.removes⟩ := by
  have hplan : StylePlan.of target changes =
      (changes.map fun c => classChange c.1 c.2).foldl StylePlan.append ⟨[], ⟨[], []⟩, []⟩ := by
    cases target with
    | dynamic => exact absurd rfl h
    | missing => rfl
    | static => rfl
  rw [hplan, foldl_append]
  simp [StylePlan.append, List.flatMap_map]

section Planned

variable {target : ClassTarget} (htarget : target ≠ .dynamic)
include htarget

/-- **Removed keys.** They are those of the fields without a value for the inline style. -/
theorem planned_removes : key ∈ (StylePlan.of target update.entries).patch.removes ↔
    ∃ field change, update.change? field = some change ∧ inlineValue? field change = none ∧ field.property = key := by
  rw [patch_of_static htarget, List.mem_flatMap]
  constructor
  · rintro ⟨⟨field, change⟩, hchange, hkey⟩
    rw [classChange_patch] at hkey
    refine ⟨field, change, mem_entries.1 hchange, ?_⟩
    cases hvalue : inlineValue? field change <;> simp_all
  · rintro ⟨field, change, hchange, hvalue, rfl⟩
    refine ⟨(field, change), mem_entries.2 hchange, ?_⟩
    rw [classChange_patch, hvalue]
    exact List.mem_singleton_self _

/-- **Set keys.** They are those of the fields with a value for the inline style. -/
theorem planned_sets {text : List Char} : (key, text) ∈ (StylePlan.of target update.entries).patch.sets ↔
    ∃ field change value, update.change? field = some change ∧ inlineValue? field change = some value ∧
      field.property = key ∧ value.script = text := by
  rw [patch_of_static htarget, List.mem_flatMap]
  constructor
  · rintro ⟨⟨field, change⟩, hchange, hkey⟩
    rw [classChange_patch] at hkey
    cases hvalue : inlineValue? field change with
    | none => simp [hvalue] at hkey
    | some value =>
      rw [hvalue] at hkey
      cases List.mem_singleton.1 hkey
      exact ⟨field, change, value, mem_entries.1 hchange, hvalue, rfl, rfl⟩
  · rintro ⟨field, change, value, hchange, hvalue, rfl, rfl⟩
    refine ⟨(field, change), mem_entries.2 hchange, ?_⟩
    rw [classChange_patch, hvalue]
    exact List.mem_singleton_self _

/-- the plan names the keys of the update's fields and no others -/
theorem planned_names (update : StyleUpdate) : (StylePlan.of target update.entries).patch.names = update.names := by
  funext key
  rw [Bool.eq_iff_iff]
  unfold StylePatch.names StyleUpdate.names
  rw [Bool.or_eq_true, List.contains_iff_mem, planned_removes htarget, List.any_eq_true, List.any_eq_true]
  constructor
  · rintro (⟨field, change, hchange, -, rfl⟩ | ⟨⟨k, text⟩, hset, hkey⟩)
    · exact ⟨(field, change), mem_entries.2 hchange, beq_self_eq_true _⟩
    · obtain ⟨field, change, value, hchange, -, rfl, -⟩ := (planned_sets htarget).1 hset
      exact ⟨(field, change), mem_entries.2 hchange, hkey⟩
  · rintro ⟨⟨field, change⟩, hchange, hkey⟩
    obtain rfl : field.property = key := eq_of_beq hkey
    cases hvalue : inlineValue? field change with
    | none => exact .inl ⟨field, change, mem_entries.1 hchange, hvalue, rfl⟩
    | some value =>
      exact .inr ⟨_, (planned_sets htarget).2 ⟨field, change, value, mem_entries.1 hchange, hvalue, rfl, rfl⟩, hkey⟩

end Planned

/-! ## Precedence -/

/-- what an update makes of the entries of a style: each of its fields is decided in one place -/
structure Precedence (source : List Char) (old : List Node) (update : StyleUpdate) (new : List Entry) : Prop where
  /-- a field that is cleared has no entry -/
  cleared : ∀ field, update.change? field = some .clear → ∀ entry ∈ new, entry.key ≠ some field.property
  /-- a field that goes into the classes has no entry -/
  classes : ∀ field value token, update.change? field = some (.set value) → formatToken? field value = some token →
    ∀ entry ∈ new, entry.key ≠ some field.property
  /-- a field without a class form has an entry, and each entry of it holds the value -/
  inline : ∀ field value, update.change? field = some (.set value) → formatToken? field value = none →
    (∃ entry ∈ new, entry.key = some field.property) ∧
      ∀ entry ∈ new, entry.key = some field.property → Holds source old field.property value.script entry.text
  /-- entries of other keys, and entries without a key, keep their text and their order -/
  others : new.filter (fun entry => !entry.key.any update.names) =
    (old.map (Entry.ofNode source)).filter fun entry => !entry.key.any update.names

/-- the entries of any style under the patch of an update -/
theorem precedence_newEntries {target : ClassTarget} (htarget : target ≠ .dynamic) (source : List Char)
    (old : List Node) (update : StyleUpdate) :
    Precedence source old update (newEntries source (StylePlan.of target update.entries).patch old) := by
  -- a field has one change, and two fields have different properties
  have hsame : ∀ {f g : StyleField} {c d : Change}, update.change? f = some c → update.change? g = some d →
      g.property = f.property → g = f ∧ d = c := by
    intro f g c d hf hg hkey
    obtain rfl := StyleField.property_injective hkey
    exact ⟨rfl, Option.some.inj (hg.symm.trans hf)⟩
  have hremoved : ∀ field change, update.change? field = some change → inlineValue? field change = none →
      ∀ entry ∈ newEntries source (StylePlan.of target update.entries).patch old,
        entry.key ≠ some field.property := by
    intro field change hchange hvalue
    refine key_ne_of_removed ((planned_removes htarget).2 ⟨field, change, hchange, hvalue, rfl⟩) ?_
    rintro ⟨k, text⟩ hset hkey
    obtain ⟨g, d, value, hd, hsome, hg, -⟩ := (planned_sets htarget).1 hset
    obtain ⟨rfl, rfl⟩ := hsame hchange hd (hg.trans hkey)
    cases hvalue.symm.trans hsome
  constructor
  case cleared => exact fun field hchange => hremoved field _ hchange rfl
  case classes =>
    intro field value token hchange htoken
    exact hremoved field _ hchange (by simp [inlineValue?, htoken])
  case inline =>
    intro field value hchange htoken
    have hvalue := inlineValue?_eq_some.2 ⟨rfl, htoken⟩
    apply holds_of_set ((planned_sets htarget).2 ⟨field, _, value, hchange, hvalue, rfl, rfl⟩)
    · intro text hset
      obtain ⟨g, d, v, hd, hsome, hg, rfl⟩ := (planned_sets htarget).1 hset
      obtain ⟨rfl, rfl⟩ := hsame hchange hd hg
      cases hvalue.symm.trans hsome
      rfl
    · intro hremove
      obtain ⟨g, d, hd, hnone, hg⟩ := (planned_removes htarget).1 hremove
      obtain ⟨rfl, rfl⟩ := hsame hchange hd hg
      cases hvalue.symm.trans hnone
  case others =>
    rw [← planned_names htarget]
    exact filter_newEntries source _ old

/-! ## Updated elements -/

/-- whether the classes and the style of an element can be written -/
def understood (source : List Char) (e : Element) : Bool :=
  match ClassTarget.of source e, StyleAttribute.of e with
  | .dynamic, _ | _, .dynamic => false
  | _, _ => true

theorem ne_dynamic_of_understood (h : understood source e = true) :
    ClassTarget.of source e ≠ .dynamic ∧ StyleAttribute.of e ≠ .dynamic := by
  unfold understood at h
  constructor
  · intro hclass
    rw [hclass] at h
    cases h
  · intro hstyle
    rw [hstyle] at h
    split at h
    · cases h
    · cases h
    · rename_i hne
      exact hne rfl

/-- an update that is applied carries out the splice for the classes and the splice for the style -/
theorem updateStyle_source {style : Option Splice} (hlocate : locate source point = .ok e)
    (hplan : planStyle source e (StylePlan.of (ClassTarget.of source e) update.entries).patch indentUnit = .ok style)
    (hchanged : (updateStyle indentUnit source point update).changed = true) :
    (updateStyle indentUnit source point update).source = applySplices source ((classSplice? (ClassTarget.of source e)
      (StylePlan.of (ClassTarget.of source e) update.entries).classes).toList ++ style.toList) := by
  unfold updateStyle at hchanged ⊢
  split at hchanged
  · cases hchanged
  rename_i hentries
  rw [if_neg hentries]
  rw [hlocate] at hchanged ⊢
  dsimp only [planUpdate] at hchanged ⊢
  rw [hplan] at hchanged ⊢
  dsimp only at hchanged ⊢
  split at hchanged
  · cases hchanged
  rename_i hsplices
  rw [if_neg hsplices]
  rfl

/-- **Style precedence.** An update that is applied to an element whose classes and style are understood writes the
classes of the plan, and a style whose entries are decided as the update says. Entries that the update does not name
keep their text, a method from the word or the asterisk before its key on. A style that has no entries left goes with
its attribute. -/
theorem updateStyle_precedence (hlocate : locate source point = .ok e) (hclass : ClassTarget.of source e ≠ .dynamic)
    (hstyle : StyleAttribute.of e ≠ .dynamic) (hchanged : (updateStyle indentUnit source point update).changed = true) :
    ∃ entries style, Precedence source (StyleAttribute.of e).entries update entries ∧
      WritesStyle source e indentUnit entries style ∧
      (updateStyle indentUnit source point update).source = applySplices source ((classSplice? (ClassTarget.of source e)
        (StylePlan.of (ClassTarget.of source e) update.entries).classes).toList ++ style.toList) := by
  obtain ⟨style, hplan⟩ := exists_planStyle source
    (StylePlan.of (ClassTarget.of source e) update.entries).patch hstyle indentUnit
  exact ⟨_, style, precedence_newEntries hclass source _ update, planStyle_writes hplan,
    updateStyle_source hlocate hplan hchanged⟩

/-- a style with a key that occurs twice, an entry without a key, and a key that the update does not name -/
def twiceColoured : List Char :=
  "const a = <div style=\x7b\x7b color: \"red\", ...rest, \"color\": x, top: 9 \x7d\x7d>x</div>;".toList

/-- a colour, which has a class form, and a length that has none -/
def greenAndLarge : StyleUpdate := [(.textColor, .set (.text "#00ff00".toList)), (.fontSize, .set (.text "2em".toList))]

theorem updateStyle_precedence_twiceColoured : ∃ e, locate twiceColoured ⟨1, 12⟩ = .ok e ∧ ∃ entries style,
    Precedence twiceColoured (StyleAttribute.of e).entries greenAndLarge entries ∧
      WritesStyle twiceColoured e [] entries style ∧
      (updateStyle [] twiceColoured ⟨1, 12⟩ greenAndLarge).source = applySplices twiceColoured
        ((classSplice? (ClassTarget.of twiceColoured e) (StylePlan.of (ClassTarget.of twiceColoured e)
          greenAndLarge.entries).classes).toList ++ style.toList) := by
  have hany : (locate twiceColoured ⟨1, 12⟩).toOption.any (understood twiceColoured) = true := by decide +kernel
  obtain ⟨e, hlocate, hunderstood⟩ := exists_of_toOption_any hany
  obtain ⟨hclass, hstyle⟩ := ne_dynamic_of_understood hunderstood
  exact ⟨e, hlocate, updateStyle_precedence hlocate hclass hstyle (by decide +kernel)⟩

/-- an element with two style attributes, of which the second is in force -/
def twoStyles : List Char :=
  ("const a = <div className=\"p-4\" style=\x7b\x7b color: \"red\" \x7d\x7d " ++
    "style=\x7b\x7b color: \"blue\" \x7d\x7d>x</div>;").toList

def green : StyleUpdate := [(.textColor, .set (.text "#00ff00".toList))]

/-- the plan for two styles: a class is added, and the emptied style goes -/
def greenPlanned (e : Element) : Bool :=
  let plan := StylePlan.of (ClassTarget.of twoStyles e) green.entries
  understood twoStyles e &&
    classSplice? (ClassTarget.of twoStyles e) plan.classes = some ⟨⟨25, 30⟩, "\"p-4 text-[#00ff00]\"".toList⟩ &&
    (planStyle twoStyles e plan.patch []).toOption = some (some ⟨⟨55, 81⟩, []⟩)

/-- **An emptied style brings an earlier one into force.** The update wrote the colour as a class and took the entry of
the last style attribute out. With that attribute gone, the entry of the first one decides about the colour. -/
theorem emptied_style_uncovers_duplicate : ¬∀ (indentUnit source : List Char) (point : Position) (update : StyleUpdate)
    (e e' : Element), locate source point = .ok e → ClassTarget.of source e ≠ .dynamic →
      StyleAttribute.of e ≠ .dynamic → (updateStyle indentUnit source point update).changed = true →
      locate (updateStyle indentUnit source point update).source point = .ok e' →
      ∀ field value token, update.change? field = some (.set value) → formatToken? field value = some token →
        ∀ n ∈ (StyleAttribute.of e').entries, entryKey? n ≠ some field.property := by
  intro h
  have hany : (locate twoStyles ⟨1, 12⟩).toOption.any greenPlanned = true := by decide +kernel
  have hchanged : (updateStyle [] twoStyles ⟨1, 12⟩ green).changed = true := by decide +kernel
  obtain ⟨e, hlocate, hplanned⟩ := exists_of_toOption_any hany
  simp only [greenPlanned, Bool.and_eq_true, decide_eq_true_eq] at hplanned
  obtain ⟨⟨hunderstood, hclasses⟩, hstyle⟩ := hplanned
  obtain ⟨hclass, hobject⟩ := ne_dynamic_of_understood hunderstood
  have hresult : (updateStyle [] twoStyles ⟨1, 12⟩ green).source =
      "const a = <div className=\"p-4 text-[#00ff00]\" style=\x7b\x7b color: \"red\" \x7d\x7d>x</div>;".toList := by
    cases hplan : planStyle twoStyles e (StylePlan.of (ClassTarget.of twoStyles e) green.entries).patch [] with
    | error => rw [hplan] at hstyle; cases hstyle
    | ok style =>
      rw [hplan] at hstyle
      obtain rfl := Option.some.inj hstyle
      rw [updateStyle_source hlocate hplan hchanged, hclasses]
      exact (applySplices_pair rfl).trans (by decide +kernel)
  have hred : (locate (updateStyle [] twoStyles ⟨1, 12⟩ green).source ⟨1, 12⟩).toOption.any
      (fun e' => (StyleAttribute.of e').entries.any fun n => entryKey? n == some "color") = true := by
    rw [hresult]
    decide +kernel
  obtain ⟨e', hlocate', hcolour⟩ := exists_of_toOption_any hred
  obtain ⟨n, hn, hkey⟩ := List.any_eq_true.1 hcolour
  exact h _ _ _ _ e e' hlocate hclass hobject hchanged hlocate' .textColor _ "text-[#00ff00]".toList rfl
    (by decide +kernel) n hn (eq_of_beq hkey)

end TsxWorkbench.Edit
