/-
What a patch makes of an object literal, entry by entry (`Patched`), and what is planned for it.
- `patched_iff`: a patch that sets each key once, and none that it removes, leaves exactly one list of the old entries.
- `patchChanges_eq_false_iff`: such a patch changes an object if and only if the texts of the entries change. A removed
  entry might be made up for by an added one with its text, were it not that the text of an entry shows its key
  (`ShowsKeys`).
- `planStyle_patched`: so nothing is planned if the entries are the old ones, the attribute goes if there are none left,
  and else the object is written with the entries that are left and the added ones behind them.
-/
import Mathlib.Data.List.Nodup
import TsxWorkbench.Proofs.Edit.Element
import TsxWorkbench.Proofs.Edit.Patch

namespace TsxWorkbench.Edit

open Text Syntax Analysis

variable {source indentUnit : List Char} {p : StylePatch} {old : List Node} {key : String} {value : List Char}
  {e : Element} {whole literal : Span} {keyOf : List Char → Option String}

/-! ## Entries under a patch -/

/-- the entries of an object under a patch: those with a removed key are left out, those with a set key get the new
value, and all others stand as they stood -/
inductive Patched (source : List Char) (p : StylePatch) : List Node → List Entry → Prop
  | nil : Patched source p [] []
  | removed {n : Node} {rest : List Node} {entries : List Entry} {key : String} (hkey : entryKey? n = some key)
      (hremoved : key ∈ p.removes) (hrest : Patched source p rest entries) : Patched source p (n :: rest) entries
  /-- the key keeps its text, with what stands between it and the value -/
  | replaced {span : Span} {name before : Node} {rest : List Node} {entries : List Entry} {key : String}
      {value : List Char} (hkey : staticKey? name = some key) (hset : (key, value) ∈ p.sets)
      (hrest : Patched source p rest entries) : Patched source p (.keyValue span name before :: rest)
        (⟨some key, sliceBytes span.lo before.span.lo source ++ value⟩ :: entries)
  | spelledOut {span : Span} {rest : List Node} {entries : List Entry} {key : String} {value : List Char}
      (hset : (key, value) ∈ p.sets) (hrest : Patched source p rest entries) :
      Patched source p (.shorthand span key :: rest) (⟨some key, entryText key value⟩ :: entries)
  | kept {n : Node} {rest : List Node} {entries : List Entry} (hkey : (entryKey? n).any p.names = false)
      (hrest : Patched source p rest entries) : Patched source p (n :: rest) (.ofNode source n :: entries)

/-- entries for the keys that a patch sets and no old entry has -/
def addedBehind (p : StylePatch) (old : List Node) : List Entry :=
  (p.sets.filter fun s => some s.1 ∉ old.map entryKey?).map .ofSet

/-- a patch that says one thing of each key -/
structure StylePatch.Plain (p : StylePatch) : Prop where
  distinct : (p.sets.map Prod.fst).Nodup
  disjoint : ∀ s ∈ p.sets, s.1 ∉ p.removes

namespace StylePatch.Plain

variable (hp : p.Plain)
include hp

theorem lookup_eq_some_iff : p.sets.lookup key = some value ↔ (key, value) ∈ p.sets := by
  constructor
  · intro h
    obtain ⟨before, after, hsets, -⟩ := List.lookup_eq_some_iff.1 h
    rw [hsets]
    exact List.mem_append_right _ List.mem_cons_self
  · exact fun h => lookup_of_unique h fun v hv => congrArg Prod.snd (List.inj_on_of_nodup_map hp.distinct hv h rfl)

theorem patched?_of_mem {n : Node} (hkey : entryKey? n = some key) (hset : (key, value) ∈ p.sets) :
    Entry.patched? source p n = some ⟨some key, replaceValue source n key value⟩ :=
  patched?_of_set hkey (hp.disjoint _ hset) (hp.lookup_eq_some_iff.2 hset)

theorem newEntries_eq : newEntries source p old = old.filterMap (Entry.patched? source p) ++ addedBehind p old := by
  have hadded : ∀ s ∈ p.sets, (p.removes.contains s.1 || !old.any fun n => entryKey? n == some s.1) =
      decide (some s.1 ∉ old.map entryKey?) := by
    intro s hs
    have hkept : p.removes.contains s.1 = false := by simpa using hp.disjoint s hs
    rw [hkept, Bool.false_or, Bool.eq_iff_iff]
    simp
  rw [newEntries, addedBehind, List.filter_congr hadded]

end StylePatch.Plain

/-- **Entries that are left.** A patch that says one thing of each key leaves one list of the old entries. -/
theorem patched_iff (hp : p.Plain) {entries : List Entry} :
    Patched source p old entries ↔ entries = old.filterMap (Entry.patched? source p) := by
  constructor
  · intro h
    induction h with
    | nil => rfl
    | removed hkey hremoved hrest ih => rw [ih, List.filterMap_cons_none (patched?_of_removed hkey hremoved)]
    | @replaced span name before _ _ key _ hkey hset hrest ih =>
      have hentry : entryKey? (.keyValue span name before) = some key := hkey
      rw [ih, List.filterMap_cons_some (hp.patched?_of_mem hentry hset)]
      rfl
    | @spelledOut span _ _ key _ hset hrest ih =>
      have hentry : entryKey? (.shorthand span key) = some key := rfl
      rw [ih, List.filterMap_cons_some (hp.patched?_of_mem hentry hset)]
      rfl
    | kept hkey hrest ih => rw [ih, List.filterMap_cons_some (patched?_of_not_names hkey)]
  · rintro rfl
    induction old with
    | nil => exact .nil
    | cons n rest ih =>
      by_cases hnames : (entryKey? n).any p.names = true
      · obtain ⟨key, hkey, hnamed⟩ := (Option.any_eq_true _ _).1 hnames
        rw [StylePatch.names, Bool.or_eq_true, List.contains_iff_mem] at hnamed
        rcases hnamed with hremoved | hany
        · rw [List.filterMap_cons_none (patched?_of_removed hkey hremoved)]
          exact .removed hkey hremoved ih
        · obtain ⟨⟨k, value⟩, hset, hk⟩ := List.any_eq_true.1 hany
          obtain rfl : k = key := eq_of_beq hk
          rw [List.filterMap_cons_some (hp.patched?_of_mem hkey hset)]
          -- only these two kinds of entries have a key
          unfold entryKey? at hkey
          split at hkey
          · exact .replaced hkey hset ih
          · cases hkey
            exact .spelledOut hset ih
          · cases hkey
      · rw [List.filterMap_cons_some (patched?_of_not_names (Bool.eq_false_iff.2 hnames))]
        exact .kept (Bool.eq_false_iff.2 hnames) ih

/-! ## Changes -/

/-- the text of an entry shows its key, be it an entry that stands in the source or one that a patch writes -/
structure ShowsKeys (source : List Char) (p : StylePatch) (old : List Node)
    (keyOf : List Char → Option String) : Prop where
  standing : ∀ n ∈ old, keyOf (n.span.slice source) = entryKey? n
  left : ∀ entries, Patched source p old entries → ∀ entry ∈ entries, keyOf entry.text = entry.key
  added : ∀ s ∈ p.sets, keyOf (entryText s.1 s.2) = some s.1

theorem keyOf_newEntries (hp : p.Plain) (hkeys : ShowsKeys source p old keyOf) :
    ∀ entry ∈ newEntries source p old, keyOf entry.text = entry.key := by
  rw [hp.newEntries_eq]
  intro entry hentry
  rcases List.mem_append.1 hentry with hleft | hadded
  · exact hkeys.left _ ((patched_iff hp).2 rfl) entry hleft
  · obtain ⟨s, hs, rfl⟩ := List.mem_map.1 hadded
    exact hkeys.added s (List.mem_of_mem_filter hs)

/-- only removed entries are left out -/
theorem exists_removed {n : Node} (h : patchedText? source p n = none) :
    ∃ key, entryKey? n = some key ∧ key ∈ p.removes := by
  unfold patchedText? at h
  split at h
  · cases h
  · rename_i key hkey
    split at h
    · exact ⟨key, hkey, List.contains_iff_mem.1 ‹_›⟩
    · split at h <;> cases h

/-- **Changes show.** A patch changes an object if and only if the texts of its entries are other ones. -/
theorem patchChanges_eq_false_iff (hp : p.Plain) (hkeys : ShowsKeys source p old keyOf) :
    patchChanges source p old = false ↔
      (newEntries source p old).map Entry.text = old.map fun n => n.span.slice source := by
  constructor
  · intro h
    rw [newEntries_of_not_changes h, List.map_map]
    rfl
  · intro htexts
    -- as texts show keys, the entries have the keys of the old ones, among them none that was removed
    have hsame : (newEntries source p old).map Entry.key = old.map entryKey? := by
      have hnew : ((newEntries source p old).map Entry.text).map keyOf = (newEntries source p old).map Entry.key := by
        rw [List.map_map]
        exact List.map_congr_left (keyOf_newEntries hp hkeys)
      have hold : (old.map fun n => n.span.slice source).map keyOf = old.map entryKey? := by
        rw [List.map_map]
        exact List.map_congr_left hkeys.standing
      rw [← hnew, htexts, hold]
    have hstays (n : Node) (hn : n ∈ old) : patchedText? source p n ≠ none := by
      intro hnone
      obtain ⟨key, hkey, hremoved⟩ := exists_removed hnone
      have hmem : some key ∈ (newEntries source p old).map Entry.key := hsame ▸ hkey ▸ List.mem_map_of_mem hn
      obtain ⟨entry, hentry, hentryKey⟩ := List.mem_map.1 hmem
      exact key_ne_of_removed hremoved (fun s hs heq => hp.disjoint s hs (heq ▸ hremoved)) entry hentry hentryKey
    have hleft : old.filterMap (patchedText? source p) = old.map fun n => (patchedText? source p n).getD [] := by
      rw [List.filterMap_eq_map_iff_forall_eq_some]
      intro n hn
      obtain ⟨text, htext⟩ := Option.ne_none_iff_exists'.1 (hstays n hn)
      rw [htext, Option.getD_some]
    -- nothing is left out, so there is no room for an added entry, and the texts agree one by one
    rw [newEntries_text, patchedEntries, hleft, ← List.append_nil (old.map fun n => n.span.slice source)] at htexts
    obtain ⟨hsame, hadded⟩ := List.append_inj htexts (by simp)
    rw [List.map_inj_left] at hsame
    rw [patchChanges, hadded, Bool.or_eq_false_iff, List.any_eq_false]
    refine ⟨fun n hn => ?_, rfl⟩
    obtain ⟨text, htext⟩ := Option.ne_none_iff_exists'.1 (hstays n hn)
    have heq := hsame n hn
    rw [htext, Option.getD_some] at heq
    simp [htext, heq]

/-! ## Plans -/

theorem renderObject_ne_nil (source : List Char) (literal : Span) (old : List Node) (entries : List (List Char))
    (indentUnit : List Char) : renderObject source literal old entries indentUnit ≠ [] := by
  unfold renderObject
  split <;> exact List.cons_ne_nil _ _

/-- entries with the texts of the old ones -/
def SameTexts (source : List Char) (old : List Node) (entries : List Entry) : Prop :=
  entries.map Entry.text = old.map fun n => n.span.slice source

/-- **Plans for an object.** A patch that says one thing of each key leaves one list of the old entries. With the added
ones behind them it is the list that is planned: nothing is done if and only if the texts are the old ones, the
attribute is taken out if and only if the list has become empty, and else the object is written with this list. -/
theorem planStyle_patched (hobject : StyleAttribute.of e = .object whole literal old) (hp : p.Plain)
    (hkeys : ShowsKeys source p old keyOf) (indentUnit : List Char) :
    ∃ left entries, (∀ other, Patched source p old other ↔ other = left) ∧ entries = left ++ addedBehind p old ∧
      (planStyle source e p indentUnit = .ok none ↔ SameTexts source old entries) ∧
      (planStyle source e p indentUnit = .ok (some ⟨attributeWithBlanks source whole, []⟩) ↔
        entries = [] ∧ ¬SameTexts source old entries) ∧
      (entries ≠ [] → ¬SameTexts source old entries → planStyle source e p indentUnit =
        .ok (some ⟨literal, renderObject source literal old (entries.map Entry.text) indentUnit⟩)) := by
  have hchanges : patchChanges source p old = false ↔ SameTexts source old (newEntries source p old) :=
    patchChanges_eq_false_iff hp hkeys
  have hempty : (newEntries source p old).map Entry.text = [] ↔ newEntries source p old = [] := List.map_eq_nil_iff
  have hrendered (entries : List (List Char)) : renderObject source literal old entries indentUnit ≠ [] :=
    renderObject_ne_nil source literal old entries indentUnit
  rw [planStyle_object hobject, ← newEntries_text]
  refine ⟨_, newEntries source p old, fun other => patched_iff hp, hp.newEntries_eq, ?_, ?_, ?_⟩
  · rw [← hchanges]
    split
    · exact iff_of_true rfl ‹_›
    · refine iff_of_false ?_ ‹_›
      split <;> simp
  · rw [← hchanges, ← hempty]
    split
    · exact iff_of_false (by simp) fun h => h.2 ‹_›
    · split
      · exact iff_of_true rfl ⟨‹_›, ‹_›⟩
      · exact iff_of_false (by simp [hrendered]) fun h => absurd h.1 ‹_›
  · intro hleft hchanged
    rw [if_neg (mt hchanges.1 hchanged), if_neg (mt hempty.1 hleft)]

/-- an object with a removed key, a spread, a key in quotes and a shorthand -/
def oneOfEach : List Char :=
  "const a = <div style=\x7b\x7b color: \"red\", ...rest, \"top\": x, margin \x7d\x7d>x</div>;".toList

/-- a patch that removes a key, sets two that are there and adds one -/
def removesSetsAdds : StylePatch :=
  ⟨[("top", "9".toList), ("margin", "2".toList), ("padding", "4".toList)], ["color"]⟩

/-- the key of these entries by their text: what stands before the colon, without quotes -/
def keyByText (text : List Char) : Option String :=
  if "...".toList.isPrefixOf text then none
  else some (String.ofList ((text.takeWhile (· != ':')).filter (· != '\x22')))

/-- texts of the entries under the patch -/
def oneOfEachPatched : List (List Char) :=
  ["...rest".toList, "\"top\": 9".toList, "margin: 2".toList, "padding: 4".toList]

/-- an object whose entries show their keys, with the entries under the patch -/
def showsOneOfEach (e : Element) : Bool :=
  match StyleAttribute.of e with
  | .object _ _ old =>
    (old.all fun n => keyByText (n.span.slice oneOfEach) == entryKey? n) &&
      ((old.filterMap (Entry.patched? oneOfEach removesSetsAdds)).all fun entry => keyByText entry.text == entry.key) &&
      patchedEntries oneOfEach removesSetsAdds old == oneOfEachPatched &&
      (old.map fun n => n.span.slice oneOfEach) != oneOfEachPatched
  | _ => false

theorem planStyle_patched_oneOfEach : ∃ e whole literal old, locate oneOfEach ⟨1, 12⟩ = .ok e ∧
    StyleAttribute.of e = .object whole literal old ∧ planStyle oneOfEach e removesSetsAdds [] =
      .ok (some ⟨literal, renderObject oneOfEach literal old oneOfEachPatched []⟩) := by
  have hany : (locate oneOfEach ⟨1, 12⟩).toOption.any showsOneOfEach = true := by decide +kernel
  obtain ⟨e, hlocate, hshows⟩ := exists_of_toOption_any hany
  unfold showsOneOfEach at hshows
  split at hshows
  · rename_i whole literal old hobject
    simp only [Bool.and_eq_true, List.all_eq_true, beq_iff_eq, bne_iff_ne] at hshows
    obtain ⟨⟨⟨hstanding, hleft⟩, htexts⟩, hother⟩ := hshows
    have hp : removesSetsAdds.Plain := ⟨by decide, by decide⟩
    have hkeys : ShowsKeys oneOfEach removesSetsAdds old keyByText :=
      ⟨hstanding, fun entries hentries => (patched_iff hp).1 hentries ▸ hleft, by decide⟩
    obtain ⟨left, entries, hunique, hentries, -, -, hwritten⟩ := planStyle_patched hobject hp hkeys []
    have hnew : entries.map Entry.text = oneOfEachPatched := by
      rw [hentries, ← (hunique _).1 ((patched_iff hp).2 rfl), ← hp.newEntries_eq, newEntries_text, htexts]
    refine ⟨e, whole, literal, old, hlocate, hobject, hnew ▸ hwritten ?_ ?_⟩
    · rintro rfl
      cases hnew
    · rw [SameTexts, hnew]
      exact hother.symm
  · cases hshows

end TsxWorkbench.Edit
